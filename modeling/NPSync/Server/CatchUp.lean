import NPSync.KnownAnswers
import NPSync.Library.Ledger
import NPSync.Library.Pages
import NPSync.Server.VersionChain

/-! A device that catches up with the feed of its account, page after page, while
requests of any accounts go on beside it. -/
namespace NPSync.Server
open Library

abbrev FileLedger := Ledger State Call Call.Result Response Request

/-- An answer to `GET /sync/changes`, with the `since` it was asked for. -/
structure Page where
  since : Nat
  changes : List Change
  latestSeq : Nat

/-- The server, the poll the device waits for and the pages it has received. -/
structure CatchUp where
  server : FileLedger
  asked : Option Nat
  pages : List Page

inductive CatchUpMove
  | server (first : Move Request Bool)
  | ask (ctx : Context)
  | receive

namespace CatchUp

def initial : CatchUp := ⟨Ledger.initial State.empty,none,[]⟩

variable (c : CatchUp)

/-- The `latest_seq` of the last page; a device starts with 0. -/
def since : Nat := (c.pages.getLast?.map (·.latestSeq)).getD 0

def received : List Change := c.pages.flatMap (·.changes)

def feed (accountID : Str) : List Change := c.server.shared.mem.changes.filter (fun change => decide (change.accountID = accountID))

/-- The page in the answer of the poll the device waits for. -/
def answer : Option Page :=
  match c.asked.bind (fun index => c.server.threads[index]?) with
  | some ⟨.done (.changes changes latestSeq),_⟩ => some ⟨c.since,changes,latestSeq⟩
  | _ => none

end CatchUp

section
variable (prim : Primitives) (cfg : Config) (accountID : Str)

def catchUpStep (c : CatchUp) : CatchUpMove → CatchUp
  | .server first => {c with server := Ledger.move (handle prim cfg) exec c.server first}
  | .ask ctx =>
    match c.asked with
    | some _ => c
    | none => {c with
        server := Ledger.spawned (handle prim cfg) c.server (.poll {ctx with accountID := accountID} c.since)
        asked := some c.server.threads.length}
  | .receive =>
    match c.answer with
    | none => c
    | some page => {c with asked := none,pages := c.pages ++ [page]}

def catchUpRun (moves : List CatchUpMove) : CatchUp := run (catchUpStep prim cfg accountID) CatchUp.initial moves

end

/-! ### The feed grows at its end -/

/-- What one call can do to the feed. -/
inductive FeedStep (m after : Mem FileJSON) : Prop
  | quiet (changes : after.changes = m.changes) (nextSeq : after.nextSeq = m.nextSeq)
  | grown (c : Change) (number : c.changeSeq = m.nextSeq) (changes : after.changes = m.changes ++ [c])
      (nextSeq : after.nextSeq = m.nextSeq + 1)

theorem exec_feed (fault : Bool) (s : State) (call : Call) : FeedStep s.mem (exec fault s call).2.mem := by
  cases call with
  | createFile rec =>
    simp only [exec]
    rcases s.mem.createFile_cases rec with same | ⟨-,same⟩
    · rw [same]
      exact .quiet rfl rfl
    · rw [same]
      exact .grown _ rfl rfl rfl
  | updateFile rec base =>
    simp only [exec]
    rcases s.mem.updateFile_cases rec base with ⟨err,same⟩ | ⟨cur,-,-,same⟩
    · rw [same]
      exact .quiet rfl rfl
    · rw [same]
      exact .grown _ rfl rfl rfl
  | pruneVersions accountID fileID keep =>
    simp only [exec]
    rcases s.mem.pruneVersions_cases accountID fileID keep with same | ⟨-,same⟩
    · rw [same]
      exact .quiet rfl rfl
    · rw [same]
      exact .quiet rfl rfl
  | putBlob key content =>
    simp only [exec]
    split
    · exact .quiet rfl rfl
    split
    · exact .quiet rfl rfl
    · exact .quiet rfl rfl
  | getBlob key =>
    simp only [exec]
    split
    · exact .quiet rfl rfl
    split
    · exact .quiet rfl rfl
    · exact .quiet rfl rfl
  | deleteBlob key =>
    simp only [exec]
    split
    · exact .quiet rfl rfl
    · exact .quiet rfl rfl
  | _ => exact .quiet rfl rfl

/-- The feed has increasing positive numbers below the next one. -/
structure Numbered (m : Mem FileJSON) : Prop where
  increasing : Pages.Increasing (·.changeSeq) m.changes
  below : ∀ c ∈ m.changes, c.changeSeq < m.nextSeq
  positive : ∀ c ∈ m.changes, 0 < c.changeSeq
  next : 0 < m.nextSeq

theorem newMem_numbered : Numbered Mem.newMem := ⟨List.Pairwise.nil,by simp [Mem.newMem],by simp [Mem.newMem],Nat.one_pos⟩

section
variable {m after : Mem FileJSON}

theorem FeedStep.numbered (step : FeedStep m after) (numbered : Numbered m) : Numbered after := by
  cases step with
  | quiet changes nextSeq =>
    refine ⟨?_,?_,?_,?_⟩
    · rw [changes]
      exact numbered.increasing
    · rw [changes,nextSeq]
      exact numbered.below
    · rw [changes]
      exact numbered.positive
    · rw [nextSeq]
      exact numbered.next
  | grown c number changes nextSeq =>
    have next := numbered.next
    refine ⟨?_,?_,?_,by omega⟩
    · rw [changes]
      apply numbered.increasing.snoc (List.pairwise_singleton _ _)
      intro a member b new
      rw [List.mem_singleton.mp new,number]
      exact numbered.below a member
    · intro a member
      rw [changes] at member
      rcases List.mem_append.mp member with old | new
      · have smaller := numbered.below a old
        omega
      · rw [List.mem_singleton.mp new]
        omega
    · intro a member
      rw [changes] at member
      rcases List.mem_append.mp member with old | new
      · exact numbered.positive a old
      · rw [List.mem_singleton.mp new]
        omega

theorem FeedStep.prefix_ (step : FeedStep m after) : m.changes <+: after.changes := by
  cases step with
  | quiet changes nextSeq => exact changes ▸ List.prefix_rfl
  | grown c number changes nextSeq =>
    rw [changes]
    exact List.prefix_append _ _

end

/-- `ListChangesSince` cuts a page from the feed of the account. -/
theorem listChangesSince_page (m : Mem FileJSON) (accountID : Str) (since : Nat) :
    m.listChangesSince accountID since 1000 =
      Pages.page (·.changeSeq) (m.changes.filter (fun change => decide (change.accountID = accountID))) since 1000 := by
  simp only [Mem.listChangesSince,Pages.page,Pages.above,List.filter_filter]
  rw [if_pos (by omega)]
  congr 2
  funext c
  rw [Bool.decide_and]
  exact Bool.and_comm _ _

/-- `latest_seq` is the number of the last change of the page. -/
theorem latestSeq_advance {changes : List Change} {since : Nat} (increasing : Pages.Increasing (·.changeSeq) changes)
    (above : ∀ c ∈ changes, since < c.changeSeq) : latestSeq since changes = Pages.advance (·.changeSeq) since changes := by
  rcases List.eq_nil_or_concat changes with rfl | ⟨front,last,rfl⟩
  · rfl
  rw [List.concat_eq_append] at increasing above ⊢
  have smaller : latestSeq since front < last.changeSeq := by
    rcases latestSeq_cases since front with same | ⟨c,member,same⟩
    · rw [same]
      exact above last (by simp)
    · rw [same]
      exact (List.pairwise_append.mp increasing).2.2 c member last List.mem_cons_self
  have whole : latestSeq since (front ++ [last]) = last.changeSeq := by
    simp only [latestSeq,List.foldl_append,List.foldl_cons,List.foldl_nil] at smaller ⊢
    rw [if_pos smaller]
  rw [whole]
  simp [Pages.advance]

/-! ### A run of the device -/

theorem Numbered.feed {c : CatchUp} (numbered : Numbered c.server.shared.mem) (accountID : Str) :
    Pages.Increasing (·.changeSeq) (c.feed accountID) := numbered.increasing.filter _

/-- The page that is cut from the feed of an account. -/
def cutPage (since : Nat) (seen : List Change) : Page where
  since := since
  changes := Pages.page (·.changeSeq) seen since 1000
  latestSeq := Pages.advance (·.changeSeq) since (Pages.page (·.changeSeq) seen since 1000)

/-- The poll the device waits for: not yet served, or answered from the feed of an earlier moment. -/
inductive Poll (accountID : Str) (c : CatchUp) : Prop
  | idle (asked : c.asked = none)
  | called (index : Nat) (ctx : Context) (asked : c.asked = some index) (account : ctx.accountID = accountID)
      (serves : c.server.Serves index (.poll ctx c.since) (handleChanges ctx c.since) [])
  | answered (index : Nat) (ctx : Context) (log : List CallEvent) (seen : List Change) (asked : c.asked = some index)
      (old : seen <+: c.feed accountID)
      (serves : c.server.Serves index (.poll ctx c.since)
        (.done (.changes (cutPage c.since seen).changes (cutPage c.since seen).latestSeq)) log)

theorem Poll.received {accountID : Str} {c : CatchUp} (poll : Poll accountID c) {page : Page} (here : c.answer = some page) :
    ∃ seen, seen <+: c.feed accountID ∧ page = cutPage c.since seen := by
  cases poll with
  | idle asked => simp [CatchUp.answer,asked] at here
  | called index ctx asked account serves =>
    simp [CatchUp.answer,asked,serves.thread,handleChanges] at here
  | answered index ctx log seen asked old serves =>
    simp only [CatchUp.answer,asked,serves.thread,Option.bind_some,Option.some.injEq] at here
    exact ⟨seen,old,here.symm⟩

section
variable (prim : Primitives) (cfg : Config) {accountID : Str}

theorem move_feed (l : FileLedger) (first : Move Request Bool) :
    FeedStep l.shared.mem (Ledger.move (handle prim cfg) exec l first).shared.mem := by
  rcases Ledger.move_cases (handle prim cfg) exec l first with
    ⟨request,-,same⟩ | ⟨index,fault,request,op,next,log,-,-,same⟩ | same
  · rw [same]
    exact .quiet rfl rfl
  · rw [same]
    exact exec_feed fault l.shared op
  · rw [same]
    exact .quiet rfl rfl

/-- A move of the server leaves the answer as it is, or cuts it from the feed. -/
theorem Poll.server {c : CatchUp} (poll : Poll accountID c) (numbered : Numbered c.server.shared.mem)
    (first : Move Request Bool) :
    Poll accountID (catchUpStep prim cfg accountID c (.server first)) ∧
      ((catchUpStep prim cfg accountID c (.server first)).answer = c.answer ∨
        (catchUpStep prim cfg accountID c (.server first)).answer =
          some (cutPage c.since ((catchUpStep prim cfg accountID c (.server first)).feed accountID))) := by
  have grown : c.feed accountID <+: (catchUpStep prim cfg accountID c (.server first)).feed accountID :=
    (move_feed prim cfg c.server first).prefix_.filter _
  cases poll with
  | idle asked => exact ⟨.idle asked,.inl (by simp [CatchUp.answer,catchUpStep,asked])⟩
  | answered index ctx log seen asked old serves =>
    rcases serves.moved (handle prim cfg) exec first with stays | ⟨_,_,_,wrong,-,-⟩
    · refine ⟨.answered index ctx log seen asked (old.trans grown) stays,.inl ?_⟩
      simp only [CatchUp.answer,catchUpStep,asked,Option.bind_some,stays.thread,serves.thread]
      rfl
    · contradiction
  | called index ctx asked account serves =>
    rcases serves.moved (handle prim cfg) exec first with
      stays | ⟨fault,op,next,same,-,moved⟩
    · refine ⟨.called index ctx asked account stays,.inl ?_⟩
      simp only [CatchUp.answer,catchUpStep,asked,Option.bind_some,stays.thread,serves.thread]
      rfl
    · cases same
      have bound := (List.getElem?_eq_some_iff.mp serves.thread).1
      have listed : c.server.shared.mem.listChangesSince ctx.accountID c.since 1000 =
          (cutPage c.since (c.feed accountID)).changes := by
        rw [listChangesSince_page,account]
        rfl
      have latest : latestSeq c.since (cutPage c.since (c.feed accountID)).changes =
          (cutPage c.since (c.feed accountID)).latestSeq := by
        apply latestSeq_advance ((numbered.feed accountID).filter _).take
        intro change member
        exact of_decide_eq_true (List.mem_filter.mp (List.mem_of_mem_take member)).2
      have unchanged : (catchUpStep prim cfg accountID c (.server first)).feed accountID = c.feed accountID := by
        simp only [catchUpStep,CatchUp.feed,moved,Ledger.called,exec]
      have served : (catchUpStep prim cfg accountID c (.server first)).server.Serves index (.poll ctx c.since)
          (.done (.changes (cutPage c.since (c.feed accountID)).changes (cutPage c.since (c.feed accountID)).latestSeq))
          [⟨.listChangesSince ctx.accountID c.since 1000,(cutPage c.since (c.feed accountID)).changes⟩] := by
        simp only [catchUpStep,moved]
        refine ⟨serves.request,?_⟩
        simp only [Ledger.called,List.getElem?_set_self bound,exec,listed,latest,List.nil_append]
      refine ⟨.answered index ctx _ (c.feed accountID) asked (unchanged ▸ List.prefix_rfl) served,.inr ?_⟩
      have waiting : (catchUpStep prim cfg accountID c (.server first)).asked = some index := asked
      simp only [CatchUp.answer,waiting,Option.bind_some,served.thread,unchanged]
      rfl

/-- What holds in every state: the device has the feed up to its cursor. -/
structure Steady (accountID : Str) (c : CatchUp) : Prop where
  numbered : Numbered c.server.shared.mem
  sized : c.server.requests.length = c.server.threads.length
  poll : Poll accountID c
  behind : c.since < c.server.shared.mem.nextSeq
  exact : c.received = Pages.upTo (·.changeSeq) (c.feed accountID) c.since
  pages : ∀ page ∈ c.pages, page.changes.length ≤ 1000 ∧
    page.latestSeq = Pages.advance (·.changeSeq) page.since page.changes

/-- How far the device has come since an earlier state. -/
structure Ahead (accountID : Str) (old c : CatchUp) : Prop where
  grown : old.feed accountID <+: c.feed accountID
  more : old.pages.length ≤ c.pages.length
  enough : min (old.feed accountID).length (old.received.length + 1000 * (c.pages.length - old.pages.length - 1)) ≤
    c.received.length
  coming : old.pages.length < c.pages.length → ∀ page, c.answer = some page →
    min (old.feed accountID).length (c.received.length + 1000) ≤ (c.received ++ page.changes).length

theorem initial_steady : Steady accountID CatchUp.initial :=
  ⟨newMem_numbered,rfl,.idle rfl,Nat.one_pos,rfl,fun _ member => by simp [CatchUp.initial] at member⟩

theorem Ahead.refl (c : CatchUp) : Ahead accountID c c :=
  ⟨List.prefix_rfl,Nat.le_refl _,by omega,fun later => absurd later (Nat.lt_irrefl _)⟩

/-- What is written later lies above the cursor. -/
theorem upTo_feed {c : CatchUp} (after : CatchUp) (behind : c.since < c.server.shared.mem.nextSeq)
    (step : FeedStep c.server.shared.mem after.server.shared.mem) :
    Pages.upTo (·.changeSeq) (after.feed accountID) c.since = Pages.upTo (·.changeSeq) (c.feed accountID) c.since := by
  unfold CatchUp.feed
  cases step with
  | quiet changes nextSeq => rw [changes]
  | grown change number changes nextSeq =>
    have later : Pages.upTo (·.changeSeq) ([change].filter (fun change => decide (change.accountID = accountID))) c.since = [] := by
      apply Pages.upTo_eq_nil
      intro a member
      rw [List.mem_singleton.mp (List.mem_of_mem_filter member),number]
      exact behind
    rw [changes,List.filter_append]
    simp only [Pages.upTo] at later ⊢
    rw [List.filter_append,later,List.append_nil]

theorem Steady.server {c : CatchUp} (steady : Steady accountID c) (first : Move Request Bool) :
    Steady accountID (catchUpStep prim cfg accountID c (.server first)) := by
  have step := move_feed prim cfg c.server first
  refine ⟨step.numbered steady.numbered,?_,(steady.poll.server prim cfg steady.numbered first).1,?_,?_,steady.pages⟩
  · simp only [catchUpStep]
    rcases Ledger.move_cases (handle prim cfg) exec c.server first with
      ⟨request,-,same⟩ | ⟨index,fault,request,op,next,log,-,-,same⟩ | same
    · rw [same]
      simp [Ledger.spawned,steady.sized]
    · rw [same]
      simp [Ledger.called,steady.sized]
    · rw [same]
      exact steady.sized
  · have behind := steady.behind
    cases step with
    | quiet changes nextSeq => exact nextSeq ▸ behind
    | grown change number changes nextSeq =>
      have larger : c.since < (Ledger.move (handle prim cfg) exec c.server first).shared.mem.nextSeq := by omega
      exact larger
  · exact steady.exact.trans (upTo_feed (catchUpStep prim cfg accountID c (.server first)) steady.behind step).symm

theorem since_receive (c : CatchUp) (page : Page) :
    CatchUp.since {c with asked := none,pages := c.pages ++ [page]} = page.latestSeq := by
  simp [CatchUp.since]

theorem received_receive (c : CatchUp) (page : Page) :
    CatchUp.received {c with asked := none,pages := c.pages ++ [page]} = c.received ++ page.changes := by
  simp [CatchUp.received]

/-- The page that is received goes from the old cursor to the new one. -/
theorem Steady.receive {c : CatchUp} (steady : Steady accountID c) {page : Page} (here : c.answer = some page) :
    Steady accountID {c with asked := none,pages := c.pages ++ [page]} := by
  obtain ⟨seen,⟨more,whole⟩,rfl⟩ := steady.poll.received here
  have increasing := steady.numbered.feed accountID
  refine ⟨steady.numbered,steady.sized,.idle rfl,?_,?_,?_⟩
  · rw [since_receive]
    change Pages.advance (·.changeSeq) c.since (cutPage c.since seen).changes < c.server.shared.mem.nextSeq
    rcases Pages.advance_cases Change.changeSeq c.since (cutPage c.since seen).changes with ⟨-,same⟩ | ⟨last,member,same⟩
    · rw [same]
      exact steady.behind
    · have inside : last ∈ c.feed accountID := whole ▸ List.mem_append_left more (List.mem_of_mem_filter (List.mem_of_mem_take member))
      rw [same]
      exact steady.numbered.below last (List.mem_of_mem_filter inside)
  · rw [since_receive,received_receive,steady.exact]
    rw [← whole] at increasing
    have moved := Pages.upTo_advance increasing c.since 1000
    rw [whole] at moved
    exact moved.symm
  · intro other member
    rcases List.mem_append.mp member with old | new
    · exact steady.pages other old
    · rw [List.mem_singleton.mp new]
      exact ⟨List.length_take_le _ _,rfl⟩

theorem Steady.step {c : CatchUp} (steady : Steady accountID c) (first : CatchUpMove) :
    Steady accountID (catchUpStep prim cfg accountID c first) := by
  cases first with
  | server first => exact steady.server prim cfg first
  | ask ctx =>
    simp only [catchUpStep]
    split
    · exact steady
    · refine ⟨steady.numbered,by simp [Ledger.spawned,steady.sized],?_,steady.behind,steady.exact,steady.pages⟩
      refine .called c.server.threads.length {ctx with accountID := accountID} rfl rfl ⟨?_,?_⟩
      · simp only [Ledger.spawned,← steady.sized,List.getElem?_concat_length]
        rfl
      · simp only [Ledger.spawned,List.getElem?_concat_length]
        rfl
  | receive =>
    simp only [catchUpStep]
    split
    · exact steady
    · rename_i page here
      exact steady.receive here

theorem Ahead.step {old c : CatchUp} (ahead : Ahead accountID old c) (steady : Steady accountID c) (first : CatchUpMove) :
    Ahead accountID old (catchUpStep prim cfg accountID c first) := by
  cases first with
  | server first =>
    have grown : old.feed accountID <+: (catchUpStep prim cfg accountID c (.server first)).feed accountID :=
      ahead.grown.trans ((move_feed prim cfg c.server first).prefix_.filter _)
    refine ⟨grown,ahead.more,ahead.enough,fun later page here => ?_⟩
    rcases (steady.poll.server prim cfg steady.numbered first).2 with same | cut
    · exact ahead.coming later page (same.symm.trans here)
    · have after := steady.server prim cfg first
      cases Option.some.inj (cut.symm.trans here)
      have full := Pages.length_page (after.numbered.feed accountID) c.since 1000
      have exact : c.received = Pages.upTo (·.changeSeq)
        ((catchUpStep prim cfg accountID c (.server first)).feed accountID) c.since := after.exact
      rw [← exact] at full
      change min _ (c.received.length + 1000) ≤ (c.received ++ Pages.page Change.changeSeq _ c.since 1000).length
      rw [← full]
      have longer := grown.length_le
      omega
  | ask ctx =>
    simp only [catchUpStep]
    split
    · exact ahead
    · refine ⟨ahead.grown,ahead.more,ahead.enough,fun later page here => ?_⟩
      simp [CatchUp.answer,Ledger.spawned,handle,handleChanges] at here
  | receive =>
    simp only [catchUpStep]
    split
    · exact ahead
    · rename_i page here
      have more := ahead.more
      have enough := ahead.enough
      refine ⟨ahead.grown,?_,?_,fun later page here => by simp [CatchUp.answer] at here⟩
      · simp only [List.length_append,List.length_singleton]
        omega
      · rw [received_receive]
        simp only [List.length_append,List.length_singleton] at enough ⊢
        by_cases later : old.pages.length < c.pages.length
        · have coming := ahead.coming later page here
          rw [List.length_append] at coming
          omega
        · omega

theorem catchUp_steady (moves : List CatchUpMove) : Steady accountID (catchUpRun prim cfg accountID moves) :=
  run_invariant (catchUpStep prim cfg accountID) (fun _ _ => True) (Steady accountID) (fun _ first steady _ => steady.step prim cfg first)
    _ moves initial_steady (guarded_trivial _ _ moves)

theorem catchUp_ahead {c : CatchUp} (steady : Steady accountID c) (more : List CatchUpMove) :
    Steady accountID (run (catchUpStep prim cfg accountID) c more) ∧
      Ahead accountID c (run (catchUpStep prim cfg accountID) c more) :=
  run_invariant (catchUpStep prim cfg accountID) (fun _ _ => True) (fun d => Steady accountID d ∧ Ahead accountID c d)
    (fun _ first both _ => ⟨both.1.step prim cfg first,both.2.step prim cfg both.1 first⟩) c more ⟨steady,.refl c⟩ (guarded_trivial _ _ more)

/-- The device receives the feed of its account up to its cursor, every change once and
in order. Whatever stands in the feed at some moment has arrived when the device has
received one page more than what it lacked fills. -/
theorem catch_up_exactly_once (prim : Primitives) (cfg : Config) (accountID : Str) (moves : List CatchUpMove) :
    let c := catchUpRun prim cfg accountID moves
    c.received = (c.feed accountID).filter (fun change => decide (change.changeSeq ≤ c.since)) ∧
    c.received.Pairwise (fun a b => a.changeSeq < b.changeSeq) ∧
    (∀ page ∈ c.pages, page.changes.length ≤ 1000 ∧
      page.latestSeq = (page.changes.getLast?.map (·.changeSeq)).getD page.since) ∧
    ∀ more pending, (c.feed accountID).length ≤ c.received.length + 1000 * pending →
      c.pages.length + pending < (catchUpRun prim cfg accountID (moves ++ more)).pages.length →
      c.feed accountID <+: (catchUpRun prim cfg accountID (moves ++ more)).received := by
  have steady : Steady accountID (catchUpRun prim cfg accountID moves) := catchUp_steady prim cfg moves
  refine ⟨steady.exact,?_,steady.pages,?_⟩
  · rw [steady.exact]
    exact (steady.numbered.feed accountID).filter _
  · intro more pending fits polled
    have split : catchUpRun prim cfg accountID (moves ++ more) =
        run (catchUpStep prim cfg accountID) (catchUpRun prim cfg accountID moves) more := run_append _ _ _ _
    rw [split] at polled ⊢
    obtain ⟨later,ahead⟩ := catchUp_ahead prim cfg steady more
    have enough := ahead.enough
    refine List.prefix_of_prefix_length_le ahead.grown ?_ ?_
    · rw [later.exact]
      exact Pages.upTo_prefix (later.numbered.feed accountID) _
    · omega

end

section
open KnownAnswers (sample)

private def defaults : Config := ⟨1000000,1000000,10⟩

private def annaLaptop : Context := ⟨lit "anna",lit "laptop",[],1⟩
private def bertPhone : Context := ⟨lit "bert",lit "phone",[],1⟩

private def removed (baseVersion : Int) : FileJSON :=
  ⟨lit "33333333-3333-4333-8333-333333333333",lit "bWV0YQ",[],
    lit "0000000000000000000000000000000000000000000000000000000000000000",0,baseVersion,.empty,true,0,0,[],0,[]⟩

private def served (index count : Nat) : List CatchUpMove := List.replicate count (.server (.step index false))

private def twoWrites : List CatchUpMove :=
  .server (.spawn (.post annaLaptop (removed 0)))::served 0 2 ++ .server (.spawn (.post bertPhone (removed 0)))::served 1 2

/-- The first page has one change; another write follows before the second page. -/
private def twoPolls : List CatchUpMove :=
  .ask annaLaptop::served 2 1 ++ [.receive] ++
    .server (.spawn (.put annaLaptop (removed 0).fileID (removed 1)))::served 3 2 ++ .ask annaLaptop::served 4 1 ++ [.receive]

theorem written_change_received :
    ((catchUpRun sample defaults (lit "anna") twoWrites).feed (lit "anna")).length = 1 ∧
      (catchUpRun sample defaults (lit "anna") twoWrites).feed (lit "anna") <+:
        (catchUpRun sample defaults (lit "anna") (twoWrites ++ twoPolls)).received :=
  ⟨by decide,(catch_up_exactly_once sample defaults (lit "anna") twoWrites).2.2.2 twoPolls 1
    (by decide) (by decide)⟩

end
end NPSync.Server
