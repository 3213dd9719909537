import NPSync.Server.Pairing
import NPSync.Server.PostgresAuth

/-! Polls for one approved pairing code, at the same time. `pairPoll` reads the
code and marks it consumed in two calls, and neither store looks at the mark. -/
namespace NPSync.Server
open Library

/-- A store as polls see it: its calls, the codes it holds, and what the calls
leave of a code that is not drawn again. -/
structure PairingStore (S : Type) where
  exec : AuthEnv → S → (call : AuthCall) → call.Result × S
  codes : S → Table Str PairingCode
  present : ∀ env s call code, (∀ pc, call = .createPairingCode pc → pc.code ≠ code) → ((codes s).get code).isSome = true →
    ((codes (exec env s call).2).get code).isSome = true
  consumed : ∀ env s call code pc, (∀ pc, call = .createPairingCode pc → pc.code ≠ code) → (codes s).get code = some pc →
    pc.consumedAt ≠ none → ∃ after, (codes (exec env s call).2).get code = some after ∧ after.consumedAt ≠ none
  consumes : ∀ env s code, ((codes s).get code).isSome = true → (exec env s (.consumePairingCode code)).1 = .ok () →
    ∃ after, (codes (exec env s (.consumePairingCode code)).2).get code = some after ∧ after.consumedAt ≠ none

abbrev PollLedger (S : Type) := Ledger S AuthCall AuthCall.Result AuthResponse AuthRequest

/-- The call that a thread is about to make. -/
def nextCall {S : Type} (l : PollLedger S) (index : Nat) : Option AuthCall :=
  match l.threads[index]? with
  | some ⟨.call op _,_⟩ => some op
  | _ => none

/-- A poll answered with the wrapped key. -/
def Paired {S : Type} (l : PollLedger S) (index : Nat) (code : Str) : Prop :=
  ∃ claims w log, l.Serves index (.pair (some claims) (.poll code)) (.done (.paired w)) log

def createsCode : AuthCall → Option Str
  | .createPairingCode pc => some pc.code
  | _ => none

def consumesCode : AuthCall → Option Str
  | .consumePairingCode code => some code
  | _ => none

/-- The step neither draws the code again nor consumes it a second time. -/
def ConsumesUnused {S : Type} (store : PairingStore S) (code : Str) (l : PollLedger S) : AuthMove → Prop
  | .spawn _ => True
  | .step index _ => (nextCall l index).bind createsCode ≠ some code ∧
    ((nextCall l index).bind consumesCode = some code → ∀ pc ∈ (store.codes l.shared).get code, pc.consumedAt = none)

instance {S : Type} (store : PairingStore S) (code : Str) (l : PollLedger S) (first : AuthMove) :
    Decidable (ConsumesUnused store code l first) :=
  match first with
  | .spawn _ => .isTrue trivial
  | .step _ _ => inferInstanceAs (Decidable (_ ∧ _))

/-! ### What a poll has done before it hands out the key -/

def consumedCode : AuthEvent → Option Str
  | ⟨.consumePairingCode code,.ok _⟩ => some code
  | _ => none

/-- A key is handed out after an accepted consume. -/
def PollAnswer (request : AuthRequest) (log : List AuthEvent) (response : AuthResponse) : Prop :=
  ∀ claims code w, request = .pair (some claims) (.poll code) → response = .paired w →
    ∃ event ∈ log, consumedCode event = some code

section
variable (lib : AuthLibrary) (cfg : AuthConfig)

theorem pairPoll_answer (claims : Claims) (code : Str) (log : List AuthEvent) :
    (pairPoll claims code).Answers (PollAnswer (.pair (some claims) (.poll code))) log := by
  unfold pairPoll
  split
  · exact fun _ _ _ _ other => nomatch other
  intro read
  cases read with
  | error err => exact fun _ _ _ _ other => nomatch other
  | ok pc =>
    dsimp only
    split
    · exact fun _ _ _ _ other => nomatch other
    intro now
    dsimp only [answerPoll]
    split
    · exact fun _ _ _ _ other => nomatch other
    split
    · exact fun _ _ _ _ other => nomatch other
    intro consumed
    cases consumed with
    | error err => exact fun _ _ _ _ other => nomatch other
    | ok done =>
      intro claims' code' w same _
      injection same with _ action
      injection action with action
      subst action
      exact ⟨⟨.consumePairingCode code,.ok done⟩,by simp,rfl⟩

theorem handleAuth_pollAnswer (request : AuthRequest) : (handleAuth lib cfg request).Answers (PollAnswer request) [] := by
  by_cases polls : ∃ claims code, request = .pair (some claims) (.poll code)
  · obtain ⟨claims,code,rfl⟩ := polls
    intro device
    cases device with
    | error err => exact fun _ _ _ _ other => nomatch other
    | ok dev =>
      dsimp only
      split
      · exact fun _ _ _ _ other => nomatch other
      · intro touched
        exact pairPoll_answer claims code _
  · apply Program.answers_of_forall
    intro log response claims code w same
    exact absurd ⟨claims,code,same⟩ polls

/-! ### At most one consume -/

variable {S : Type} (store : PairingStore S) (code : Str)

/-- The code is there, and once a poll has consumed it no other poll has or will. -/
structure ConsumedOnce (l : PollLedger S) : Prop where
  present : ((store.codes l.shared).get code).isSome = true
  marked : ∀ entry ∈ l.history, consumedCode entry.event = some code →
    ∃ pc, (store.codes l.shared).get code = some pc ∧ pc.consumedAt ≠ none
  alone : Ledger.Earlier (fun entry past => consumedCode entry.event = some code →
    ∀ other ∈ past, consumedCode other.event ≠ some code) l.history

omit store in
theorem consumedCode_ok {call : AuthCall} {result : call.Result} (consumed : consumedCode ⟨call,result⟩ = some code) :
    (⟨call,result⟩ : AuthEvent) = ⟨.consumePairingCode code,.ok ()⟩ := by
  unfold consumedCode at consumed
  split at consumed
  · rename_i other done same
    cases consumed
    exact same
  · contradiction

variable {store code}

theorem ConsumedOnce.called {l : PollLedger S} (inv : ConsumedOnce store code l) {index : Nat} {env : AuthEnv}
    {request : AuthRequest} {op : AuthCall} {next : op.Result → AuthHandler} {log : List AuthEvent}
    (guard : ConsumesUnused store code l (.step index env)) (serves : l.Serves index request (.call op next) log) :
    ConsumedOnce store code (Ledger.called store.exec l index env request op next log) := by
  have coming : nextCall l index = some op := by simp [nextCall,serves.thread]
  dsimp only [ConsumesUnused] at guard
  rw [coming] at guard
  have fresh : ∀ pc, op = .createPairingCode pc → pc.code ≠ code := by
    rintro pc rfl same
    exact guard.1 (congrArg some same)
  refine ⟨store.present env l.shared op code fresh inv.present,?_,inv.alone.snoc _ ?_⟩
  · intro entry member consumed
    rcases List.mem_append.mp member with old | new
    · obtain ⟨pc,found,marked⟩ := inv.marked entry old consumed
      exact store.consumed env l.shared op code pc fresh found marked
    · rw [List.mem_singleton.mp new] at consumed
      have same := consumedCode_ok code consumed
      cases op with
      | consumePairingCode other =>
        injection same with call result
        cases call
        exact store.consumes env l.shared code inv.present result
      | _ => injection same with call; cases call
  · intro consumed other member again
    obtain ⟨pc,found,marked⟩ := inv.marked other member again
    have same := consumedCode_ok code consumed
    cases op with
    | consumePairingCode asked =>
      injection same with call
      cases call
      exact marked (guard.2 rfl pc found)
    | _ => injection same with call; cases call

end

section
variable {S : Type} (lib : AuthLibrary) (cfg : AuthConfig) (store : PairingStore S)

/-- Polls that find the code unconsumed when they consume it hand the key out once. -/
theorem paired_once (code : Str) (s : S) (moves : List AuthMove) (present : ((store.codes s).get code).isSome = true)
    (unused : Guarded (Ledger.move (handleAuth lib cfg) store.exec) (ConsumesUnused store code) (Ledger.initial s) moves)
    (first second : Nat) (one : Paired (run (Ledger.move (handleAuth lib cfg) store.exec) (Ledger.initial s) moves) first code)
    (two : Paired (run (Ledger.move (handleAuth lib cfg) store.exec) (Ledger.initial s) moves) second code) :
    first = second := by
  obtain ⟨inv,answered,logged⟩ := Ledger.ledger_invariant (fun request program log => program.Answers (PollAnswer request) log)
    (ConsumesUnused store code) (ConsumedOnce store code) (handleAuth_pollAnswer lib cfg) (fun _ _ _ _ answers => answers)
    (fun l request _ inv => ⟨inv.present,inv.marked,inv.alone⟩)
    (fun l index env request op next log inv _ _ guard serves => inv.called guard serves) s moves
    ⟨present,by simp [Ledger.initial],Ledger.earlier_nil _⟩ unused
  have consume : ∀ index, Paired (run (Ledger.move (handleAuth lib cfg) store.exec) (Ledger.initial s) moves) index code →
      ∃ (position : Nat) (entry : Entry S AuthCall AuthCall.Result AuthRequest),
        (run (Ledger.move (handleAuth lib cfg) store.exec) (Ledger.initial s) moves).history[position]? = some entry ∧
          entry.index = index ∧ consumedCode entry.event = some code := by
    rintro index ⟨claims,w,log,serves⟩
    obtain ⟨event,member,consumed⟩ := answered index _ _ log serves claims code w rfl rfl
    rw [logged.logs index _ _ log serves] at member
    obtain ⟨entry,inside,owner,rfl⟩ := Ledger.mem_callsOf.mp member
    obtain ⟨position,found⟩ := List.getElem?_of_mem inside
    exact ⟨position,entry,found,owner,consumed⟩
  obtain ⟨i,a,foundA,ownerA,consumedA⟩ := consume first one
  obtain ⟨j,b,foundB,ownerB,consumedB⟩ := consume second two
  rcases Nat.lt_trichotomy i j with earlier | rfl | later
  · exact absurd consumedA (inv.alone.at foundB consumedB a (Ledger.mem_take earlier foundA))
  · rw [foundA] at foundB
    cases foundB
    exact ownerA.symm.trans ownerB
  · exact absurd consumedB (inv.alone.at foundA consumedA b (Ledger.mem_take later foundB))

end

/-! ### The two stores -/

/-- An upsert that consumes, or that leaves the mark of the old record. -/
theorem marked_upsert {codes : Table Str PairingCode} {code other : Str} {pc new : PairingCode}
    (found : codes.get code = some pc) (marked : pc.consumedAt ≠ none)
    (kept : ∀ old, codes.get other = some old → old.consumedAt ≠ none → new.consumedAt ≠ none) :
    ∃ after, (codes.upsert other new).get code = some after ∧ after.consumedAt ≠ none := by
  rw [Table.get_upsert]
  split
  · rename_i here
    exact ⟨new,rfl,kept pc (here ▸ found) marked⟩
  · exact ⟨pc,found,marked⟩

theorem present_upsert {codes : Table Str PairingCode} {code : Str} (other : Str) (new : PairingCode)
    (found : (codes.get code).isSome = true) : ((codes.upsert other new).get code).isSome = true := by
  rw [Table.get_upsert]
  split
  · rfl
  · exact found

def memPairing : PairingStore AuthState where
  exec := execAuth
  codes s := s.mem.pairing
  present env s call code _ found := by
    rcases execAuth_pairing env s call with
      same | ⟨new,-,-,same⟩ | ⟨other,device,wrapped,old,-,-,-,-,-,same⟩ | ⟨other,old,-,-,same⟩
    · rwa [same]
    all_goals rw [same]; exact present_upsert _ _ found
  consumed env s call code pc fresh found marked := by
    rcases execAuth_pairing env s call with
      same | ⟨new,created,-,same⟩ | ⟨other,device,wrapped,old,-,-,there,-,-,same⟩ | ⟨other,old,-,-,same⟩
    · rw [same]
      exact ⟨pc,found,marked⟩
    · rw [same,Table.get_upsert_other _ _ _ _ (Ne.symm (fresh new created))]
      exact ⟨pc,found,marked⟩
    · rw [same]
      apply marked_upsert found marked
      intro stored here
      rw [there] at here
      cases here
      exact id
    · rw [same]
      exact marked_upsert found marked fun _ _ _ => by simp
  consumes env s code found accepted := by
    obtain ⟨pc,stored⟩ := Option.isSome_iff_exists.mp found
    simp only [execAuth,execAuthAt] at accepted ⊢
    rcases attempt_cases env {s with clock := s.clock + env.elapsed}
        (s.mem.consumePairingCode code (s.clock + env.elapsed)) with same | same
    · rw [same] at accepted
      contradiction
    · rw [same]
      simp [AuthMem.consumePairingCode,stored]

namespace Postgres

/-- What one call can do to the pairing codes. -/
theorem execAuth_pairing (env : AuthEnv) (s : AuthState) (call : AuthCall) :
    (execAuth env s call).2.db.pairing = s.db.pairing ∨
    (∃ pc row, call = .createPairingCode pc ∧ (execAuth env s call).2.db.pairing = s.db.pairing.upsert pc.code row) ∨
    ∃ code pc row, s.db.pairing.get code = some pc ∧ (row.consumedAt = pc.consumedAt ∨ row.consumedAt ≠ none) ∧
      (execAuth env s call).2.db.pairing = s.db.pairing.upsert code row := by
  by_cases other : call.part = some .pairing
  · cases failing : env.fault with
    | true =>
      refine .inl ?_
      cases call with
      | createPairingCode pc => simp only [execAuth,execAuthAt,attempt,failing,if_true]
      | approvePairingCode code device wrapped => simp only [execAuth,execAuthAt,attempt,failing,if_true]
      | consumePairingCode code => simp only [execAuth,execAuthAt,attempt,failing,if_true]
      | _ => cases other
    | false =>
      cases call with
      | createPairingCode pc =>
        simp only [execAuth,execAuthAt,attempt,failing,Bool.false_eq_true,if_false,AuthDb.createPairingCode]
        split
        · exact .inl rfl
        · exact .inr (.inl ⟨pc,_,rfl,rfl⟩)
      | approvePairingCode code device wrapped =>
        simp only [execAuth,execAuthAt,attempt,failing,Bool.false_eq_true,if_false,AuthDb.approvePairingCode]
        split
        · exact .inl rfl
        · rename_i pc usable
          have found := (Option.filter_eq_some_iff.mp usable).1
          exact .inr (.inr ⟨code,pc,{pc with wrappedMasterKey := wrapped,approvingDevice := some device},found,.inl rfl,rfl⟩)
      | consumePairingCode code =>
        simp only [execAuth,execAuthAt,attempt,failing,Bool.false_eq_true,if_false,AuthDb.consumePairingCode]
        split
        · exact .inl rfl
        · rename_i pc found
          exact .inr (.inr ⟨code,pc,_,found,.inr (by simp),rfl⟩)
      | _ => cases other
  · exact .inl ((execAuth_sameBut env s call).pairing other)

end Postgres

def postgresPairing : PairingStore Postgres.AuthState where
  exec := Postgres.execAuth
  codes s := s.db.pairing
  present env s call code _ found := by
    rcases Postgres.execAuth_pairing env s call with same | ⟨new,row,-,same⟩ | ⟨other,pc,row,-,-,same⟩
    · rwa [same]
    all_goals rw [same]; exact present_upsert _ _ found
  consumed env s call code pc fresh found marked := by
    rcases Postgres.execAuth_pairing env s call with same | ⟨new,row,created,same⟩ | ⟨other,old,row,there,mark,same⟩
    · rw [same]
      exact ⟨pc,found,marked⟩
    · rw [same,Table.get_upsert_other _ _ _ _ (Ne.symm (fresh new created))]
      exact ⟨pc,found,marked⟩
    · rw [same]
      apply marked_upsert found marked
      intro stored here old
      rw [there] at here
      cases here
      rcases mark with kept | set
      · rwa [kept]
      · exact set
  consumes env s code found accepted := by
    obtain ⟨pc,stored⟩ := Option.isSome_iff_exists.mp found
    simp only [Postgres.execAuth,Postgres.execAuthAt,Postgres.attempt] at accepted ⊢
    split at accepted
    · contradiction
    · rename_i works
      simp [works,Postgres.AuthDb.consumePairingCode,stored]

/-! ### Two polls for one code -/

section
open SampleServer

private def desktopDevice : DeviceRecord := ⟨lit "device-2",lit "account-1",lit "desktop",0,0,none⟩

/-- The code of the desktop after the laptop has approved it. -/
private def approvedDesktop : PairingCode :=
  ⟨lit "ABCD-EFGH",lit "account-1",lit "device-2",lit "hello",some (lit "device-1"),pairingCodeTTL,none⟩

private def approvedMem : AuthState :=
  ⟨{AuthMem.newMem with
    devices := Table.empty.upsert desktopDevice.id desktopDevice
    pairing := Table.empty.upsert approvedDesktop.code approvedDesktop},0⟩

private def approvedDb : Postgres.AuthState :=
  ⟨{Postgres.AuthDb.empty with
    devices := Table.empty.upsert desktopDevice.id desktopDevice
    pairing := Table.empty.upsert approvedDesktop.code approvedDesktop},0⟩

private def desktopPolls : AuthRequest := .pair (some ⟨lit "account-1",lit "device-2"⟩) (.poll (lit "ABCD-EFGH"))

/-- The second poll starts when the first has its answer. -/
private def pollsInTurn : List AuthMove :=
  .spawn desktopPolls::List.replicate 5 (stepOf 0 "unused") ++ .spawn desktopPolls::List.replicate 5 (stepOf 1 "unused")

/-- Both polls read the code before either consumes it. -/
private def pollsAtOnce : List AuthMove :=
  [.spawn desktopPolls,.spawn desktopPolls] ++ List.replicate 4 (stepOf 0 "unused") ++
    List.replicate 4 (stepOf 1 "unused") ++ [stepOf 0 "unused",stepOf 1 "unused"]

private abbrev pollRun {S : Type} (store : PairingStore S) (s : S) (moves : List AuthMove) : PollLedger S :=
  run (Ledger.move (handleAuth asciiAuth openServer) store.exec) (Ledger.initial s) moves

private theorem paired_of_answer {S : Type} {l : PollLedger S} {index : Nat}
    (facts : l.requests[index]? = some desktopPolls ∧ ((l.threads[index]?).bind pairedAnswer).isSome = true) :
    Paired l index (lit "ABCD-EFGH") := by
  obtain ⟨w,answer⟩ := Option.isSome_iff_exists.mp facts.2
  obtain ⟨⟨program,log⟩,found,same⟩ := Option.bind_eq_some_iff.mp answer
  unfold pairedAnswer at same
  split at same
  · rename_i key finished
    cases same
    dsimp only at finished
    subst finished
    exact ⟨_,_,log,facts.1,found⟩
  · contradiction

theorem polls_in_turn_pair_once :
    ¬Paired (pollRun memPairing approvedMem pollsInTurn) 1 (lit "ABCD-EFGH") ∧
      ¬Paired (pollRun postgresPairing approvedDb pollsInTurn) 1 (lit "ABCD-EFGH") := by
  have memFacts : Guarded (Ledger.move (handleAuth asciiAuth openServer) memPairing.exec)
        (ConsumesUnused memPairing (lit "ABCD-EFGH")) (Ledger.initial approvedMem) pollsInTurn ∧
      (pollRun memPairing approvedMem pollsInTurn).requests[0]? = some desktopPolls ∧
      (((pollRun memPairing approvedMem pollsInTurn).threads[0]?).bind pairedAnswer).isSome = true := by
    decide
  have dbFacts : Guarded (Ledger.move (handleAuth asciiAuth openServer) postgresPairing.exec)
        (ConsumesUnused postgresPairing (lit "ABCD-EFGH")) (Ledger.initial approvedDb) pollsInTurn ∧
      (pollRun postgresPairing approvedDb pollsInTurn).requests[0]? = some desktopPolls ∧
      (((pollRun postgresPairing approvedDb pollsInTurn).threads[0]?).bind pairedAnswer).isSome = true := by
    decide
  constructor
  · intro again
    have same := paired_once asciiAuth openServer memPairing (lit "ABCD-EFGH") approvedMem pollsInTurn rfl memFacts.1 0 1
      (paired_of_answer memFacts.2) again
    contradiction
  · intro again
    have same := paired_once asciiAuth openServer postgresPairing (lit "ABCD-EFGH") approvedDb pollsInTurn rfl dbFacts.1 0 1
      (paired_of_answer dbFacts.2) again
    contradiction

/-- Two polls at once: both get the key, with either store. -/
theorem polls_at_once_pair_twice :
    (Paired (pollRun memPairing approvedMem pollsAtOnce) 0 (lit "ABCD-EFGH") ∧
        Paired (pollRun memPairing approvedMem pollsAtOnce) 1 (lit "ABCD-EFGH")) ∧
      Paired (pollRun postgresPairing approvedDb pollsAtOnce) 0 (lit "ABCD-EFGH") ∧
        Paired (pollRun postgresPairing approvedDb pollsAtOnce) 1 (lit "ABCD-EFGH") := by
  refine ⟨⟨paired_of_answer ?_,paired_of_answer ?_⟩,paired_of_answer ?_,paired_of_answer ?_⟩
  all_goals decide

end
end NPSync.Server
