import NPSync.Engine.Clients
import NPSync.KnownAnswers

/-! Deletions of a device beside the requests of others. `DELETE` names no base
version: the handler puts a tombstone over whatever head it reads. -/
namespace NPSync.Engine
open Library Server

/-- What the request of `deleteRemote` calls: it reads the head and replaces the version it has read. -/
def DeleteAllowed (accountID fileId : Str) (log : List CallEvent) : Call → Prop
  | .getFile account file => account = accountID ∧ file = fileId
  | .updateFile rec base => ∃ cur, log = [⟨.getFile accountID fileId,.ok cur⟩] ∧ base = cur.version ∧
    rec.accountID = cur.accountID ∧ rec.fileID = cur.fileID
  | .publish .. => True
  | _ => False

theorem handleDeleteFile_keeps (ctx : Context) (fileId : Str) :
    (handleDeleteFile ctx fileId).Keeps (DeleteAllowed ctx.accountID fileId) [] := by
  refine ⟨⟨rfl,rfl⟩,fun read => ?_⟩
  cases read with
  | error err => trivial
  | ok cur =>
    refine ⟨⟨cur,rfl,rfl,rfl,rfl⟩,fun result => ?_⟩
    cases result with
    | error err => trivial
    | ok updated => exact ⟨trivial,fun _ => trivial⟩

/-- The call that a thread is about to make. -/
def upcoming (l : ClientLedger) (index : Nat) : Option Call :=
  match l.threads[index]? with
  | some ⟨.call op _,_⟩ => some op
  | _ => none

def readsFile : Call → Option Str
  | .getFile accountID fileID => some (Mem.fileKey accountID fileID)
  | _ => none

/-- The head that the thread reads has the version that the device knows. -/
def ReadsSeen (index : Nat) (version : Int) (l : ClientLedger) : Move Party Bool → Prop
  | .spawn _ => True
  | .step thread _ => thread = index → ∀ key ∈ (upcoming l thread).bind readsFile, ∀ cur ∈ l.shared.mem.files.get key,
    (cur.version : Int) = version

instance (index : Nat) (version : Int) (l : ClientLedger) (first : Move Party Bool) : Decidable (ReadsSeen index version l first) :=
  match first with
  | .spawn _ => .isTrue trivial
  | .step thread _ => inferInstanceAs (Decidable (thread = index → ∀ key ∈ (upcoming l thread).bind readsFile,
      ∀ cur ∈ l.shared.mem.files.get key,_))

section
variable (plat : Platform) (cfg : Config)

/-- A `deleteRemote` of the file in the row `st`. -/
structure Deletion (party : Party) (accountID : Str) (st : LocalFileState) : Prop where
  known : st.fileId ≠ []
  asks : ∃ dev l relPath dispatches, l.db.getFile relPath = some st ∧ party.1 = .client dev accountID (deleteRemote l relPath) dispatches

theorem Deletion.keeps {party : Party} {accountID : Str} {st : LocalFileState} (deletion : Deletion party accountID st) :
    (partyProgram plat cfg party).Keeps (DeleteAllowed accountID st.fileId) [] := by
  obtain ⟨dev,l,relPath,dispatches,row,same⟩ := deletion.asks
  unfold partyProgram
  rw [same]
  dsimp only
  have exchange : ∀ r : ApiResponse, ∀ rest log, (overServer ⟨plat,dev,cfg,accountID⟩
      (if !r.transportOk then fails "offline" {l with online := r.transportOk}
        else if r.status = 200 ∨ r.status = 404 then
          .done (.applied,{l with online := r.transportOk,db := l.db.removeFile relPath})
        else refused r "delete failed" {l with online := r.transportOk}) rest).Keeps (DeleteAllowed accountID st.fileId) log := by
    intro r rest log
    split
    · trivial
    split
    · trivial
    · unfold refused
      split <;> trivial
  apply Program.Keeps.bind
  · unfold deleteRemote
    rw [row]
    dsimp only
    rw [if_neg deletion.known]
    cases dispatches with
    | nil => exact exchange unreachable [] []
    | cons dispatch rest =>
      apply Program.Keeps.bind
      · unfold send
        split
        · trivial
        · apply Program.Keeps.bind
          · exact handleDeleteFile_keeps (context ⟨plat,dev,cfg,accountID⟩ dispatch.now) st.fileId
          · intro calls out yields
            trivial
      · intro calls r yields
        exact exchange r rest _
  · intro calls out yields
    trivial

/-- Every thread of a run that deletes a file does so as it should. -/
theorem clientRun_deletes (moves : List (Move Party Bool)) :
    Ledger.Served (fun (party : Party) program log => ∀ accountID st, Deletion party accountID st →
      program.Keeps (DeleteAllowed accountID st.fileId) log) (clientRun plat cfg moves) :=
  (Ledger.ledger_invariant _ (fun _ _ => True) (fun _ => True) (fun _ _ _ deletion => deletion.keeps plat cfg)
    (fun _ _ _ _ keeps result accountID st deletion => (keeps accountID st deletion).2 result) (fun _ _ _ _ => trivial)
    (fun _ _ _ _ _ _ _ _ _ _ _ _ => trivial) State.empty moves trivial (guarded_trivial _ _ moves)).2.1

/-- A tombstone replaces the head that its request has read. -/
theorem tombstone_read {moves : List (Move Party Bool)} {entry : ServerEntry Party}
    (member : entry ∈ (clientRun plat cfg moves).history) {accountID : Str} {st : LocalFileState}
    (deletion : Deletion entry.request accountID st) {rec head : FileRecord} {base : Int}
    (accepted : entry.event = ⟨.updateFile rec base,.ok head⟩) :
    ∃ old, entry.before.mem.files.get (Mem.fileKey accountID st.fileId) = some old ∧
      ∃ read ∈ (clientRun plat cfg moves).history, read.index = entry.index ∧
        ∃ seen, read.event = ⟨.getFile accountID st.fileId,.ok seen⟩ ∧ seen.version = old.version := by
  obtain ⟨past,future,split⟩ := List.append_of_mem member
  obtain ⟨before,fault,op,next,log,here,serves,stood,event,-⟩ := Ledger.entry_moment State.empty moves past future entry split
  have keeps := (clientRun_deletes plat cfg before _ _ _ _ serves accountID st deletion).1
  rw [accepted] at event
  cases congrArg Event.op event
  obtain ⟨cur,same,rfl,owner,file⟩ := keeps
  have served := answer_of_event (fun op => (exec fault entry.before op).1) event
  obtain ⟨old,found,version,-⟩ := exec_updateFile_ok served
  have calls := (clientRun_logged plat cfg before).logs _ _ _ _ serves
  rw [same] at calls
  obtain ⟨read,inside,mine,reading⟩ := Ledger.mem_callsOf.mp (calls ▸ List.mem_singleton_self _)
  have heads := clientRun_heads plat cfg before
  have named := (heads.reads read inside _ cur (by rw [reading]; rfl)).2
  rw [owner,file,named] at found
  refine ⟨old,found,read,?_,mine,cur,reading,?_⟩
  · rw [split]
    exact List.mem_append_left _ (here ▸ inside)
  · have equal : (old.version : Int) = cur.version := version
    omega

/-- What the guard says of the heads that the thread has read. -/
theorem guarded_reads (moves : List (Move Party Bool)) (index : Nat) (version : Int)
    (seen : Guarded (Ledger.move (partyProgram plat cfg) exec) (ReadsSeen index version) (Ledger.initial State.empty) moves) :
    ∀ entry ∈ (clientRun plat cfg moves).history, entry.index = index → ∀ key cur, readHead entry.event = some (key,cur) →
      (cur.version : Int) = version := by
  apply (Ledger.ledger_invariant (fun _ _ _ => True) (ReadsSeen index version)
    (fun l => ∀ entry ∈ l.history, entry.index = index → ∀ key cur, readHead entry.event = some (key,cur) →
      (cur.version : Int) = version) (fun _ => trivial) (fun _ _ _ _ _ _ => trivial) (fun _ _ _ holds => holds) ?_
    State.empty moves (by simp [Ledger.initial]) seen).1
  intro l thread fault party op next log holds _ _ guard serves entry member mine key cur read
  rcases List.mem_append.mp member with old | new
  · exact holds entry old mine key cur read
  · cases List.mem_singleton.mp new
    cases op with
    | getFile accountID fileID =>
      obtain ⟨found,-⟩ := exec_readHead fault l.shared _ key cur read
      have place : key = Mem.fileKey accountID fileID := by
        simp only [exec,Mem.getFile] at read
        split at read
        · contradiction
        · cases read
          rfl
      subst place
      exact guard mine _ (by simp [upcoming,serves.thread,readsFile]) cur found
    | _ => contradiction

/-- A deletion whose request reads the version of the device's row puts its tombstone
over that version; it puts it over the version its request reads, whatever that is. -/
theorem delete_replaces_seen (moves : List (Move Party Bool)) (accountID : Str) (st : LocalFileState) :
    (∀ index, Guarded (Ledger.move (partyProgram plat cfg) exec) (ReadsSeen index st.remoteVersion)
        (Ledger.initial State.empty) moves →
      ∀ entry ∈ (clientRun plat cfg moves).history, entry.index = index → Deletion entry.request accountID st →
        ∀ rec base head, entry.event = ⟨.updateFile rec base,.ok head⟩ →
        ∃ old, entry.before.mem.files.get (Mem.fileKey accountID st.fileId) = some old ∧ (old.version : Int) = st.remoteVersion) ∧
    ∀ entry ∈ (clientRun plat cfg moves).history, Deletion entry.request accountID st → ∀ rec base head,
      entry.event = ⟨.updateFile rec base,.ok head⟩ →
      ∃ old, entry.before.mem.files.get (Mem.fileKey accountID st.fileId) = some old ∧
        ∃ read ∈ (clientRun plat cfg moves).history, read.index = entry.index ∧
          ∃ seen, read.event = ⟨.getFile accountID st.fileId,.ok seen⟩ ∧
            ((old.version : Int) = st.remoteVersion ↔ (seen.version : Int) = st.remoteVersion) := by
  constructor
  · intro index seen entry member mine deletion rec base head accepted
    obtain ⟨old,found,read,inside,same,cur,reading,version⟩ := tombstone_read plat cfg member deletion accepted
    have known := guarded_reads plat cfg moves index st.remoteVersion seen read inside (same.trans mine) _ cur (by rw [reading]; rfl)
    exact ⟨old,found,by rw [← version]; exact known⟩
  · intro entry member deletion rec base head accepted
    obtain ⟨old,found,read,inside,same,seen,reading,version⟩ := tombstone_read plat cfg member deletion accepted
    exact ⟨old,found,read,inside,same,seen,reading,by rw [version]⟩

end

section
open KnownAnswers

private def roomy : Config := ⟨1000000,1000000,0⟩

private def from_ (device : String) : Context := ⟨lit "alice",lit device,[],1⟩

private theorem alicePlain : PlainAccount (lit "alice") := by decide

private def firstText : Request :=
  .post (from_ "laptop") ⟨notesId,lit "bWV0YQ",lit "aGVsbG8",
    lit "2cf24dba5fb0a30e26e83b2ac5b9e29e1b161e5c1fa7425e73043362938b9824",0,0,.empty,false,5,0,[],0,[]⟩

private def phoneText : Request :=
  .put (from_ "phone") notesId ⟨notesId,lit "bWV0YQ",lit "d29ybGQ",
    lit "486ea46224d1bb4fb680f34f7c9ad96a8f24ec88be73ea8e5a6c65260e9cb8a7",0,1,.empty,false,5,0,[],0,[]⟩

private def asks (request : Request) (alices : request.accountID = lit "alice") : Party :=
  ⟨.request request,by rw [Work.accountID,alices]; exact alicePlain⟩

/-- The laptop knows version 1 and deletes the file. -/
private def laptopDeletes : Party :=
  ⟨.client laptop (lit "alice") (deleteRemote
    ⟨rooted.upsertFile (notesRow 1),⟨.empty,[]⟩,.empty,[],true⟩ (lit "root:notes.txt")) [⟨.answered,2⟩],alicePlain⟩

private def calls (thread : Nat) : List (Move Party Bool) := List.replicate 3 (.step thread false)

private def knownVersion : List (Move Party Bool) :=
  .spawn (asks firstText rfl)::calls 0 ++ .spawn laptopDeletes::calls 1

/-- The phone's version 2 lands before the deletion. -/
private def unseenVersion : List (Move Party Bool) :=
  .spawn (asks firstText rfl)::calls 0 ++ .spawn (asks phoneText rfl)::calls 1 ++ .spawn laptopDeletes::calls 2

private theorem laptop_deletion : Deletion laptopDeletes (lit "alice") (notesRow 1) :=
  ⟨by decide,laptop,_,lit "root:notes.txt",[⟨.answered,2⟩],rfl,rfl⟩

private def replacing : CallEvent → Bool
  | ⟨.updateFile ..,.ok _⟩ => true
  | _ => false

private theorem replacing_event {event : CallEvent} (here : replacing event = true) :
    ∃ rec base head, event = ⟨.updateFile rec base,.ok head⟩ := by
  unfold replacing at here
  split at here
  · exact ⟨_,_,_,rfl⟩
  · contradiction

/-- The tombstone that the thread of the deletion wrote, and the version it replaced. -/
private def replacedVersion (entry : ServerEntry Party) : Option Nat :=
  (entry.before.mem.files.get (Mem.fileKey (lit "alice") notesId)).map (·.version)

theorem known_version_deleted : ∃ entry rec base head old, (clientRun platform roomy knownVersion).history[4]? = some entry ∧
    entry.event = ⟨.updateFile rec base,.ok head⟩ ∧
    entry.before.mem.files.get (Mem.fileKey (lit "alice") notesId) = some old ∧ (old.version : Int) = 1 := by
  have facts : Guarded (Ledger.move (partyProgram platform roomy) exec) (ReadsSeen 1 1) (Ledger.initial State.empty) knownVersion ∧
      ((clientRun platform roomy knownVersion).history[4]?).map (fun entry => (entry.index,replacing entry.event)) = some (1,true) := by
    simp only [knownVersion,laptopDeletes,platform_numerals]
    decide
  obtain ⟨entry,found,same⟩ := Option.map_eq_some_iff.mp facts.2
  obtain ⟨mine,replaces⟩ := Prod.mk.inj same
  obtain ⟨rec,base,head,event⟩ := replacing_event replaces
  have member := List.mem_of_getElem? found
  have request := (clientRun_logged platform roomy knownVersion).asked entry member
  have serving : (clientRun platform roomy knownVersion).requests[1]? = some laptopDeletes := rfl
  rw [mine,serving] at request
  obtain ⟨old,there,version⟩ := (delete_replaces_seen platform roomy knownVersion (lit "alice") (notesRow 1)).1 1 facts.1 entry
    member mine (Option.some.inj request ▸ laptop_deletion) rec base head event
  exact ⟨entry,rec,base,head,old,found,event,there,version⟩

theorem unseen_version_deleted : ¬∀ (plat : Platform) (cfg : Config) (moves : List (Move Party Bool)) (accountID : Str)
    (st : LocalFileState), ∀ entry ∈ (clientRun plat cfg moves).history, Deletion entry.request accountID st → ∀ rec base head,
      entry.event = ⟨.updateFile rec base,.ok head⟩ → ∃ old,
        entry.before.mem.files.get (Mem.fileKey accountID st.fileId) = some old ∧ (old.version : Int) = st.remoteVersion := by
  intro claim
  have facts : ((clientRun platform roomy unseenVersion).history[7]?).map
      (fun entry => (entry.index,replacing entry.event,replacedVersion entry)) = some (2,true,some 2) := by
    simp only [unseenVersion,laptopDeletes,platform_numerals]
    decide
  obtain ⟨entry,found,same⟩ := Option.map_eq_some_iff.mp facts
  simp only [Prod.mk.injEq] at same
  obtain ⟨mine,replaces,version⟩ := same
  obtain ⟨rec,base,head,event⟩ := replacing_event replaces
  have member := List.mem_of_getElem? found
  have request := (clientRun_logged platform roomy unseenVersion).asked entry member
  have serving : (clientRun platform roomy unseenVersion).requests[2]? = some laptopDeletes := rfl
  rw [mine,serving] at request
  obtain ⟨old,there,known⟩ := claim platform roomy unseenVersion (lit "alice") (notesRow 1) entry member
    (Option.some.inj request ▸ laptop_deletion) rec base head event
  obtain ⟨other,here,two⟩ := Option.map_eq_some_iff.mp version
  cases Option.some.inj (here.symm.trans there)
  rw [two] at known
  contradiction

end
end NPSync.Engine
