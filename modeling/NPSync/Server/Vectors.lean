import NPSync.KnownAnswers
import NPSync.Server.Heads
import NPSync.Server.Submitted

/-! The version vector of a head along every run of the server. Deletes copy the
vector of the head and restores merge into it; uploads replace it. -/
namespace NPSync.Server
open Library

/-- Pointwise order of two vectors; an absent entry counts as 0. -/
def Dominates (new old : Vector) : Prop := ∀ device, (old.get device).getD 0 ≤ (new.get device).getD 0

theorem Dominates.refl (v : Vector) : Dominates v v := fun _ => le_refl _

theorem mergeVersionVector_dominates (a b : Vector) : Dominates (mergeVersionVector a b) a := by
  have fold : ∀ (rows : List (Str × Int)) (out : Vector), Dominates out a →
      Dominates (rows.foldl (fun out row => if (out.get row.1).getD 0 < row.2 then out.upsert row.1 row.2 else out) out)
        a := by
    intro rows
    induction rows with
    | nil => exact fun out grown => grown
    | cons row rest ih =>
      intro out grown
      apply ih
      dsimp only
      split
      · rename_i larger
        intro device
        have bound := grown device
        rw [Table.get_upsert]
        split
        · rename_i here
          rw [here] at bound ⊢
          simp only [Option.getD_some]
          omega
        · exact bound
      · exact grown
  exact fold b.rows a (.refl a)

/-- Every head of the first state has a head in the second, with a vector at least as large. -/
def VectorsGrow (before after : State) : Prop :=
  ∀ key f, before.mem.files.get key = some f →
    ∃ g, after.mem.files.get key = some g ∧ Dominates g.versionVector f.versionVector

section
variable (prim : Primitives) (cfg : Config)

/-- The body that the thread is about to write over an existing head, and its account. -/
def uploading (l : Ledger State Call Call.Result Response Request) (index : Nat) : Option (Str × FileJSON) :=
  match l.requests[index]?,l.threads[index]? with
  | some request,some ⟨.call (.updateFile ..) _,log⟩ =>
    (submitted prim cfg request log).map fun u => (request.context.accountID,u)
  | _,_ => none

/-- A body that meets the version it is based on has a `version_vector` that is at
least the one of the head. -/
def VectorGuard (l : Ledger State Call Call.Result Response Request) : Move Request Bool → Prop
  | .spawn _ => True
  | .step index _ => ∀ accountID u cur, uploading prim cfg l index = some (accountID,u) →
    l.shared.mem.files.get (Mem.fileKey accountID u.fileID) = some cur → (cur.version : Int) = u.baseVersion →
    Dominates u.versionVector cur.versionVector

end

/-- A call lets a vector fall only by a write over a head with a larger one. -/
theorem HeadStep.grows_iff {before after : State} {event : CallEvent} (step : HeadStep before.mem after.mem event) :
    VectorsGrow before after ↔ ∀ rec base head cur, event = ⟨.updateFile rec base,.ok head⟩ →
      before.mem.files.get (Mem.fileKey rec.accountID rec.fileID) = some cur → (cur.version : Int) = base →
      Dominates rec.versionVector cur.versionVector := by
  constructor
  · intro grows rec base head cur called found current
    cases step with
    | quiet files refused =>
      rw [called] at refused
      contradiction
    | created other made absent same event files =>
      rw [called] at event
      cases event
    | replaced other was made there same event files =>
      rw [called] at event
      cases event
      obtain ⟨g,after,larger⟩ := grows _ cur found
      rw [files,Table.get_upsert_same] at after
      rw [← Option.some.inj after,same] at larger
      exact larger
  · intro larger key f found
    cases step with
    | quiet files refused => exact ⟨f,files ▸ found,.refl _⟩
    | created rec head absent same event files =>
      have other : key ≠ Mem.fileKey rec.accountID rec.fileID := by
        rintro rfl
        rw [absent] at found
        contradiction
      exact ⟨f,by rw [files,Table.get_upsert_other _ _ _ _ other,found],.refl _⟩
    | replaced rec cur head there same event files =>
      by_cases here : key = Mem.fileKey rec.accountID rec.fileID
      · subst here
        have equal : cur = f := Option.some.inj (there.symm.trans found)
        subst equal
        refine ⟨head,by rw [files,Table.get_upsert_same],?_⟩
        rw [same]
        exact larger rec cur.version head cur event there rfl
      · exact ⟨f,by rw [files,Table.get_upsert_other _ _ _ _ here,found],.refl _⟩

section
variable {prim : Primitives} {cfg : Config} {l : Ledger State Call Call.Result Response Request} {index : Nat}
  {request : Request} {op : Call} {next : op.Result → Handler} {log : List CallEvent}

theorem uploading_call (serves : l.Serves index request (.call op next) log) (accountID : Str) (u : FileJSON) :
    uploading prim cfg l index = some (accountID,u) ↔
      (∃ rec base, op = .updateFile rec base) ∧ submitted prim cfg request log = some u ∧ request.context.accountID = accountID := by
  simp only [uploading,serves.request,serves.thread]
  cases op with
  | updateFile rec base => simp [and_comm]
  | _ => simp

theorem uploading_serves {pending : Str × FileJSON} (upload : uploading prim cfg l index = some pending) :
    ∃ request op next log, l.Serves index request (.call op next) log := by
  unfold uploading at upload
  split at upload
  · rename_i asked found
    exact ⟨_,_,_,_,asked,found⟩
  · contradiction

/-- A copy of the head that a request made is the head, when the versions agree. -/
theorem HeadInv.copied (inv : HeadInv l) (logged : l.Logged) (serves : l.Serves index request (.call op next) log)
    {accountID fileID : Str} {copy cur : FileRecord} (read : ⟨.getFile accountID fileID,.ok copy⟩ ∈ log)
    (found : l.shared.mem.files.get (Mem.fileKey accountID fileID) = some cur) (same : copy.version = cur.version) :
    copy = cur := by
  rw [logged.logs index request _ log serves] at read
  obtain ⟨entry,recorded,-,event⟩ := Ledger.mem_callsOf.mp read
  exact inv.replaces recorded (by rw [event]; rfl) found same

theorem HeadInv.copyKey (inv : HeadInv l) (logged : l.Logged) (serves : l.Serves index request (.call op next) log)
    {accountID fileID : Str} {copy : FileRecord} (read : ⟨.getFile accountID fileID,.ok copy⟩ ∈ log) :
    Mem.fileKey copy.accountID copy.fileID = Mem.fileKey accountID fileID := by
  rw [logged.logs index request _ log serves] at read
  obtain ⟨entry,recorded,-,event⟩ := Ledger.mem_callsOf.mp read
  exact (inv.reads entry recorded _ copy (by rw [event]; rfl)).2

/-- Deletes copy the head and restores merge into it, so a call lets the vectors grow
exactly when it meets the guard. -/
theorem called_grows_iff (fault : Bool) (inv : HeadInv l) (logged : l.Logged) (allowed : WriteAllowed prim cfg request log op)
    (serves : l.Serves index request (.call op next) log) :
    VectorsGrow l.shared (exec fault l.shared op).2 ↔ VectorGuard prim cfg l (.step index fault) := by
  rw [(exec_head fault l.shared op).grows_iff]
  constructor
  · intro grows accountID u cur upload found current
    obtain ⟨⟨rec,base,rfl⟩,writing,rfl⟩ := (uploading_call serves accountID u).mp upload
    cases allowed with
    | body other same =>
      obtain rfl : other = u := Option.some.inj (same.symm.trans writing)
      rcases l.shared.mem.updateFile_cases (recordFromRequest request.context other) other.baseVersion with
        ⟨err,refused⟩ | ⟨head,there,same,accepted⟩
      · simp [Mem.updateFile,found,current,recordFromRequest] at refused
      · refine grows (recordFromRequest request.context other) _ {recordFromRequest request.context other with version := head.version + 1,changeSeq := l.shared.mem.nextSeq}
          cur ?_ found current
        simp only [exec,accepted]
    | delete fileID head asked read =>
      rw [asked] at writing
      contradiction
    | restore fileID version v head asked known read =>
      rw [asked] at writing
      contradiction
  · intro guard rec base head cur called found current
    obtain rfl : op = .updateFile rec base := congrArg Event.op called
    cases allowed with
    | body u writing =>
      exact guard _ u cur ((uploading_call serves _ u).mpr ⟨⟨_,_,rfl⟩,writing,rfl⟩) found current
    | delete fileID copy asked read =>
      replace found : l.shared.mem.files.get (Mem.fileKey copy.accountID copy.fileID) = some cur := found
      rw [inv.copyKey logged serves read] at found
      rw [← inv.copied logged serves read found (by omega)]
      exact .refl _
    | restore fileID version v copy asked known read =>
      rw [← inv.copied logged serves read found (by omega)]
      exact mergeVersionVector_dominates copy.versionVector v.versionVector

end

section
variable (prim : Primitives) (cfg : Config)

theorem move_grows_iff (l : Ledger State Call Call.Result Response Request) (first : Move Request Bool)
    (inv : HeadInv l) (served : Ledger.Served (fun request program log => program.Keeps (WriteAllowed prim cfg request) log) l)
    (logged : l.Logged) :
    (∀ entry ∈ (Ledger.move (handle prim cfg) exec l first).history, VectorsGrow entry.before entry.after) ↔
      (∀ entry ∈ l.history, VectorsGrow entry.before entry.after) ∧ VectorGuard prim cfg l first := by
  rcases Ledger.move_cases (handle prim cfg) exec l first with
    ⟨request,rfl,same⟩ | ⟨index,fault,request,op,next,log,rfl,serves,same⟩ | same
  · rw [same]
    simp [Ledger.spawned,VectorGuard]
  · have step := called_grows_iff fault inv logged (served index request _ log serves).1 serves
    rw [same,← step]
    simp only [Ledger.called,List.mem_append,List.mem_singleton,or_imp,forall_and,forall_eq]
  · rw [same]
    refine ⟨fun grows => ⟨grows,?_⟩,fun both => both.1⟩
    cases first with
    | spawn request => trivial
    | step index fault =>
      -- a thread with a pending call would have made it
      intro accountID u cur upload
      obtain ⟨request,op,next,log,serves⟩ := uploading_serves upload
      rw [Ledger.move_call (handle prim cfg) exec serves] at same
      have length := congrArg (fun l => l.history.length) same
      simp [Ledger.called] at length

/-- Along a run every accepted write lets the vector of its head grow exactly when
every upload that is accepted submits a vector at least as large as the head's. -/
theorem vectors_grow_iff (moves : List (Move Request Bool)) :
    (∀ entry ∈ (serverLedger prim cfg moves).history, VectorsGrow entry.before entry.after) ↔
      Guarded (Ledger.move (handle prim cfg) exec) (VectorGuard prim cfg) (Ledger.initial State.empty) moves := by
  induction moves using List.reverseRecOn with
  | nil => simp [serverLedger,Ledger.initial,Guarded]
  | append_singleton before last ih =>
    obtain ⟨inv,served,logged⟩ := headInv_run (WriteAllowed prim cfg) (handle_writes prim cfg) before
    rw [guarded_append,← ih,serverLedger,run_append]
    simp only [run_cons,run_nil,Guarded,and_true]
    exact move_grows_iff prim cfg _ last inv served logged

end

section
open KnownAnswers (sample)

private def small : Config := ⟨1000000,1000000,10⟩

private def laptop : Context := ⟨lit "alice",lit "laptop",[],1⟩

private def counted (vector : Vector) (baseVersion : Int) : FileJSON :=
  ⟨lit "11111111-1111-4111-8111-111111111111",lit "bWV0YQ",lit "aGVsbG8",
    lit "2cf24dba5fb0a30e26e83b2ac5b9e29e1b161e5c1fa7425e73043362938b9824",0,baseVersion,vector,false,5,0,[],0,[]⟩

/-- The file is created with an entry for the laptop and replaced, on top of its
version 1, by a request without the entry. -/
private def forgotten : List (Move Request Bool) :=
  .spawn (.post laptop (counted (Table.empty.upsert (lit "laptop") 1) 0))::List.replicate 3 (.step 0 false) ++
    .spawn (.put laptop (counted .empty 0).fileID (counted .empty 1))::List.replicate 2 (.step 1 false)

theorem put_drops_entry :
    ¬∀ entry ∈ (serverLedger sample small forgotten).history, VectorsGrow entry.before entry.after := by
  intro grows
  have facts : ((serverLedger sample small forgotten).history[4]?).bind (fun entry =>
        (entry.before.mem.files.get (Mem.fileKey (lit "alice") (counted .empty 0).fileID)).map fun f =>
          f.versionVector.get (lit "laptop")) = some (some 1) ∧
      ((serverLedger sample small forgotten).history[4]?).bind (fun entry =>
        (entry.after.mem.files.get (Mem.fileKey (lit "alice") (counted .empty 0).fileID)).map fun f =>
          f.versionVector.get (lit "laptop")) = some none := by
    decide
  obtain ⟨entry,found,old⟩ := Option.bind_eq_some_iff.mp facts.1
  obtain ⟨f,before,one⟩ := Option.map_eq_some_iff.mp old
  obtain ⟨other,also,new⟩ := Option.bind_eq_some_iff.mp facts.2
  obtain rfl : entry = other := Option.some.inj (found.symm.trans also)
  obtain ⟨g,after,zero⟩ := Option.map_eq_some_iff.mp new
  obtain ⟨h,there,larger⟩ := grows entry (List.mem_of_getElem? found) _ f before
  have bound := larger (lit "laptop")
  rw [← Option.some.inj (after.symm.trans there),one,zero] at bound
  simp at bound

end
end NPSync.Server
