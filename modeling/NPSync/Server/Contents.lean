import NPSync.Server.Calls
import NPSync.Server.Heads
import NPSync.Server.Retained

/-! Contents are stored under their hash and records name the hash, so a content
that a request reads for a record is the content of that version. -/
namespace NPSync.Server
open Library

def readVersion : CallEvent → Option VersionRecord
  | ⟨.getVersion ..,.ok v⟩ => some v
  | _ => none

/-- The key and the bytes of a blob that was read. -/
def readContent : CallEvent → Option (Str × Bytes)
  | ⟨.getBlob key,.found content⟩ => some (key,content)
  | _ => none

/-- The record is an upload of the account, a tombstone of a head that was read or
a version that was read, written by the account. -/
def RecordAllowed (accountID : Str) (log : List CallEvent) (rec : FileRecord) : Prop :=
  (rec.accountID = accountID ∧ rec.blobKey = rec.contentHash) ∨
  (∃ event ∈ log, ∃ key cur, readHead event = some (key,cur) ∧ rec.accountID = cur.accountID ∧
    rec.blobKey = cur.blobKey ∧ rec.contentHash = cur.contentHash) ∨
  ∃ event ∈ log, ∃ v, readVersion event = some v ∧ rec.accountID = accountID ∧ rec.blobKey = v.blobKey ∧
    rec.contentHash = v.contentHash

def ContentAllowed (prim : Primitives) (accountID : Str) (log : List CallEvent) : Call → Prop
  | .putBlob key content => Crypto.sha256Hex prim content = key
  | .createFile rec => RecordAllowed accountID log rec
  | .updateFile rec _ => RecordAllowed accountID log rec
  | _ => True

/-- More calls before do not make a call less allowed. -/
theorem ContentAllowed.later {prim : Primitives} {accountID : Str} {log : List CallEvent} {call : Call}
    (allowed : ContentAllowed prim accountID log call) (more : List CallEvent) :
    ContentAllowed prim accountID (more ++ log) call := by
  have record : ∀ rec, RecordAllowed accountID log rec → RecordAllowed accountID (more ++ log) rec := by
    rintro rec (upload | ⟨event,member,rest⟩ | ⟨event,member,rest⟩)
    · exact .inl upload
    · exact .inr (.inl ⟨event,List.mem_append_right _ member,rest⟩)
    · exact .inr (.inr ⟨event,List.mem_append_right _ member,rest⟩)
  cases call with
  | createFile rec => exact record rec allowed
  | updateFile rec base => exact record rec allowed
  | _ => exact allowed

def Request.accountID : Request → Str
  | .post ctx _ | .put ctx _ _ | .delete ctx _ | .restore ctx _ _ | .batch ctx _ _ | .get ctx _ | .poll ctx _ => ctx.accountID

section
variable (prim : Primitives) (cfg : Config)

theorem handle_contents (request : Request) :
    (handle prim cfg request).Keeps (ContentAllowed prim request.accountID) [] := by
  have quiet : ∀ accountID call, call.quiet = true → ∀ log, ContentAllowed prim accountID log call := by
    intro accountID call quiet log
    cases call with
    | putBlob key content => contradiction
    | createFile rec => contradiction
    | updateFile rec base => contradiction
    | _ => trivial
  have keeps : ∀ accountID (program : Handler), program.Only (fun call => ∀ log, ContentAllowed prim accountID log call) →
      program.Keeps (ContentAllowed prim accountID) [] :=
    fun accountID program only => only.keeps (fun log call holds => holds log) []
  have put : ∀ (req : FileJSON), validateIncomingFile prim cfg req = none → req.deleted = false →
      Crypto.sha256Hex prim (mustDecode req.encryptedContent) = blobKey req.contentHash :=
    fun req valid live => (validateIncomingFile_valid prim cfg valid).hashed live
  cases request with
  | post ctx req =>
    apply keeps
    apply handleCreateFile_only (quiet _)
    · exact fun valid live _ => put req valid live
    · exact fun _ _ => .inl ⟨rfl,rfl⟩
  | put ctx fileID req =>
    apply keeps
    apply handleUpdateFile_only (quiet _)
    · exact fun valid live _ => put {req with fileID := fileID} valid live
    · exact fun _ _ => .inl ⟨rfl,rfl⟩
  | delete ctx fileID =>
    refine ⟨trivial,fun read => ?_⟩
    cases read with
    | error err => trivial
    | ok cur =>
      refine ⟨.inr (.inl ⟨⟨.getFile ctx.accountID fileID,.ok cur⟩,by simp,_,cur,rfl,rfl,rfl,rfl⟩),fun result => ?_⟩
      cases result with
      | error err => trivial
      | ok updated => exact ⟨trivial,fun _ => trivial⟩
  | restore ctx fileID version =>
    refine ⟨trivial,fun found => ?_⟩
    cases found with
    | error err => trivial
    | ok v =>
      refine ⟨trivial,fun read => ?_⟩
      cases read with
      | error err => trivial
      | ok cur =>
        refine ⟨.inr (.inr ⟨⟨.getVersion ctx.accountID fileID version,.ok v⟩,by simp,v,rfl,rfl,rfl,rfl⟩),fun result => ?_⟩
        cases result with
        | error err => trivial
        | ok updated => exact ⟨trivial,fun _ => trivial⟩
  | batch ctx uploads downloads =>
    apply keeps
    apply handleBatch_only (quiet _)
    intro u _ valid
    exact ⟨fun live _ => put u valid live,fun _ => .inl ⟨rfl,rfl⟩,fun _ => .inl ⟨rfl,rfl⟩⟩
  | get ctx fileID => exact keeps _ _ (handleGetFile_only (quiet _) ctx fileID)
  | poll ctx since => exact ⟨trivial,fun _ => trivial⟩

end

/-- A live version whose content, named by its hash, opens to the text. -/
def PlaintextOf (prim : Primitives) (masterKey : Bytes) (f : FileRecord) (text : Bytes) : Prop :=
  f.deleted = false ∧ ∃ content, Crypto.sha256Hex prim content = f.contentHash ∧
    Crypto.decrypt prim masterKey content (lit "file") = .plain text

/-! ### The stored contents -/

/-- Account identifiers are UUIDs: they have no slash. -/
def PlainAccount (accountID : Str) : Prop := (47 : UInt8) ∉ accountID

instance (accountID : Str) : Decidable (PlainAccount accountID) := inferInstanceAs (Decidable (¬_))

theorem takeWhile_fileKey {a : Str} (plain : PlainAccount a) (f : Str) : (Mem.fileKey a f).takeWhile (· ≠ 47) = a := by
  have before : ∀ c ∈ a, (decide (c ≠ 47)) = true := by
    intro c member
    simp only [decide_eq_true_eq]
    rintro rfl
    exact plain member
  have slash : lit "/" = [47] := by decide
  rw [Mem.fileKey,slash,List.append_assoc,List.takeWhile_append_of_pos before]
  simp

theorem fileKey_inj {a b f g : Str} (plain : PlainAccount a) (also : PlainAccount b)
    (same : Mem.fileKey a f = Mem.fileKey b g) : a = b ∧ f = g := by
  have accounts : a = b := by
    rw [← takeWhile_fileKey plain f,same,takeWhile_fileKey also g]
  subst accounts
  exact ⟨rfl,List.append_cancel_left same⟩

/-- Every history entry of the later store was there before or is the one of the written record. -/
theorem exec_versions (fault : Bool) (s : State) (call : Call) (key : Str) (v : VersionRecord)
    (member : v ∈ (exec fault s call).2.mem.history key) :
    v ∈ s.mem.history key ∨ ∃ (rec : FileRecord) (version seq : Nat), (call = .createFile rec ∨ ∃ base, call = .updateFile rec base) ∧
      v = Mem.versionFromRecord {rec with version := version,changeSeq := seq} := by
  have committed : ∀ (place : Str) (rec : FileRecord), v ∈ (s.mem.commit place rec).history key →
      v ∈ s.mem.history key ∨ v = Mem.versionFromRecord rec := by
    intro place rec inside
    rw [Mem.commit_history] at inside
    split at inside
    · rename_i here
      subst here
      rcases List.mem_append.mp inside with old | new
      · exact .inl old
      · exact .inr (List.mem_singleton.mp new)
    · exact .inl inside
  cases call with
  | createFile rec =>
    simp only [exec] at member
    rcases s.mem.createFile_cases rec with same | ⟨-,same⟩
    · rw [same] at member
      exact .inl member
    · rw [same] at member
      rcases committed _ _ member with old | new
      · exact .inl old
      · exact .inr ⟨rec,1,s.mem.nextSeq,.inl rfl,new⟩
  | updateFile rec base =>
    simp only [exec] at member
    rcases s.mem.updateFile_cases rec base with ⟨err,same⟩ | ⟨cur,-,-,same⟩
    · rw [same] at member
      exact .inl member
    · rw [same] at member
      rcases committed _ _ member with old | new
      · exact .inl old
      · exact .inr ⟨rec,cur.version + 1,s.mem.nextSeq,.inr ⟨base,rfl⟩,new⟩
  | pruneVersions accountID fileID keep =>
    simp only [exec] at member
    rcases s.mem.pruneVersions_cases accountID fileID keep with same | ⟨-,same⟩
    · rw [same] at member
      exact .inl member
    · rw [same,Mem.keepLast_history] at member
      split at member
      · rename_i here
        rw [here]
        exact .inl (List.mem_of_mem_drop member)
      · exact .inl member
  | putBlob blob content =>
    simp only [exec] at member
    split at member
    · exact .inl member
    split at member
    · exact .inl member
    · exact .inl member
  | getBlob blob =>
    simp only [exec] at member
    split at member
    · exact .inl member
    split at member
    · exact .inl member
    · exact .inl member
  | deleteBlob blob =>
    simp only [exec] at member
    split at member
    · exact .inl member
    · exact .inl member
  | _ => exact .inl member

theorem exec_blobs (fault : Bool) (s : State) (call : Call) (key : Str) (content : Bytes)
    (found : (exec fault s call).2.blobs.get key = some content) :
    s.blobs.get key = some content ∨ call = .putBlob key content := by
  cases call with
  | putBlob blob bytes =>
    simp only [exec] at found
    split at found
    · exact .inl found
    split at found
    · exact .inl found
    rw [Table.get_upsert] at found
    split at found
    · rename_i here
      rw [here,Option.some.inj found]
      exact .inr rfl
    · exact .inl found
  | getBlob blob =>
    simp only [exec] at found
    split at found
    · exact .inl found
    split at found
    · exact .inl found
    · exact .inl found
  | deleteBlob blob =>
    simp only [exec] at found
    split at found
    · exact .inl found
    · rw [Table.get_remove] at found
      split at found
      · contradiction
      · exact .inl found
  | _ => exact .inl found

theorem exec_readVersion (fault : Bool) (s : State) (call : Call) (v : VersionRecord)
    (read : readVersion ⟨call,(exec fault s call).1⟩ = some v) : ∃ key, v ∈ s.mem.history key := by
  cases call with
  | getVersion accountID fileID version =>
    simp only [exec,Mem.getVersion] at read
    split at read
    · rename_i found there
      cases read
      exact ⟨_,List.mem_of_find?_eq_some there⟩
    · contradiction
  | _ => contradiction

theorem exec_readContent (fault : Bool) (s : State) (call : Call) (key : Str) (content : Bytes)
    (read : readContent ⟨call,(exec fault s call).1⟩ = some (key,content)) : s.blobs.get key = some content := by
  cases call with
  | getBlob blob =>
    simp only [exec] at read
    split at read
    · contradiction
    split at read
    · rename_i found there
      cases read
      exact there
    · contradiction
  | _ => contradiction

section
variable {A Req : Type} (prim : Primitives)

structure ContentInv (l : Ledger State Call Call.Result A Req) : Prop where
  heads : ∀ key f, l.shared.mem.files.get key = some f → f.blobKey = f.contentHash ∧ PlainAccount f.accountID
  versions : ∀ key, ∀ v ∈ l.shared.mem.history key, v.blobKey = v.contentHash
  blobs : ∀ key content, l.shared.blobs.get key = some content → Crypto.sha256Hex prim content = key
  readHeads : ∀ entry ∈ l.history, ∀ key f, readHead entry.event = some (key,f) →
    f.blobKey = f.contentHash ∧ PlainAccount f.accountID
  readVersions : ∀ entry ∈ l.history, ∀ v, readVersion entry.event = some v → v.blobKey = v.contentHash
  readContents : ∀ entry ∈ l.history, ∀ key content, readContent entry.event = some (key,content) →
    Crypto.sha256Hex prim content = key

variable {prim} {l : Ledger State Call Call.Result A Req}

theorem ContentInv.record (inv : ContentInv prim l) {accountID : Str} {index : Nat} {rec : FileRecord}
    (plain : PlainAccount accountID) (allowed : RecordAllowed accountID (Ledger.callsOf l.history index) rec) :
    rec.blobKey = rec.contentHash ∧ PlainAccount rec.accountID := by
  rcases allowed with ⟨owner,named⟩ | ⟨event,member,key,cur,read,owner,blob,hash⟩ | ⟨event,member,v,read,owner,blob,hash⟩
  · exact ⟨named,owner ▸ plain⟩
  · obtain ⟨entry,there,-,rfl⟩ := Ledger.mem_callsOf.mp member
    obtain ⟨same,account⟩ := inv.readHeads entry there key cur read
    exact ⟨by rw [blob,hash,same],owner ▸ account⟩
  · obtain ⟨entry,there,-,rfl⟩ := Ledger.mem_callsOf.mp member
    exact ⟨by rw [blob,hash,inv.readVersions entry there v read],owner ▸ plain⟩

theorem ContentInv.called (inv : ContentInv prim l) {accountID : Str} (plain : PlainAccount accountID) (index : Nat)
    (fault : Bool) (request : Req) (op : Call) (next : op.Result → Program Call Call.Result A) (log : List CallEvent)
    (allowed : ContentAllowed prim accountID (Ledger.callsOf l.history index) op) :
    ContentInv prim (Ledger.called exec l index fault request op next log) := by
  have recorded : ∀ rec : FileRecord, (op = .createFile rec ∨ ∃ base, op = .updateFile rec base) →
      rec.blobKey = rec.contentHash ∧ PlainAccount rec.accountID := by
    rintro rec (rfl | ⟨base,rfl⟩)
    · exact inv.record plain allowed
    · exact inv.record plain allowed
  refine ⟨?_,?_,?_,?_,?_,?_⟩
  · intro key f found
    have put : ∀ (place : Str) (head : FileRecord), (exec fault l.shared op).2.mem.files =
        l.shared.mem.files.upsert place head → (head.blobKey = head.contentHash ∧ PlainAccount head.accountID) →
        f.blobKey = f.contentHash ∧ PlainAccount f.accountID := by
      intro place head files good
      simp only [Ledger.called] at found
      rw [files,Table.get_upsert] at found
      split at found
      · rw [← Option.some.inj found]
        exact good
      · exact inv.heads key f found
    cases exec_head fault l.shared op with
    | quiet files refused =>
      simp only [Ledger.called] at found
      rw [files] at found
      exact inv.heads key f found
    | created rec head absent same event files =>
      have good := recorded rec (.inl (congrArg Event.op event))
      exact put _ head files (by rw [same]; exact good)
    | replaced rec cur head found same event files =>
      have good := recorded rec (.inr ⟨_,congrArg Event.op event⟩)
      exact put _ head files (by rw [same]; exact good)
  · intro key v member
    rcases exec_versions fault l.shared op key v member with old | ⟨rec,version,seq,wrote,same⟩
    · exact inv.versions key v old
    · rw [same]
      exact (recorded rec wrote).1
  · intro key content found
    rcases exec_blobs fault l.shared op key content found with old | rfl
    · exact inv.blobs key content old
    · exact allowed
  · intro entry member key f read
    rcases List.mem_append.mp member with before | now
    · exact inv.readHeads entry before key f read
    · rw [List.mem_singleton.mp now] at read
      exact inv.heads key f (exec_readHead fault l.shared op key f read).1
  · intro entry member v read
    rcases List.mem_append.mp member with before | now
    · exact inv.readVersions entry before v read
    · rw [List.mem_singleton.mp now] at read
      obtain ⟨key,there⟩ := exec_readVersion fault l.shared op v read
      exact inv.versions key v there
  · intro entry member key content read
    rcases List.mem_append.mp member with before | now
    · exact inv.readContents entry before key content read
    · rw [List.mem_singleton.mp now] at read
      exact inv.blobs key content (exec_readContent fault l.shared op key content read)

/-- A file that a thread has read twice: the second copy is not older. -/
theorem reads_ordered (heads : HeadInv l) (contents : ContentInv prim l) {accountID asked : Str}
    (plain : PlainAccount accountID) {index : Nat} {before more : List CallEvent} {cur again : FileRecord}
    (calls : Ledger.callsOf l.history index =
      before ++ ⟨.getFile accountID asked,.ok cur⟩::⟨.getFile accountID cur.fileID,.ok again⟩::more) :
    cur.version ≤ again.version ∧ ReadOf l.shared.mem (Mem.fileKey accountID cur.fileID) again ∧
      again.blobKey = again.contentHash := by
  obtain ⟨past,first,future,split,-,event,-,later⟩ := Ledger.callsOf_split calls
  rw [← List.nil_append (_::more)] at later
  obtain ⟨middle,second,rest,shape,-,reading,-,-⟩ := Ledger.callsOf_split later
  subst shape
  have firstRead : readHead first.event = some (Mem.fileKey accountID asked,cur) := by rw [event]; rfl
  have secondRead : readHead second.event = some (Mem.fileKey accountID cur.fileID,again) := by rw [reading]; rfl
  have one : first ∈ l.history := by simp [split]
  have two : second ∈ l.history := by simp [split]
  have named := (heads.reads first one _ cur firstRead).2
  have same : Mem.fileKey accountID cur.fileID = Mem.fileKey accountID asked := by
    obtain ⟨owner,file⟩ := fileKey_inj (contents.readHeads first one _ cur firstRead).2 plain named
    rw [file]
  refine ⟨?_,(heads.reads second two _ again secondRead).1,(contents.readHeads second two _ again secondRead).1⟩
  have ordered := heads.ordered (past ++ first::middle) second rest (by simp [split])
  rw [same] at secondRead
  exact ordered _ again secondRead first (by simp) cur firstRead

theorem contentInv_initial : ContentInv prim (Ledger.initial State.empty : Ledger State Call Call.Result A Req) := by
  constructor <;> simp [Ledger.initial,State.empty,Mem.newMem,Mem.history]

end
end NPSync.Server
