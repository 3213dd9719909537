import NPSync.Library.Ledger
import NPSync.Engine.Resolve

/-! Every way in which a resolution ends. The facts about resolutions, on rows, shadow
copies, backups and the conflict list, are read off these. -/
namespace NPSync.Engine
open Library

/-- A text that does not open ends a resolution without success. -/
theorem conflictText_fails (plat : Platform) (dev : Device) {full : ApiResponse} {outcome : Outcome}
    (failed : conflictText plat dev full = .error outcome) : outcome.succeeded = false := by
  cases text : full.body.valueStr (lit "encrypted_content") [] with
  | none =>
    simp only [conflictText,text,orThrow,bind,Except.bind] at failed
    rw [← Except.error.inj failed]
    rfl
  | some text_ =>
    cases decoded : Base64.base64UrlDecode text_ with
    | none =>
      simp only [conflictText,text,decoded,orThrow,orFail,bind,Except.bind] at failed
      rw [← Except.error.inj failed]
      rfl
    | some enc =>
      simp only [conflictText,text,decoded,orThrow,orFail,bind,Except.bind] at failed
      cases plain : Crypto.decrypt plat.prim dev.masterKey enc (lit "file") with
      | plain text =>
        rw [plain] at failed
        exact absurd failed nofun
      | threw | rejected =>
        rw [plain] at failed
        rw [← Except.error.inj failed]
        rfl

/-- The text has replaced the file; `l` is left. The row is settled with the version of the
answer and a vector, unless it is missing or the answer does not tell. -/
inductive RowEnd (plat : Platform) (l : Local) (fileId : Str) (target : ConflictState) (text : Bytes) (version : Option Int)
    (vector : LocalFileState → Option VersionVector) (shadow : WriteFate) : Outcome × Local → Prop
  | stopped (outcome : Outcome) (unsuccessful : outcome.succeeded = false) :
      RowEnd plat l fileId target text version vector shadow (outcome,l)
  | untracked (missing : l.db.getFile target.relPath = none) :
      RowEnd plat l fileId target text version vector shadow (.applied,{l with db := l.db.resolveConflict fileId})
  | settled (f : LocalFileState) (tracked : l.db.getFile target.relPath = some f) (number : Int) (reads : version = some number)
      (vv : VersionVector) (takes : vector f = some vv) (out : Outcome × Local)
      (yields : (settle plat l fileId f text number vv shadow).Yields [] out) :
      RowEnd plat l fileId target text version vector shadow out

/-- The backup is made and the fetched text written. -/
def installed (win : Windows) (l : Local) (abs : WStr) (text : Bytes) (io : ResolveIo) : Local :=
  let l := backupReplaced win l abs io.backup
  {l with disk := (writeFileAtomic win l.disk abs text io.write).2}

/-- The vector for the row after a download. -/
def installedVector (full : ApiResponse) (takesVector : Bool) (f : LocalFileState) : Option VersionVector :=
  if takesVector then ((full.body.value (lit "version_vector") (.obj [])).bind Json.dump).map VersionVector.fromJson
  else some f.versionVector

/-- The version in an answer that accepts. -/
def acceptedVersion (r : ApiResponse) (default : Int) : Option Int :=
  if r.status = 200 then r.body.valueInt (lit "version") default else none

theorem acceptedVersion_some {r : ApiResponse} {default number : Int} (reads : acceptedVersion r default = some number) :
    r.status = 200 ∧ r.body.valueInt (lit "version") default = some number := by
  unfold acceptedVersion at reads
  split at reads
  · rename_i accepted
    exact ⟨accepted,reads⟩
  · contradiction

section
variable {plat : Platform} {dev : Device} {l : Local} {fileId : Str} {target : ConflictState} {abs : WStr} {io : ResolveIo}
  {conversation : List (Event ApiCall fun _ => ApiResponse)} {out : Outcome × Local}

theorem refused_yields {r : ApiResponse} {fallback : String} (yields : (refused r fallback l).Yields conversation out) :
    conversation = [] ∧ out.1.succeeded = false ∧ out.2 = l := by
  unfold refused at yields
  split at yields
  · obtain ⟨rfl,rfl⟩ := yields
    exact ⟨rfl,rfl,rfl⟩
  · obtain ⟨rfl,rfl⟩ := yields
    exact ⟨rfl,rfl,rfl⟩

theorem installRemote_ends {full : ApiResponse} {text : Bytes} {takesVector : Bool}
    (yields : (installRemote plat l fileId target abs full text takesVector io).Yields conversation out) :
    conversation = [] ∧ RowEnd plat (installed plat.win l abs text io) fileId target text
      (full.body.valueInt (lit "version") target.remoteVersion) (installedVector full takesVector) io.shadow out := by
  unfold installRemote at yields
  dsimp only at yields
  split at yields
  · obtain ⟨rfl,rfl⟩ := yields
    exact ⟨rfl,.stopped _ rfl⟩
  split at yields
  · rename_i missing
    obtain ⟨rfl,rfl⟩ := yields
    exact ⟨rfl,.untracked missing⟩
  rename_i f tracked
  have own : (installed plat.win l abs text io).db.getFile target.relPath = some f := tracked
  split at yields
  · obtain ⟨rfl,rfl⟩ := yields
    exact ⟨rfl,.stopped _ rfl⟩
  rename_i version reads
  split at yields
  · rename_i takes
    split at yields
    · obtain ⟨rfl,rfl⟩ := yields
      exact ⟨rfl,.stopped _ rfl⟩
    · rename_i vector dumped
      obtain rfl : conversation = [] := yields.1
      refine ⟨rfl,.settled f own version reads (VersionVector.fromJson vector) ?_ out yields⟩
      rw [installedVector,if_pos takes,dumped]
      rfl
  · rename_i leaves
    obtain rfl : conversation = [] := yields.1
    exact ⟨rfl,.settled f own version reads f.versionVector (if_neg leaves) out yields⟩

/-- `keepRemote` and `keepBoth` once the head is fetched; `disk` is what they install on. -/
inductive FetchedEnd (plat : Platform) (dev : Device) (l : Local) (disk : Disk) (fileId : Str) (target : ConflictState) (abs : WStr)
    (full : ApiResponse) (takesVector : Bool) (io : ResolveIo) : Outcome × Local → Prop
  | refused (outcome : Outcome) (unsuccessful : outcome.succeeded = false)
      (reason : full.status ≠ 200 ∨ conflictText plat dev full = .error outcome) :
      FetchedEnd plat dev l disk fileId target abs full takesVector io (outcome,l)
  | installed (text : Bytes) (answered : full.status = 200) (opens : conflictText plat dev full = .ok text) (out : Outcome × Local)
      (ends : RowEnd plat (installed plat.win {l with disk := disk} abs text io) fileId target text
        (full.body.valueInt (lit "version") target.remoteVersion) (installedVector full takesVector) io.shadow out) :
      FetchedEnd plat dev l disk fileId target abs full takesVector io out

theorem fetched_ends {disk : Disk} {full : ApiResponse} {takesVector : Bool}
    (yields : (if full.status ≠ 200 then fails "cannot fetch remote" l
      else match conflictText plat dev full with
        | .error outcome => .done (outcome,l)
        | .ok text => installRemote plat {l with disk := disk} fileId target abs full text takesVector io).Yields conversation out) :
    conversation = [] ∧ FetchedEnd plat dev l disk fileId target abs full takesVector io out := by
  split at yields
  · rename_i bad
    obtain ⟨rfl,rfl⟩ := yields
    exact ⟨rfl,.refused _ rfl (.inl bad)⟩
  rename_i answered
  split at yields
  · rename_i outcome failed
    obtain ⟨rfl,rfl⟩ := yields
    exact ⟨rfl,.refused outcome (conflictText_fails plat dev failed) (.inr failed)⟩
  · rename_i text opens
    obtain ⟨empty,ends⟩ := installRemote_ends yields
    exact ⟨empty,.installed text (not_not.mp answered) opens out ends⟩

/-- The state of `keepLocal` once the copy has replaced the file. -/
def restored (win : Windows) (l : Local) (abs : WStr) (data : Bytes) (io : ResolveIo) : Local :=
  {l with disk := (writeFileAtomic win l.disk abs data io.write).2}

/-- The upload that `keepLocal` sends. -/
def localPayload (plat : Platform) (dev : Device) (l : Local) (target : ConflictState) (data : Bytes) (io : ResolveIo) : Option Payload :=
  let vv := ((l.db.getFile target.relPath).map (·.versionVector)).getD .empty
  buildFilePayload plat dev l.db target.relPath data target.remoteVersion vv io.rnd

inductive LocalEnd (plat : Platform) (dev : Device) (l : Local) (fileId : Str) (target : ConflictState) (abs : WStr) (io : ResolveIo) :
    List (Event ApiCall fun _ => ApiResponse) → Outcome × Local → Prop
  | missing (outcome : Outcome) (unsuccessful : outcome.succeeded = false)
      (absent : readFileBytes plat.win l.disk (PathUtil.utf8ToWide plat.win target.localCopyPath) io.opens = none) :
      LocalEnd plat dev l fileId target abs io [] (outcome,l)
  | unsealed (data : Bytes)
      (copy : readFileBytes plat.win l.disk (PathUtil.utf8ToWide plat.win target.localCopyPath) io.opens = some data)
      (unsealed : localPayload plat dev l target data io = none) :
      LocalEnd plat dev l fileId target abs io [] (.threw,restored plat.win l abs data io)
  | sent (data : Bytes)
      (copy : readFileBytes plat.win l.disk (PathUtil.utf8ToWide plat.win target.localCopyPath) io.opens = some data)
      (payload : Payload) (built : localPayload plat dev l target data io = some payload) (r : ApiResponse) (out : Outcome × Local)
      (ends : RowEnd plat (restored plat.win l abs data io) fileId target data (acceptedVersion r (target.remoteVersion + 1))
        (fun f => some f.versionVector) io.shadow out) :
      LocalEnd plat dev l fileId target abs io [⟨.updateFile fileId payload,r⟩] out

theorem keepLocal_ends (yields : (keepLocal plat dev l fileId target abs io).Yields conversation out) :
    LocalEnd plat dev l fileId target abs io conversation out := by
  unfold keepLocal at yields
  split at yields
  · rename_i absent
    obtain ⟨rfl,rfl⟩ := yields
    exact .missing _ rfl absent
  rename_i data copy
  dsimp only at yields
  split at yields
  · rename_i unsealed
    obtain ⟨rfl,rfl⟩ := yields
    exact .unsealed data copy unsealed
  rename_i payload built
  obtain ⟨r,rest,rfl,after⟩ := yields
  dsimp only at after
  split at after
  · obtain ⟨rfl,unsuccessful,same⟩ := refused_yields after
    obtain ⟨outcome,left⟩ := out
    obtain rfl : left = restored plat.win l abs data io := same
    exact .sent data copy payload built r _ (.stopped outcome unsuccessful)
  rename_i accepted
  have answered : acceptedVersion r (target.remoteVersion + 1) = r.body.valueInt (lit "version") (target.remoteVersion + 1) :=
    if_pos (not_not.mp accepted)
  split at after
  · rename_i missing
    obtain ⟨rfl,rfl⟩ := after
    exact .sent data copy payload built r _ (.untracked missing)
  rename_i f tracked
  split at after
  · obtain ⟨rfl,rfl⟩ := after
    exact .sent data copy payload built r _ (.stopped .threw rfl)
  · rename_i version reads
    obtain rfl : rest = [] := after.1
    have own : (restored plat.win l abs data io).db.getFile target.relPath = some f := tracked
    exact .sent data copy payload built r out (.settled f own version (answered.trans reads) f.versionVector rfl out after)

end
end NPSync.Engine
