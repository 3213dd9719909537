import NPSync.Engine.Payload
import NPSync.Engine.Apply
import NPSync.KnownAnswers

/-! The path of a file between two devices. `uploadFile` seals the key of the
file, root prefix included, as its metadata; `applyRemoteFile` takes the sealed
text for the plain relative path. -/
namespace NPSync.Engine
open Library

/-- The key that `locateInRoots` produces for the file at `p` below a folder root. -/
def uploadKey (rootId p : Str) : Str := rootId ++ lit ":" ++ p

/-- A fetched record with this `encrypted_metadata`. -/
structure Carries (r : ApiResponse) (encryptedMetadata : Str) : Prop where
  answered : r.transportOk = true ∧ r.status = 200
  version : (r.body.valueInt (lit "version") 0).isSome = true
  deleted : (r.body.valueBool (lit "deleted") false).isSome = true
  metadata : r.body.valueStr (lit "encrypted_metadata") [] = some encryptedMetadata

/-- The path of the record is placed at `p` below a folder root. -/
def Placed (win : Windows) (db : LocalDb) (p : Str) : Prop :=
  ∃ root ∈ db.listSyncRoots win, ∃ abs, PathUtil.joinInsideRoot win root.2 p = some abs ∧
    (localKeyFor win db p).bind (absPathForRel win db) = some abs

/-- The metadata that device A uploads for `p` is read by device B as `p`, and an
untracked file is placed there. -/
def PathAgreement (plat : Platform) (devA : Device) (dbA : LocalDb) (rootId p : Str) (plaintext : Bytes)
    (baseVersion : Int) (vv : VersionVector) (rnd : Random) (devB : Device) (dbB : LocalDb) : Prop :=
  ∃ payload, buildFilePayload plat devA dbA (uploadKey rootId p) plaintext baseVersion vv rnd = some payload ∧
    ∀ r, Carries r payload.encryptedMetadata → ∃ record, remoteRecord plat devB r = .ok record ∧
      record.norm = p ∧ (rowBySuffix dbB p = none → dbB.listSyncRoots plat.win ≠ [] → Placed plat.win dbB p)

section
variable (plat : Platform) (devA : Device) (dbA : LocalDb) (rootId p : Str) (plaintext : Bytes)
  (baseVersion : Int) (vv : VersionVector) (rnd : Random) (devB : Device)

/-- The other device opens the metadata and rejects the path it finds. -/
theorem remoteRecord_rejected (normal : PathUtil.normalizeRelative p = some p)
    (sameKey : devB.masterKey = devA.masterKey)
    (roundTrip : ∀ text, (metadataJson (uploadKey rootId p)).dump = some text →
      plat.parse text = some (metadataJson (uploadKey rootId p)))
    (payload : Payload)
    (built : buildFilePayload plat devA dbA (uploadKey rootId p) plaintext baseVersion vv rnd = some payload)
    (r : ApiResponse) (carries : Carries r payload.encryptedMetadata) :
    remoteRecord plat devB r = .error (.failed (lit "remote path rejected")) := by
  obtain ⟨encContent,metaStr,encMeta,vector,-,dumped,sealed,-,rfl⟩ :=
    buildFilePayload_parts _ _ _ _ _ _ _ _ _ built
  obtain ⟨version,hasVersion⟩ := Option.isSome_iff_exists.mp carries.version
  obtain ⟨deleted,hasDeleted⟩ := Option.isSome_iff_exists.mp carries.deleted
  have plain := Crypto.decrypt_encrypt plat.prim _ _ _ _ _ sealed
  have path : (metadataJson (uploadKey rootId p)).valueStr (lit "relative_path") [] =
      some (uploadKey rootId p) := by
    simp [metadataJson,Json.valueStr,Json.value,Json.field]
  have rejected : PathUtil.normalizeRelative (uploadKey rootId p) = none :=
    PathUtil.normalizeRelative_prefixed rootId p normal
  simp only [remoteRecord,carries.answered.1,carries.answered.2,hasVersion,hasDeleted,carries.metadata,
    Base64.base64UrlDecode_encode,sameKey,plain,roundTrip metaStr dumped,path,orThrow,orFail,opened,
    rejected,bind,Except.bind]
  rfl

private theorem carried (metadata : Str) :
    Carries ⟨true,200,.obj [(lit "encrypted_metadata",.str metadata)]⟩ metadata :=
  ⟨⟨rfl,rfl⟩,rfl,rfl,rfl⟩

/-- No path that was accepted unchanged on the uploading device is accepted on another. -/
theorem path_never_agrees (dbB : LocalDb) (normal : PathUtil.normalizeRelative p = some p)
    (sameKey : devB.masterKey = devA.masterKey)
    (roundTrip : ∀ text, (metadataJson (uploadKey rootId p)).dump = some text →
      plat.parse text = some (metadataJson (uploadKey rootId p))) :
    ¬PathAgreement plat devA dbA rootId p plaintext baseVersion vv rnd devB dbB := by
  rintro ⟨payload,built,agrees⟩
  obtain ⟨record,accepted,-⟩ := agrees _ (carried payload.encryptedMetadata)
  rw [remoteRecord_rejected plat devA dbA rootId p plaintext baseVersion vv rnd devB normal sameKey roundTrip
    payload built _ (carried _)] at accepted
  exact Except.noConfusion rfl rfl (heq_of_eq accepted)

end

section
open KnownAnswers

private def desktop : Device := ⟨masterKey,lit "desktop",lit "Desktop",1000000,[]⟩

private def helloDraws : Random := ⟨nonceOf 1,nonceOf 2,uuidOf 17⟩

/-- The document that the upload of `root:notes.txt` seals. -/
private def notesDocument : Json := metadataJson (uploadKey (lit "root") (lit "notes.txt"))

private theorem notes_roundTrip (text : Str) (dumped : notesDocument.dump = some text) :
    platform.parse text = some notesDocument := by
  have valid : notesDocument.valid = true := by decide +kernel
  rw [Json.dump,if_pos valid,Option.some.injEq] at dumped
  have other : ¬Json.dumpText (.obj [(lit "laptop",.num 1)]) = text := by
    rw [← dumped]
    decide
  change documents.find? (fun json => json.dumpText = text) = some notesDocument
  rw [documents,List.find?_cons_of_neg (by simpa using other)]
  exact List.find?_cons_of_pos (decide_eq_true dumped)

/-- The counterpart at one path: A uploads `notes.txt`, B has a folder root and the same key. -/
theorem notes_disagree :
    ¬PathAgreement platform laptop .empty (lit "root") (lit "notes.txt") (lit "hello") 0 .empty helloDraws desktop
      rooted := by
  rintro ⟨payload,built,agrees⟩
  obtain ⟨record,accepted,-⟩ := agrees _ (carried payload.encryptedMetadata)
  rw [remoteRecord_rejected platform laptop .empty (lit "root") (lit "notes.txt") (lit "hello") 0 .empty helloDraws
    desktop (by decide) rfl notes_roundTrip payload built _ (carried _)] at accepted
  exact Except.noConfusion rfl rfl (heq_of_eq accepted)

theorem notes_never_agree :
    PathUtil.normalizeRelative (lit "notes.txt") = some (lit "notes.txt") ∧
      ¬PathAgreement platform laptop .empty (lit "root") (lit "notes.txt") (lit "hello") 0 .empty helloDraws desktop rooted :=
  ⟨by decide,path_never_agrees platform laptop .empty (lit "root") (lit "notes.txt") (lit "hello") 0
    .empty helloDraws desktop rooted (by decide) rfl notes_roundTrip⟩

end
end NPSync.Engine
