import NPSync.Engine.Device

/-! `SyncEngine::buildFilePayload`. -/
namespace NPSync.Engine
open Library

/-- The random bytes one payload draws. -/
structure Random where
  contentNonce : Nonce
  metadataNonce : Nonce
  uuid : {bytes : Bytes // bytes.length = 16}

/-- The random identifier with the version and variant bits of the source. -/
def uuidText (bytes : Bytes) : Str :=
  let b := (bytes.set 6 (bytes.getD 6 0 &&& 0x0f ||| 0x40)).set 8 (bytes.getD 8 0 &&& 0x3f ||| 0x80)
  hex (b.take 4) ++ lit "-" ++ hex ((b.drop 4).take 2) ++ lit "-" ++ hex ((b.drop 6).take 2) ++ lit "-" ++
    hex ((b.drop 8).take 2) ++ lit "-" ++ hex ((b.drop 10).take 6)

structure Payload where
  fileId : Str
  encryptedMetadata : Str
  encryptedContent : Str
  contentHash : Str
  baseVersion : Int
  versionVector : Json
  size : Nat
  modifiedAt : Str
  idempotencyKey : Str

/-- The payload as a JSON object, in nlohmann's key order. -/
def Payload.toJson (p : Payload) : Json := .obj [
  (lit "base_version",.num p.baseVersion),(lit "content_hash",.str p.contentHash),
  (lit "encrypted_content",.str p.encryptedContent),(lit "encrypted_metadata",.str p.encryptedMetadata),
  (lit "file_id",.str p.fileId),(lit "idempotency_key",.str p.idempotencyKey),
  (lit "modified_at",.str p.modifiedAt),(lit "size",.num p.size),(lit "version_vector",p.versionVector)]

def metadataJson (relPath : Str) : Json := .obj [(lit "relative_path",.str relPath)]

def idempotencyKey (prim : Primitives) (relPath : Str) (baseVersion : Int) (plaintext : Bytes) : Str :=
  (Crypto.sha256Hex prim (relPath ++ decimal baseVersion ++ Crypto.sha256Hex prim plaintext)).take 36

/-- The identifier of the tracked row, or a new one. -/
def fileIdFor (st : Option LocalFileState) (rnd : Random) : Str :=
  match st with
  | some f => if f.fileId = [] then uuidText rnd.uuid.1 else f.fileId
  | none => uuidText rnd.uuid.1

/-- `buildFilePayload`; `none` is an exception of the cipher or the JSON library. -/
def buildFilePayload (plat : Platform) (dev : Device) (db : LocalDb) (relPath : Str) (plaintext : Bytes)
    (baseVersion : Int) (vv : VersionVector) (rnd : Random) : Option Payload := do
  let encContent ← Crypto.encrypt plat.prim dev.masterKey rnd.contentNonce plaintext (lit "file")
  let metaStr ← (metadataJson relPath).dump
  let encMeta ← Crypto.encrypt plat.prim dev.masterKey rnd.metadataNonce metaStr (lit "metadata")
  let vector ← plat.parse (vv.bump dev.deviceId).toJson
  return {
    fileId := fileIdFor (db.getFile relPath) rnd
    encryptedMetadata := Base64.base64UrlEncode encMeta
    encryptedContent := Base64.base64UrlEncode encContent
    contentHash := Crypto.sha256Hex plat.prim encContent
    baseVersion := baseVersion
    versionVector := vector
    size := encContent.length
    modifiedAt := []
    idempotencyKey := idempotencyKey plat.prim relPath baseVersion plaintext}

/-- The parts of a payload that was built. -/
theorem buildFilePayload_parts (plat : Platform) (dev : Device) (db : LocalDb) (relPath : Str)
    (plaintext : Bytes) (baseVersion : Int) (vv : VersionVector) (rnd : Random) (p : Payload)
    (built : buildFilePayload plat dev db relPath plaintext baseVersion vv rnd = some p) :
    ∃ encContent metaStr encMeta vector,
      Crypto.encrypt plat.prim dev.masterKey rnd.contentNonce plaintext (lit "file") = some encContent ∧
      (metadataJson relPath).dump = some metaStr ∧
      Crypto.encrypt plat.prim dev.masterKey rnd.metadataNonce metaStr (lit "metadata") = some encMeta ∧
      plat.parse (vv.bump dev.deviceId).toJson = some vector ∧
      p = ⟨fileIdFor (db.getFile relPath) rnd,Base64.base64UrlEncode encMeta,
        Base64.base64UrlEncode encContent,Crypto.sha256Hex plat.prim encContent,baseVersion,vector,
        encContent.length,[],idempotencyKey plat.prim relPath baseVersion plaintext⟩ := by
  simp only [buildFilePayload,Option.bind_eq_bind,Option.bind_eq_some_iff,Option.pure_def,
    Option.some.injEq] at built
  obtain ⟨encContent,content,metaStr,text,encMeta,metadata,vector,parsed,same⟩ := built
  exact ⟨encContent,metaStr,encMeta,vector,content,text,metadata,parsed,same.symm⟩

end NPSync.Engine
