import NPSync.Engine.ApiClient
import NPSync.Engine.Events
import NPSync.KnownAnswers

/-! What the worker makes of whatever its requests are answered with. Nothing
catches an exception of `processPendingOp`, so the predicates here collect the
fields it reads of each answer on the way it takes. -/
namespace NPSync.Engine
open Library

theorem sha256Hex_ascii (prim : Primitives) (data : Bytes) : ∀ c ∈ Crypto.sha256Hex prim data, c < 128 := by
  have digits := Crypto.sha256Hex_isLowerHex prim data
  rw [List.all_eq_true] at digits
  intro c member
  have range := digits c member
  simp only [isLowerHex,Bool.or_eq_true,Bool.and_eq_true,decide_eq_true_eq] at range
  rcases range with ⟨-,bound⟩ | ⟨-,bound⟩
  · exact UInt8.lt_of_le_of_lt bound (by decide)
  · exact UInt8.lt_of_le_of_lt bound (by decide)

section
variable (plat : Platform) (dev : Device) (replies : Replies)

/-- The path, the identifier and the vector of a payload can be written as JSON. -/
def PayloadReads (db : LocalDb) (relPath : Str) (vv : VersionVector) (rnd : Random) (link : Link) : Prop :=
  Json.validUtf8 relPath = true ∧ ∃ vector, plat.parse (vv.bump dev.deviceId).toJson = some vector ∧
    (parseUrl link.client.baseUrl = .accepted →
      Json.validUtf8 (fileIdFor (db.getFile relPath) rnd) = true ∧ vector.valid = true)

/-- The address parses, and a 401 is refreshed with strings. -/
def RequestReads (link : Link) : Prop := parseUrl link.client.baseUrl ≠ .threw ∧ Refreshes plat replies link

/-- The message of a refusal is text other than the word for a lost connection. -/
def RefusalReads (r : ApiResponse) (fallback : String) : Prop :=
  r.body.readsStr (lit "message") = true ∧ r.body.valueStr (lit "message") (lit fallback) ≠ some (lit "offline")

/-- What a conflict record takes from the head of the server. -/
def CopyReads (current : Json) : Prop :=
  current.readsInt (lit "version") = true ∧ current.readsStr (lit "content_hash") = true

/-- What the upload of a merged text takes from the head and from the answer. -/
def MergeReads (db : LocalDb) (relPath : Str) (current : Json) (rnd : Random) (io : MergeIo) (link : Link) : Prop :=
  io.write = .replaced →
    current.readsInt (lit "version") = true ∧
    ∃ vector, (current.value (lit "version_vector") (.obj [])).bind Json.dump = some vector ∧
      PayloadReads plat dev db relPath (VersionVector.fromJson vector) rnd link ∧ RequestReads plat replies link ∧
      let r := (answer plat replies link).1
      if r.status = 200 then r.body.readsInt (lit "version") = true else CopyReads current

def localMerge (l : Local) (relPath : Str) (absPath : WStr) (remoteText : Bytes) (io : MergeIo) : MergeResult :=
  Merge.merge ((readShadow plat l relPath io.shadowOpens).getD [])
    ((readFileBytes plat.win l.disk absPath io.opens).getD []) remoteText

/-- What a conflict takes from the head in the 409 and from the fetched version. -/
def ConflictReads (l : Local) (relPath : Str) (absPath : WStr) (current : Json) (rnd : Random) (io : MergeIo)
    (link : Link) : Prop :=
  current.readsStr (lit "file_id") = true ∧
  (current.valueStr (lit "file_id") [] ≠ some [] → RequestReads plat replies link ∧
    let full := answer plat replies link
    (full.1.status = 200 → full.1.body.readsStr (lit "encrypted_content") = true ∧
      ∀ remoteText ∈ fetchedText plat dev full.1,
        if (localMerge plat l relPath absPath remoteText io).clean then
          MergeReads plat dev replies l.db relPath current rnd io full.2
        else CopyReads current))

/-- What an upload takes from its answer. -/
def AnswerReads (l : Local) (relPath : Str) (absPath : WStr) (io : UploadIo) (r : ApiResponse) (link : Link) : Prop :=
  r.transportOk = true →
    if r.status = 200 ∨ r.status = 201 then r.body.readsInt (lit "version") = true
    else if r.status = 409 then ∃ current, r.body.value (lit "current") (.obj []) = some current ∧
      ConflictReads plat dev replies l relPath absPath current io.mergeRnd io.merge link
    else RefusalReads r "upload failed"

/-- The row says that this content is already on the server. -/
def unchanged (st : Option LocalFileState) (plaintext : Bytes) : Bool :=
  st.any fun st => st.localHash = Crypto.sha256Hex plat.prim plaintext && st.remoteHash = Crypto.sha256Hex plat.prim plaintext

def UploadReads (l : Local) (relPath : Str) (absPath : WStr) (io : UploadIo) (link : Link) : Prop :=
  hasMasterKey dev = true → ∀ plaintext ∈ readFileBytes plat.win l.disk absPath io.opens,
    plaintext.length ≤ dev.maxFileBytes → unchanged plat (l.db.getFile relPath) plaintext = false →
    PayloadReads plat dev l.db relPath (((l.db.getFile relPath).map (·.versionVector)).getD .empty) io.rnd link ∧
    RequestReads plat replies link ∧
    AnswerReads plat dev replies l relPath absPath io (answer plat replies link).1 (answer plat replies link).2

def DeleteReads (l : Local) (relPath : Str) (link : Link) : Prop :=
  ∀ st ∈ l.db.getFile relPath, st.fileId ≠ [] → RequestReads plat replies link ∧
    let r := (answer plat replies link).1
    (r.transportOk = true → r.status ≠ 200 → r.status ≠ 404 → RefusalReads r "delete failed")

/-- Every field that the operation reads of the answers it gets has its type. -/
def OperationReads (l : Local) (op : PendingOp) (io : UploadIo) (link : Link) : Prop :=
  match op.kind with
  | .upload => ∀ abs ∈ absPathForRel plat.win l.db op.relPath, UploadReads plat dev replies l op.relPath abs io link
  | .delete => DeleteReads plat replies l op.relPath link
  | .rename => True

/-! ### Each function, branch by branch -/

theorem survives_threw (l : Local) (link : Link) (lost : Bool) : ¬Survives plat replies (threw l) link lost := by
  unfold threw
  rw [survives_done]
  exact fun survives => survives.1 rfl

theorem survives_fails (error : String) (different : lit error ≠ lit "offline") (l : Local) (link : Link) (lost : Bool) :
    Survives plat replies (fails error l) link lost := by
  unfold fails
  rw [survives_done]
  refine ⟨nofun,?_⟩
  intro same
  exact absurd (Outcome.failed.inj same) different

theorem survives_offline (l : Local) (link : Link) (lost : Bool) :
    Survives plat replies (fails "offline" l) link lost ↔ lost = true := by
  unfold fails
  rw [survives_done]
  simp

theorem survives_refused (r : ApiResponse) (fallback : String) (l : Local) (link : Link) :
    Survives plat replies (refused r fallback l) link false ↔ RefusalReads r fallback := by
  unfold refused RefusalReads
  rw [← Json.valueStr_isSome r.body (lit "message") (lit fallback)]
  cases r.body.valueStr (lit "message") (lit fallback) with
  | none => simpa using survives_threw plat replies l link false
  | some message =>
    dsimp only
    rw [survives_done]
    simp

theorem survives_keepBoth (l : Local) (relPath : Str) (absPath : WStr) (current : Json) (fileId : Str)
    (localText : Bytes) (io : MergeIo) (link : Link) (lost : Bool) :
    Survives plat replies (keepBoth plat dev l relPath absPath current fileId localText io) link lost ↔ CopyReads current := by
  unfold keepBoth CopyReads
  rw [← Json.valueInt_isSome current (lit "version") 0,← Json.valueStr_isSome current (lit "content_hash") []]
  cases current.valueInt (lit "version") 0 with
  | none => simpa using survives_threw plat replies _ link lost
  | some version =>
    cases current.valueStr (lit "content_hash") [] with
    | none => simpa using survives_threw plat replies _ link lost
    | some contentHash =>
      dsimp only
      rw [survives_done]
      simp

/-- A payload is built when its path and its vector can be written. -/
theorem buildFilePayload_isSome (keyed : hasMasterKey dev = true) (db : LocalDb) (relPath : Str) (plaintext : Bytes)
    (baseVersion : Int) (vv : VersionVector) (rnd : Random) :
    (∃ payload, buildFilePayload plat dev db relPath plaintext baseVersion vv rnd = some payload) ↔
      Json.validUtf8 relPath = true ∧ ∃ vector, plat.parse (vv.bump dev.deviceId).toJson = some vector := by
  have sized : dev.masterKey.length = kMasterKeyLen := by simpa [hasMasterKey] using keyed
  have seals : ∀ nonce text aad, ∃ sealed, Crypto.encrypt plat.prim dev.masterKey nonce text aad = some sealed := by
    intro nonce text aad
    unfold Crypto.encrypt
    rw [if_neg (by simp [sized])]
    exact ⟨_,rfl⟩
  have writes : (metadataJson relPath).valid = Json.validUtf8 relPath := by
    have key : Json.validUtf8 (lit "relative_path") = true := Json.validUtf8_of_ascii _ (by decide +kernel)
    simp only [metadataJson,Json.valid,Json.validFields,key,Bool.true_and,Bool.and_true]
  obtain ⟨content,first⟩ := seals rnd.contentNonce plaintext (lit "file")
  constructor
  · rintro ⟨payload,built⟩
    obtain ⟨encContent,metaStr,encMeta,vector,-,text,-,parsed,-⟩ := buildFilePayload_parts _ _ _ _ _ _ _ _ _ built
    refine ⟨?_,vector,parsed⟩
    rw [← writes,← dump_isSome,text]
    rfl
  · rintro ⟨path,vector,parsed⟩
    rw [← writes,← dump_isSome] at path
    obtain ⟨metaStr,text⟩ := Option.isSome_iff_exists.mp path
    obtain ⟨encMeta,second⟩ := seals rnd.metadataNonce metaStr (lit "metadata")
    unfold buildFilePayload
    simp only [first,text,second,parsed,Option.bind_eq_bind,Option.bind_some,Option.pure_def]
    exact ⟨_,rfl⟩

private theorem key_valid (key : String) (ascii : ∀ c ∈ lit key, c < 128) : Json.validUtf8 (lit key) = true :=
  Json.validUtf8_of_ascii _ ascii

theorem payload_valid {db : LocalDb} {relPath : Str} {plaintext : Bytes} {baseVersion : Int} {vv : VersionVector}
    {rnd : Random} {payload : Payload}
    (built : buildFilePayload plat dev db relPath plaintext baseVersion vv rnd = some payload) :
    payload.toJson.valid = true ↔ Json.validUtf8 (fileIdFor (db.getFile relPath) rnd) = true ∧
      payload.versionVector.valid = true := by
  obtain ⟨encContent,metaStr,encMeta,vector,-,-,-,-,rfl⟩ := buildFilePayload_parts _ _ _ _ _ _ _ _ _ built
  have content := Json.validUtf8_of_ascii _ (Base64.encode_ascii encContent)
  have metadata := Json.validUtf8_of_ascii _ (Base64.encode_ascii encMeta)
  have hash := Json.validUtf8_of_ascii _ (sha256Hex_ascii plat.prim encContent)
  have idempotency : Json.validUtf8 (idempotencyKey plat.prim relPath baseVersion plaintext) = true :=
    Json.validUtf8_of_ascii _ fun c member => sha256Hex_ascii plat.prim _ c (List.mem_of_mem_take member)
  have empty : Json.validUtf8 [] = true := rfl
  simp only [Payload.toJson,Json.valid,Json.validFields,content,metadata,hash,idempotency,empty,
    key_valid "base_version" (by decide +kernel),key_valid "content_hash" (by decide +kernel),key_valid "encrypted_content" (by decide +kernel),
    key_valid "encrypted_metadata" (by decide +kernel),key_valid "file_id" (by decide +kernel),key_valid "idempotency_key" (by decide +kernel),
    key_valid "modified_at" (by decide +kernel),key_valid "size" (by decide +kernel),key_valid "version_vector" (by decide +kernel),
    Bool.true_and,Bool.and_true,Bool.and_eq_true]

theorem payload_unread (keyed : hasMasterKey dev = true) {db : LocalDb} {relPath : Str} {plaintext : Bytes}
    {baseVersion : Int} {vv : VersionVector} {rnd : Random}
    (built : buildFilePayload plat dev db relPath plaintext baseVersion vv rnd = none) (link : Link) :
    ¬PayloadReads plat dev db relPath vv rnd link := by
  rintro ⟨path,vector,parsed,-⟩
  obtain ⟨payload,some⟩ := (buildFilePayload_isSome plat dev keyed db relPath plaintext baseVersion vv rnd).mpr ⟨path,vector,parsed⟩
  rw [built] at some
  contradiction

/-- A payload that is built can be sent when it can be written and the answer read. -/
theorem payload_sendable (keyed : hasMasterKey dev = true) {db : LocalDb} {relPath : Str} {plaintext : Bytes}
    {baseVersion : Int} {vv : VersionVector} {rnd : Random} {payload : Payload}
    (built : buildFilePayload plat dev db relPath plaintext baseVersion vv rnd = some payload) (link : Link) :
    (Sendable link (some payload.toJson) ∧ Refreshes plat replies link) ↔
      PayloadReads plat dev db relPath vv rnd link ∧ RequestReads plat replies link := by
  obtain ⟨path,-⟩ := (buildFilePayload_isSome plat dev keyed db relPath plaintext baseVersion vv rnd).mp ⟨payload,built⟩
  have valid := payload_valid plat dev built
  obtain ⟨encContent,metaStr,encMeta,vector,-,-,-,parsed,same⟩ := buildFilePayload_parts _ _ _ _ _ _ _ _ _ built
  have carried : payload.versionVector = vector := by rw [same]
  rw [carried] at valid
  constructor
  · rintro ⟨⟨address,written⟩,refreshes⟩
    exact ⟨⟨path,vector,parsed,fun accepted => valid.mp (written accepted _ rfl)⟩,address,refreshes⟩
  · rintro ⟨⟨-,other,read,sound⟩,address,refreshes⟩
    cases Option.some.inj (read.symm.trans parsed)
    refine ⟨⟨address,?_⟩,refreshes⟩
    intro accepted json member
    rw [← Option.some.inj member]
    exact valid.mpr (sound accepted)

/-- A status comes from an accepted address. -/
theorem answer_status {link : Link} {status : Int} (got : (answer plat replies link).1.status = status)
    (positive : status ≠ 0) : parseUrl link.client.baseUrl = .accepted := by
  unfold answer at got
  dsimp only at got
  split at got
  · rename_i refused
    exact delivered_status plat replies refused.1 (by decide)
  · exact delivered_status plat replies got positive

/-- The vector of a payload that was sent is read back. -/
theorem sentVector_some {db : LocalDb} {relPath : Str} {plaintext : Bytes} {baseVersion : Int} {vv : VersionVector}
    {rnd : Random} {payload : Payload}
    (built : buildFilePayload plat dev db relPath plaintext baseVersion vv rnd = some payload) {link : Link}
    (sendable : Sendable link (some payload.toJson)) (accepted : parseUrl link.client.baseUrl = .accepted) :
    ∃ sent, sentVector payload = some sent := by
  have valid := ((payload_valid plat dev built).mp (sendable.2 accepted _ rfl)).2
  rw [← dump_isSome] at valid
  obtain ⟨text,dumped⟩ := Option.isSome_iff_exists.mp valid
  exact ⟨_,by rw [sentVector,dumped]; rfl⟩

theorem survives_uploadMerged (keyed : hasMasterKey dev = true) (l : Local) (relPath : Str) (absPath : WStr)
    (current : Json) (fileId : Str) (localText merged : Bytes) (rnd : Random) (io : MergeIo) (link : Link) (lost : Bool) :
    Survives plat replies (uploadMerged plat dev l relPath absPath current fileId localText merged rnd io) link lost ↔
      MergeReads plat dev replies l.db relPath current rnd io link := by
  unfold uploadMerged MergeReads
  rw [← Json.valueInt_isSome current (lit "version") 0]
  dsimp only
  rw [writeFileAtomic_written]
  by_cases written : io.write = .replaced
  · rw [if_neg (by simp [written])]
    cases current.valueInt (lit "version") 0 with
    | none => simpa [written] using survives_threw plat replies _ link lost
    | some newBase =>
      cases (current.value (lit "version_vector") (.obj [])).bind Json.dump with
      | none => simpa [written] using survives_threw plat replies _ link lost
      | some vector =>
        dsimp only
        cases built : buildFilePayload plat dev l.db relPath merged newBase (VersionVector.fromJson vector) rnd with
        | none =>
          have unread := payload_unread plat dev keyed built link
          rw [backupReplaced_db,built]
          simpa [written,unread] using survives_threw plat replies _ link lost
        | some payload =>
          rw [backupReplaced_db,built]
          dsimp only
          rw [survives_call]
          have reads := payload_sendable plat dev replies keyed built link
          simp only [written,Option.isSome_some,true_and,Option.some.injEq,exists_eq_left',forall_const]
          rw [← and_assoc,← reads]
          refine and_congr_right ?_
          rintro ⟨sendable,-⟩
          by_cases ok : (answer plat replies link).1.status = 200
          · simp only [ok,if_true]
            obtain ⟨vv,sent⟩ := sentVector_some plat dev built sendable (answer_status plat replies ok (by decide))
            rw [← Json.valueInt_isSome _ (lit "version") (newBase + 1),sent]
            cases (answer plat replies link).1.body.valueInt (lit "version") (newBase + 1) with
            | none => simpa using survives_threw plat replies _ _ _
            | some version =>
              dsimp only
              rw [survives_done]
              simp
          · simp only [ok,if_false]
            exact survives_keepBoth plat dev replies _ relPath absPath current fileId localText io _ _
  · rw [if_pos (by simp [written])]
    simp only [written,false_implies,iff_true]
    exact survives_fails plat replies _ (by decide) _ link lost

theorem decrypt_keyed (keyed : hasMasterKey dev = true) (envelope : Bytes) (aad : Str) :
    Crypto.decrypt plat.prim dev.masterKey envelope aad ≠ .threw := by
  have sized : dev.masterKey.length = kMasterKeyLen := by simpa [hasMasterKey] using keyed
  unfold Crypto.decrypt
  split
  · nofun
  split
  · nofun
  split
  · nofun
  rw [if_neg (by simp [sized])]
  dsimp only
  split <;> nofun

theorem survives_handleConflict (keyed : hasMasterKey dev = true) (l : Local) (relPath : Str) (absPath : WStr)
    (current : Json) (rnd : Random) (io : MergeIo) (link : Link) (lost : Bool) :
    Survives plat replies (handleConflict plat dev l relPath absPath current rnd io) link lost ↔
      ConflictReads plat dev replies l relPath absPath current rnd io link := by
  unfold handleConflict ConflictReads
  rw [← Json.valueStr_isSome current (lit "file_id") []]
  cases current.valueStr (lit "file_id") [] with
  | none => simpa using survives_threw plat replies l link lost
  | some fileId =>
    dsimp only
    by_cases unnamed : fileId = []
    · simpa [unnamed] using survives_fails plat replies _ (by decide) l link lost
    rw [if_neg unnamed,survives_call]
    simp only [ne_eq,Option.some.injEq,unnamed,not_false_eq_true,forall_const,Option.isSome_some,true_and,
      RequestReads,Sendable,ApiCall.body,Option.mem_def,reduceCtorEq,false_implies,implies_true,and_true]
    refine and_congr_right fun _ => ?_
    generalize answer plat replies link = full
    by_cases ok : full.1.status = 200
    · rw [if_neg (by simp [ok]),← Json.valueStr_isSome full.1.body (lit "encrypted_content") []]
      simp only [ok,forall_const,fetchedText]
      cases full.1.body.valueStr (lit "encrypted_content") [] with
      | none => simpa using survives_threw plat replies l full.2 _
      | some text =>
        dsimp only
        cases Base64.base64UrlDecode text with
        | none => simpa using survives_fails plat replies _ (by decide) l full.2 _
        | some encRemote =>
          dsimp only
          have quiet := decrypt_keyed plat dev keyed encRemote (lit "file")
          cases opened : Crypto.decrypt plat.prim dev.masterKey encRemote (lit "file") with
          | threw => exact absurd opened quiet
          | rejected => simpa using survives_fails plat replies _ (by decide) l full.2 _
          | plain remoteText =>
            simp only [Option.isSome_some,true_and,Option.some.injEq,forall_eq']
            split
            · rename_i clean
              rw [if_pos (show (localMerge plat l relPath absPath remoteText io).clean = true from clean)]
              exact survives_uploadMerged plat dev replies keyed l relPath absPath current fileId _ _ rnd io full.2 _
            · rename_i unclean
              rw [if_neg (show ¬(localMerge plat l relPath absPath remoteText io).clean = true from unclean)]
              exact survives_keepBoth plat dev replies l relPath absPath current fileId _ io full.2 _
    · rw [if_pos ok]
      simp only [ok,false_implies,iff_true]
      exact survives_fails plat replies _ (by decide) l full.2 _

theorem survives_uploadFile (l : Local) (relPath : Str) (absPath : WStr) (io : UploadIo) (link : Link) :
    Survives plat replies (uploadFile plat dev l relPath absPath io) link false ↔
      UploadReads plat dev replies l relPath absPath io link := by
  unfold uploadFile UploadReads
  by_cases keyed : hasMasterKey dev = true
  swap
  · rw [if_pos (by simpa using keyed)]
    refine ⟨fun _ wrong => absurd wrong keyed,fun _ => ?_⟩
    exact survives_fails plat replies _ (by decide) l link false
  rw [if_neg (by simp [keyed])]
  simp only [keyed,forall_const]
  cases readFileBytes plat.win l.disk absPath io.opens with
  | none => simpa using survives_fails plat replies _ (by decide) l link false
  | some plaintext =>
    simp only [Option.mem_def,Option.some.injEq,forall_eq']
    by_cases long : dev.maxFileBytes < plaintext.length
    · rw [if_pos long]
      simp only [Int.not_le.mpr long,false_implies,iff_true]
      exact survives_fails plat replies _ (by decide) l link false
    rw [if_neg long]
    simp only [Int.not_lt.mp long,forall_const]
    cases same : unchanged plat (l.db.getFile relPath) plaintext with
    | true =>
      rw [if_pos (by simpa [unchanged] using same),survives_done]
      simp
    | false =>
      rw [if_neg (by simpa [unchanged] using same)]
      simp only [forall_const]
      cases built : buildFilePayload plat dev l.db relPath plaintext (((l.db.getFile relPath).map (·.remoteVersion)).getD 0)
          (((l.db.getFile relPath).map (·.versionVector)).getD .empty) io.rnd with
      | none =>
        have unread := payload_unread plat dev keyed built link
        simpa [unread] using survives_threw plat replies l link false
      | some payload =>
        dsimp only
        have body : (uploadCall (((l.db.getFile relPath).map (·.remoteVersion)).getD 0) payload).body = some payload.toJson := by
          unfold uploadCall
          split <;> rfl
        rw [survives_call,body,← and_assoc,← payload_sendable plat dev replies keyed built link]
        refine and_congr_right ?_
        rintro ⟨sendable,-⟩
        unfold finishUpload AnswerReads
        dsimp only
        cases reached : (answer plat replies link).1.transportOk with
        | false => simpa using survives_offline plat replies _ (answer plat replies link).2 true
        | true =>
          simp only [Bool.not_true,Bool.false_eq_true,if_false,Bool.or_false,forall_const]
          by_cases ok : (answer plat replies link).1.status = 200 ∨ (answer plat replies link).1.status = 201
          · simp only [ok,if_true]
            have accepted : parseUrl link.client.baseUrl = .accepted := by
              rcases ok with ok | ok
              · exact answer_status plat replies ok (by decide)
              · exact answer_status plat replies ok (by decide)
            obtain ⟨vv,sent⟩ := sentVector_some plat dev built sendable accepted
            rw [← Json.valueInt_isSome _ (lit "version") 1,sent]
            cases (answer plat replies link).1.body.valueInt (lit "version") 1 with
            | none => simpa using survives_threw plat replies _ _ _
            | some version =>
              dsimp only
              rw [survives_done]
              simp
          · simp only [ok,if_false]
            by_cases conflict : (answer plat replies link).1.status = 409
            · simp only [conflict,if_true]
              cases (answer plat replies link).1.body.value (lit "current") (.obj []) with
              | none => simpa using survives_threw plat replies _ _ _
              | some current =>
                simp only [Option.some.injEq,exists_eq_left']
                exact survives_handleConflict plat dev replies keyed _ relPath absPath current io.mergeRnd io.merge _ _
            · simp only [conflict,if_false]
              exact survives_refused plat replies _ "upload failed" _ _

theorem survives_deleteRemote (l : Local) (relPath : Str) (link : Link) :
    Survives plat replies (deleteRemote l relPath) link false ↔ DeleteReads plat replies l relPath link := by
  unfold deleteRemote DeleteReads
  dsimp only
  cases l.db.getFile relPath with
  | none =>
    dsimp only
    rw [survives_done]
    simp
  | some st =>
    simp only [Option.mem_def,Option.some.injEq,forall_eq']
    by_cases unknown : st.fileId = []
    · rw [if_pos unknown,survives_done]
      simp [unknown]
    rw [if_neg unknown,survives_call]
    simp only [ne_eq,unknown,not_false_eq_true,forall_const,
      RequestReads,Sendable,ApiCall.body,Option.mem_def,reduceCtorEq,false_implies,implies_true,and_true]
    refine and_congr_right fun _ => ?_
    generalize answer plat replies link = got
    cases reached : got.1.transportOk with
    | false => simpa using survives_offline plat replies _ got.2 true
    | true =>
      simp only [Bool.not_true,Bool.false_eq_true,if_false,Bool.or_false,forall_const]
      by_cases done : got.1.status = 200 ∨ got.1.status = 404
      · rw [if_pos done,survives_done]
        rcases done with done | done <;> simp [done]
      · obtain ⟨first,second⟩ := not_or.mp done
        rw [if_neg done]
        simp only [first,second,not_false_eq_true,forall_const]
        exact survives_refused plat replies got.1 "delete failed" _ got.2

/-! ### What becomes of the operation -/

def bumped (op : PendingOp) (err : Str) (other : PendingOp) : PendingOp :=
  if other.id = op.id then {other with retryCount := other.retryCount + 1,lastError := err} else other

/-- A success removes the operation; a failure leaves it as it was because the
device is offline, counts as a retry, or drops it after more than 25 retries. -/
def Accounted (l : Local) (op : PendingOp) (out : (Outcome × Local) × Bool) : Prop :=
  let queue := out.1.2.db.pendingOps
  let removed := queue = l.db.pendingOps.filter (fun other => !decide (other.id = op.id))
  match out.1.1 with
  | .threw => False
  | .failed err => (out.2 = true ∧ out.1.2.online = false ∧ queue = l.db.pendingOps) ∨
      (if 25 < op.retryCount then removed else queue = l.db.pendingOps.map (bumped op err))
  | _ => removed

theorem filter_bumped (op : PendingOp) (err : Str) (ops : List PendingOp) :
    (ops.map (bumped op err)).filter (fun other => !decide (other.id = op.id)) =
      ops.filter (fun other => !decide (other.id = op.id)) := by
  induction ops with
  | nil => rfl
  | cons first rest ih =>
    by_cases mine : first.id = op.id
    · simp only [List.map_cons,bumped,mine,if_true,decide_true,Bool.not_true,Bool.false_eq_true,not_false_eq_true,
        List.filter_cons_of_neg]
      exact ih
    · simp only [List.map_cons,bumped,mine,if_false,decide_false,Bool.not_false,List.filter_cons_of_pos]
      exact congrArg (first::·) ih

/-- An operation that is left as it was is neither retried nor removed. -/
theorem queue_moves {l : Local} {op : PendingOp} (pending : op ∈ l.db.pendingOps) (err : Str) :
    ¬if 25 < op.retryCount then l.db.pendingOps = l.db.pendingOps.filter (fun other => !decide (other.id = op.id))
      else l.db.pendingOps = l.db.pendingOps.map (bumped op err) := by
  split
  · intro same
    rw [same] at pending
    simpa using (List.mem_filter.mp pending).2
  · intro same
    have still := List.map_inj_left.mp (same.symm.trans (List.map_id _).symm) op pending
    have count := congrArg PendingOp.retryCount still
    simp [bumped] at count

theorem settleOp_accounted {l : Local} {op : PendingOp} {out : Outcome × Local} (pending : op ∈ l.db.pendingOps)
    (same : SameSetup l.db out.2.db) (quiet : out.1 ≠ .threw) (lost : Bool) :
    Accounted l op (settleOp op out,lost) ↔ (out.1 = .failed (lit "offline") → lost = true) := by
  obtain ⟨outcome,after⟩ := out
  have queue := same.pendingOps
  dsimp only at queue quiet
  have removes : (after.db.removeOp op.id).pendingOps = l.db.pendingOps.filter (fun other => !decide (other.id = op.id)) := by
    rw [← queue]
    rfl
  unfold settleOp Accounted
  cases outcome with
  | threw => exact absurd rfl quiet
  | failed err =>
    dsimp only
    by_cases offline : err = lit "offline"
    · simp only [offline,if_true,queue,and_true,forall_const]
      exact or_iff_left (queue_moves pending _)
    · simp only [offline,if_false,Outcome.failed.injEq,false_implies,iff_true]
      right
      split
      · show ((after.db.markOpFailed op.id err).removeOp op.id).pendingOps = _
        rw [← queue]
        exact filter_bumped op err after.db.pendingOps
      · show (after.db.markOpFailed op.id err).pendingOps = _
        rw [← queue]
        rfl
  | skipped | stored | merged | conflictRecorded | applied => simpa using removes

theorem accounted_survives {l : Local} {op : PendingOp} {exchange : Exchange} (pending : op ∈ l.db.pendingOps)
    (ends : exchange.Ends (fun out => SameSetup l.db out.2.db)) (link : Link) :
    (∃ out, exchanged plat replies (exchange.bind fun out => .done (settleOp op out)) link false = some out ∧
      Accounted l op out) ↔ Survives plat replies exchange link false := by
  rw [exchanged_bind plat replies (settleOp op) (settleOp_outcome op)]
  constructor
  · rintro ⟨settled,ended,accounted⟩
    obtain ⟨out,before,rfl⟩ := Option.map_eq_some_iff.mp ended
    obtain ⟨quiet,same⟩ := exchanged_ends plat replies ends before
    exact ⟨out,before,(settleOp_accounted pending same quiet out.2).mp accounted⟩
  · rintro ⟨out,before,reported⟩
    obtain ⟨quiet,same⟩ := exchanged_ends plat replies ends before
    exact ⟨(settleOp op out.1,out.2),by rw [before]; rfl,(settleOp_accounted pending same quiet out.2).mpr reported⟩

/-- The worker survives the answers to an operation, and accounts for it, exactly
when it can read them. -/
theorem processPendingOp_accounted_iff (l : Local) (op : PendingOp) (io : UploadIo) (client : ApiClient)
    (pending : op ∈ l.db.pendingOps) :
    (∃ out, exchanged plat replies (processPendingOp plat dev l op io) ⟨client,0⟩ false = some out ∧ Accounted l op out) ↔
      OperationReads plat dev replies l op io ⟨client,0⟩ := by
  unfold processPendingOp OperationReads
  cases kind : op.kind with
  | upload =>
    dsimp only
    cases located : absPathForRel plat.win l.db op.relPath with
    | none => exact iff_of_true ⟨_,rfl,rfl⟩ nofun
    | some abs =>
      dsimp only
      rw [accounted_survives plat replies pending (uploadFile_setup plat dev l op.relPath abs io),survives_uploadFile]
      simp
  | delete =>
    dsimp only
    rw [accounted_survives plat replies pending (deleteRemote_setup l op.relPath),survives_deleteRemote]
  | rename => exact iff_of_true ⟨_,rfl,rfl⟩ trivial

end

/-! ### An error page and a refusal -/

section
open KnownAnswers

private def messages : List Json := ["offline","try later"].map fun text => .obj [(lit "message",.str (lit text))]

private def proxied : Platform :=
  {platform with parse := fun text => messages.find? (fun json => json.dumpText = text)}

/-- The device has deleted the file and the operation waits. -/
private def deleting : Local :=
  ⟨(LocalDb.empty.upsertFile (notesRow 1)).enqueueOp .delete (lit "root:notes.txt") [] 0,⟨.empty,[]⟩,.empty,[],true⟩

private def waiting : PendingOp := ⟨1,.delete,lit "root:notes.txt",[],0,0,[]⟩

private def online : ApiClient := ⟨lit "https://notes.example:8443/",lit "access",lit "refresh"⟩

private def noUpload : UploadIo :=
  ⟨true,.replaced,⟨nonceOf 1,nonceOf 2,uuidOf 0⟩,⟨nonceOf 1,nonceOf 2,uuidOf 0⟩,
    ⟨true,true,.replaced,⟨0,true⟩,.replaced,.replaced,0⟩⟩

private def repliesWith (status : Nat) (body : String) : Replies := fun _ => some ⟨status,lit body⟩

private def gatewayPage : String := "<html><body>502 Bad Gateway</body></html>"

private def refusal (text : String) : String := "\x7b\"message\":\"" ++ text ++ "\"\x7d"

private def worked (replies : Replies) : Option ((Outcome × Local) × Bool) :=
  exchanged proxied replies (processPendingOp proxied laptop deleting waiting noUpload) ⟨online,0⟩ false

theorem refusal_retried : ∃ out, worked (repliesWith 503 (refusal "try later")) = some out ∧ Accounted deleting waiting out := by
  refine (processPendingOp_accounted_iff proxied laptop (repliesWith 503 (refusal "try later")) deleting waiting noUpload online
    (by decide)).mpr ?_
  intro st row known
  refine ⟨⟨by decide,?_⟩,?_⟩
  · intro expired
    exact absurd expired (by decide)
  · dsimp only
    intro reached first second
    exact ⟨by decide,by decide⟩

/-- The page of a proxy throws, and a refusal that says offline leaves the
operation without a retry though the server has answered. -/
theorem error_page_unaccounted :
    (¬∃ out, worked (repliesWith 502 gatewayPage) = some out ∧ Accounted deleting waiting out) ∧
      ¬∃ out, worked (repliesWith 503 (refusal "offline")) = some out ∧ Accounted deleting waiting out := by
  have throws : (worked (repliesWith 502 gatewayPage)).isNone = true := by decide
  have stays : (worked (repliesWith 503 (refusal "offline"))).map
      (fun out => (out.1.1,out.2,out.1.2.db.pendingOps.map (·.retryCount))) = some (.failed (lit "offline"),false,[0]) := by
    decide
  constructor
  · rintro ⟨out,ended,-⟩
    rw [ended] at throws
    contradiction
  · rintro ⟨out,ended,accounted⟩
    rw [ended] at stays
    simp only [Option.map_some,Option.some.injEq,Prod.mk.injEq] at stays
    obtain ⟨failed,replied,counts⟩ := stays
    unfold Accounted at accounted
    rw [failed,replied] at accounted
    rcases accounted with ⟨wrong,-⟩ | retried
    · contradiction
    · rw [if_neg (by decide)] at retried
      rw [retried] at counts
      contradiction

end
end NPSync.Engine
