import NPSync.Engine.Clients
import NPSync.Engine.LocalEdits
import NPSync.Engine.ResolutionEnds
import NPSync.Server.Writes

/-! The shadow copies as merge bases. Each operation of the engine stores a text
with the version that the server answered, and the server keeps a written
version as it is. -/
namespace NPSync.Engine
open Library Server

/-- The lookup of a stored answer that finds one. -/
def replayed : CallEvent → Bool
  | ⟨.getIdempotentResponse ..,some _⟩ => true
  | _ => false

/-- The version was written by an accepted request and the text is its plaintext. -/
def Held (prim : Primitives) (masterKey : Bytes) (accountID : Str) (history : List (ServerEntry Party)) (fileId : Str)
    (version : Int) (text : Bytes) : Prop :=
  ∃ f, WrittenIn history (Mem.fileKey accountID fileId) f ∧ (f.version : Int) = version ∧ PlaintextOf prim masterKey f text

/-- An accepting answer carries a record that was written: the upload's own, or
the head that was downloaded. -/
structure Backed (prim : Primitives) (accountID : Str) (history : List (ServerEntry Party)) (event : ApiEvent) : Prop where
  upload : ∀ req, requested event.op = some req → event.result.status = 200 ∨ event.result.status = 201 →
    event.result.body ≠ .null → ∃ head, event.result.body = recordJson (toFileJSON head []) ∧
      WrittenIn history (Mem.fileKey accountID req.fileID) head ∧ head.contentHash = req.contentHash ∧
      head.deleted = req.deleted
  download : ∀ fileId, event.op = .getFile fileId → event.result.status = 200 → event.result.body ≠ .null →
    ∃ f, WrittenIn history (Mem.fileKey accountID fileId) f ∧
      (f.deleted = true ∧ event.result.body = recordJson (toFileJSON f []) ∨
        f.deleted = false ∧ ∃ content, Crypto.sha256Hex prim content = f.contentHash ∧
          event.result.body = recordJson (toFileJSON f (Base64.encodeBase64URL content)))

/-- Unless a stored answer was replayed, the answers of a conversation are backed by the history. -/
theorem Carried.backed {u : Setup} {l : ClientLedger} (writes : WriteInv l) (contents : ContentInv u.plat.prim l)
    {dispatches : List Dispatch} {conversation : List ApiEvent} {index : Nat}
    (carried : Carried u dispatches conversation (Ledger.callsOf l.history index))
    (fresh : ∀ call ∈ Ledger.callsOf l.history index, replayed call = false) {event : ApiEvent}
    (member : event ∈ conversation) : Backed u.plat.prim u.accountID l.history event := by
  rcases carried.answer member with gone | ⟨dispatch,calls,yields,within⟩
  · refine ⟨fun req asks accepted => ?_,fun fileId asks accepted => ?_⟩
    · simp [gone,unreachable] at accepted
    · simp [gone,unreachable] at accepted
  refine ⟨fun req asks accepted readable => ?_,fun fileId asks accepted readable => ?_⟩
  · obtain ⟨out,served,same⟩ := send_answered yields (by omega) readable
    have answer := (handlerOf_answers dispatch.now req asks).yields served
    rw [List.nil_append] at answer
    rw [same] at accepted ⊢
    cases out with
    | error err =>
      have high : 400 ≤ err.httpStatus := answer.1
      have status : (err.httpStatus : Int) = 200 ∨ (err.httpStatus : Int) = 201 := accepted
      omega
    | batch results => exact answer.elim
    | changes list latest => exact answer.elim
    | record status body =>
      rcases answer.2 with ⟨key,lookup⟩ | ⟨head,made,called⟩
      · exact absurd (fresh _ (within _ lookup)) (by simp [replayed])
      · have entry : ∃ entry ∈ l.history, entry.event = ⟨.createFile (recordFromRequest (context u dispatch.now) req),.ok head⟩ ∨
            entry.event = ⟨.updateFile (recordFromRequest (context u dispatch.now) req) req.baseVersion,.ok head⟩ := by
          rcases called with create | update
          · obtain ⟨entry,there,-,same⟩ := Ledger.mem_callsOf.mp (within _ create)
            exact ⟨entry,there,.inl same⟩
          · obtain ⟨entry,there,-,same⟩ := Ledger.mem_callsOf.mp (within _ update)
            exact ⟨entry,there,.inr same⟩
        obtain ⟨entry,there,event⟩ := entry
        obtain ⟨hash,deleted⟩ := writes.content entry there _ head (event.imp id fun same => ⟨_,same⟩)
        refine ⟨head,by rw [made]; rfl,⟨entry,there,?_⟩,hash,deleted⟩
        rcases event with same | same
        · rw [same]
          rfl
        · rw [same]
          rfl
  · obtain ⟨op,r⟩ := event
    dsimp only at asks
    subst asks
    obtain ⟨f,⟨gone,rfl,body⟩ | ⟨live,content,rfl,body⟩⟩ := send_download yields accepted readable
    · obtain ⟨entry,there,-,same⟩ := Ledger.mem_callsOf.mp (within _ List.mem_cons_self)
      exact ⟨f,writes.reads entry there _ f (by rw [same]; rfl),.inl ⟨gone,body⟩⟩
    · obtain ⟨entry,there,-,same⟩ := Ledger.mem_callsOf.mp (within _ List.mem_cons_self)
      obtain ⟨load,inside,-,read⟩ := Ledger.mem_callsOf.mp (within _ (List.mem_cons_of_mem _ List.mem_cons_self))
      have named : f.blobKey = f.contentHash :=
        (contents.readHeads entry there (Mem.fileKey u.accountID fileId) f (by rw [same]; rfl)).1
      have hash : Crypto.sha256Hex u.plat.prim content = f.contentHash := by
        rw [← named]
        exact contents.readContents load inside f.blobKey content (by rw [read]; rfl)
      exact ⟨f,writes.reads entry there _ f (by rw [same]; rfl),.inr ⟨live,content,hash,body⟩⟩

/-! ### What one operation does to rows and shadow copies -/

section
variable (prim : Primitives) (held : Str → Int → Bytes → Prop)

inductive ShadowStep (l after : Local) : Prop
  | same (files : after.db.files = l.db.files) (shadows : after.shadows = l.shadows)
  | removed (key : Str) (files : after.db.files = l.db.files.remove key) (shadows : after.shadows = l.shadows)
  | unsynced (row : LocalFileState) (idle : row.deleted = true ∨ row.remoteVersion ≤ 0)
      (files : after.db.files = l.db.files.upsert row.relPath (LocalDb.toRow row)) (shadows : after.shadows = l.shadows)
  | stored (row : LocalFileState) (text : Bytes) (backed : held row.fileId row.remoteVersion text)
      (files : after.db.files = l.db.files.upsert row.relPath (LocalDb.toRow row))
      (shadows : after.shadows = l.shadows.upsert (Crypto.sha256Hex prim row.relPath) text)

/-- Every tracked row has a shadow copy that holds the text of its version. -/
def ShadowsHeld (l : Local) : Prop :=
  ∀ relPath st, l.db.getFile relPath = some st → st.deleted = false → 0 < st.remoteVersion →
    ∃ text, l.shadows.get (Crypto.sha256Hex prim relPath) = some text ∧ held st.fileId st.remoteVersion text

/-- The shadow copies of the rows are different files. -/
def DistinctShadows (l : Local) : Prop :=
  ∀ a ∈ l.db.files.keys, ∀ b ∈ l.db.files.keys, Crypto.sha256Hex prim a = Crypto.sha256Hex prim b → a = b

end

/-- The files and the shadow copies are as they were. -/
def SameCopies (l after : Local) : Prop := after.db.files = l.db.files ∧ after.shadows = l.shadows

theorem SameCopies.step {prim : Primitives} {held : Str → Int → Bytes → Prop} {l after : Local}
    (same : SameCopies l after) : ShadowStep prim held l after := .same same.1 same.2

/-- A step from a state with the same copies. -/
theorem ShadowStep.of_same {prim : Primitives} {held : Str → Int → Bytes → Prop} {l middle after : Local}
    (step : ShadowStep prim held middle after) (same : SameCopies l middle) : ShadowStep prim held l after := by
  cases step with
  | same files shadows => exact .same (files.trans same.1) (shadows.trans same.2)
  | removed key files shadows => exact .removed key (same.1 ▸ files) (shadows.trans same.2)
  | unsynced row idle files shadows => exact .unsynced row idle (same.1 ▸ files) (shadows.trans same.2)
  | stored row text backed files shadows => exact .stored row text backed (same.1 ▸ files) (same.2 ▸ shadows)

section
variable {plat : Platform} {dev : Device} {accountID : Str} {history : List (ServerEntry Party)}

/-- An accepted upload of a payload holds the plaintext of the payload. -/
theorem payload_held {db : LocalDb} {relPath : Str} {plaintext : Bytes} {baseVersion : Int} {vv : VersionVector} {rnd : Random}
    {payload : Payload} (built : buildFilePayload plat dev db relPath plaintext baseVersion vv rnd = some payload)
    {event : ApiEvent} (backed : Backed plat.prim accountID history event) {req : FileJSON}
    (asks : requested event.op = some req) (hash : req.contentHash = payload.contentHash) (live : req.deleted = false)
    (accepted : event.result.status = 200 ∨ event.result.status = 201) {default version : Int}
    (reads : event.result.body.valueInt (lit "version") default = some version) :
    Held plat.prim dev.masterKey accountID history req.fileID version plaintext := by
  have readable : event.result.body ≠ .null := by
    intro null
    simp [null,Json.valueInt,Json.value] at reads
  obtain ⟨head,body,written,content,deleted⟩ := backed.upload req asks accepted readable
  rw [body,recordJson_version] at reads
  obtain ⟨encContent,metaStr,encMeta,vector,sealed,-,-,-,same⟩ := buildFilePayload_parts _ _ _ _ _ _ _ _ _ built
  refine ⟨head,written,Option.some.inj reads,deleted.trans live,encContent,?_,Crypto.decrypt_encrypt _ _ _ _ _ _ sealed⟩
  rw [content,hash,same]

/-- The text of a downloaded head is held. -/
theorem download_held {event : ApiEvent} (backed : Backed plat.prim accountID history event) {fileId : Str}
    (asks : event.op = .getFile fileId) (accepted : event.result.status = 200) {text : Str} {enc plain : Bytes}
    (has : event.result.body.valueStr (lit "encrypted_content") [] = some text)
    (decoded : Base64.base64UrlDecode text = some enc)
    (opens : Crypto.decrypt plat.prim dev.masterKey enc (lit "file") = .plain plain) {default version : Int}
    (reads : event.result.body.valueInt (lit "version") default = some version) :
    Held plat.prim dev.masterKey accountID history fileId version plain := by
  have readable : event.result.body ≠ .null := by
    intro null
    simp [null,Json.valueInt,Json.value] at reads
  obtain ⟨f,written,⟨gone,body⟩ | ⟨live,content,hash,body⟩⟩ := backed.download fileId asks accepted readable
  · rw [body,recordJson_content] at has
    cases has
    have empty : enc = [] := by
      have decoded_ := Base64.base64UrlDecode_encode []
      exact Option.some.inj (decoded.symm.trans decoded_)
    rw [empty] at opens
    simp [Crypto.decrypt,Crypto.headerLen] at opens
  · rw [body,recordJson_content] at has
    rw [body,recordJson_version] at reads
    cases has
    have same : enc = content := by
      have decoded_ := Base64.base64UrlDecode_encode content
      exact Option.some.inj (decoded.symm.trans decoded_)
    subst same
    exact ⟨f,written,Option.some.inj reads,live,enc,hash,opens⟩


variable {l : Local} {conversation : List ApiEvent} {out : Outcome × Local}

theorem keepBoth_copies (relPath : Str) (absPath : WStr) (serverCurrent : Json) (fileId : Str) (localText : Bytes)
    (io : MergeIo) :
    (keepBoth plat dev l relPath absPath serverCurrent fileId localText io).Ends (fun out => SameCopies l out.2) := by
  unfold keepBoth
  dsimp only
  split
  · exact ⟨rfl,rfl⟩
  · exact ⟨rfl,rfl⟩

theorem refused_copies (r : ApiResponse) (fallback : String) :
    (refused r fallback l).Ends (fun out => SameCopies l out.2) := by
  unfold refused
  split
  · exact ⟨rfl,rfl⟩
  · exact ⟨rfl,rfl⟩

variable (backed : ∀ event ∈ conversation, Backed plat.prim accountID history event)
include backed

theorem uploadMerged_copies {relPath : Str} {absPath : WStr} {serverCurrent : Json} {fileId : Str}
    {localText merged : Bytes} {rnd : Random} {io : MergeIo} (shadow : io.shadow = .replaced)
    (yields : (uploadMerged plat dev l relPath absPath serverCurrent fileId localText merged rnd io).Yields
      conversation out) :
    ShadowStep plat.prim (Held plat.prim dev.masterKey accountID history) l out.2 := by
  unfold uploadMerged at yields
  dsimp only at yields
  split at yields
  · obtain ⟨-,rfl⟩ := yields
    exact .same rfl rfl
  split at yields
  case h_2 =>
    obtain ⟨-,rfl⟩ := yields
    exact .same rfl rfl
  split at yields
  · obtain ⟨-,rfl⟩ := yields
    exact .same rfl rfl
  rename_i payload built
  obtain ⟨r,rest,rfl,after⟩ := yields
  dsimp only at after
  split at after
  case isFalse =>
    have same := (keepBoth_copies _ _ _ _ _ _).yields after
    exact .same same.1 same.2
  rename_i accepted
  split at after
  case h_2 =>
    obtain ⟨-,rfl⟩ := after
    exact .same rfl rfl
  rename_i version vv reads parsed
  obtain ⟨-,rfl⟩ := after
  rw [shadow]
  have held := payload_held built (backed _ List.mem_cons_self) rfl rfl rfl (.inl accepted) reads
  exact .stored (mergedRow plat _ relPath fileId merged version vv) merged held rfl rfl

theorem handleConflict_copies {relPath : Str} {absPath : WStr} {serverCurrent : Json} {rnd : Random} {io : MergeIo}
    (shadow : io.shadow = .replaced)
    (yields : (handleConflict plat dev l relPath absPath serverCurrent rnd io).Yields conversation out) :
    ShadowStep plat.prim (Held plat.prim dev.masterKey accountID history) l out.2 := by
  unfold handleConflict at yields
  split at yields
  · obtain ⟨-,rfl⟩ := yields
    exact .same rfl rfl
  split at yields
  · obtain ⟨-,rfl⟩ := yields
    exact .same rfl rfl
  obtain ⟨full,rest,rfl,after⟩ := yields
  have backed := fun event member => backed event (List.mem_cons_of_mem _ member)
  dsimp only at after
  split at after
  · obtain ⟨-,rfl⟩ := after
    exact .same rfl rfl
  split at after
  · obtain ⟨-,rfl⟩ := after
    exact .same rfl rfl
  split at after
  · obtain ⟨-,rfl⟩ := after
    exact .same rfl rfl
  split at after
  · obtain ⟨-,rfl⟩ := after
    exact .same rfl rfl
  · obtain ⟨-,rfl⟩ := after
    exact .same rfl rfl
  split at after
  · exact uploadMerged_copies backed shadow after
  · exact ((keepBoth_copies _ _ _ _ _ _).yields after).step

theorem uploadFile_copies {relPath : Str} {absPath : WStr} {io : UploadIo} (shadow : io.shadow = .replaced)
    (mergeShadow : io.merge.shadow = .replaced)
    (yields : (uploadFile plat dev l relPath absPath io).Yields conversation out) :
    ShadowStep plat.prim (Held plat.prim dev.masterKey accountID history) l out.2 := by
  unfold uploadFile at yields
  split at yields
  · obtain ⟨-,rfl⟩ := yields
    exact .same rfl rfl
  split at yields
  · obtain ⟨-,rfl⟩ := yields
    exact .same rfl rfl
  dsimp only at yields
  split at yields
  · obtain ⟨-,rfl⟩ := yields
    exact .same rfl rfl
  split at yields
  · obtain ⟨-,rfl⟩ := yields
    exact .same rfl rfl
  split at yields
  · obtain ⟨-,rfl⟩ := yields
    exact .same rfl rfl
  rename_i payload built
  obtain ⟨r,rest,rfl,after⟩ := yields
  unfold finishUpload at after
  dsimp only at after
  split at after
  · obtain ⟨-,rfl⟩ := after
    exact .same rfl rfl
  split at after
  · rename_i accepted
    split at after
    case h_2 =>
      obtain ⟨-,rfl⟩ := after
      exact .same rfl rfl
    rename_i version vv reads parsed
    obtain ⟨-,rfl⟩ := after
    rw [shadow]
    have held := payload_held built (backed _ List.mem_cons_self) (requested_uploadCall _ _) rfl rfl accepted reads
    exact .stored (storedRow relPath (l.db.getFile relPath) payload _ version vv) _ held rfl rfl
  split at after
  · split at after
    · obtain ⟨-,rfl⟩ := after
      exact .same rfl rfl
    · have backed := fun event member => backed event (List.mem_cons_of_mem _ member)
      exact (handleConflict_copies backed mergeShadow after).of_same ⟨rfl,rfl⟩
  · have same := (refused_copies _ _).yields after
    exact .same same.1 same.2

omit backed in
theorem deleteRemote_copies {relPath : Str} (yields : (deleteRemote l relPath).Yields conversation out) :
    ShadowStep plat.prim (Held plat.prim dev.masterKey accountID history) l out.2 := by
  unfold deleteRemote at yields
  dsimp only at yields
  split at yields
  · obtain ⟨-,rfl⟩ := yields
    exact .removed relPath rfl rfl
  split at yields
  · obtain ⟨-,rfl⟩ := yields
    exact .removed relPath rfl rfl
  obtain ⟨r,rest,rfl,after⟩ := yields
  dsimp only at after
  split at after
  · obtain ⟨-,rfl⟩ := after
    exact .same rfl rfl
  split at after
  · obtain ⟨-,rfl⟩ := after
    exact .removed relPath rfl rfl
  · have same := (refused_copies _ _).yields after
    exact .same same.1 same.2

omit backed in
theorem remoteRecord_parts {r : ApiResponse} {record : RemoteRecord} (accepted : remoteRecord plat dev r = .ok record) :
    r.status = 200 ∧ r.body.valueInt (lit "version") 0 = some record.version := by
  unfold remoteRecord at accepted
  split at accepted
  · contradiction
  split at accepted
  · contradiction
  rename_i answered
  cases reads : r.body.valueInt (lit "version") 0 with
  | none => simp [reads,orThrow,bind,Except.bind] at accepted
  | some version =>
    refine ⟨not_not.mp answered,?_⟩
    simp only [reads,orThrow,bind,Except.bind] at accepted
    split at accepted
    · contradiction
    split at accepted
    · contradiction
    split at accepted
    · contradiction
    split at accepted
    · contradiction
    split at accepted
    · contradiction
    split at accepted
    · contradiction
    split at accepted
    · contradiction
    rw [← Except.ok.inj accepted]

omit backed in
theorem remoteContent_parts {r : ApiResponse} {plain : Bytes} {hash : Str}
    (valid : remoteContent plat dev r = .ok (plain,hash)) :
    ∃ text enc, r.body.valueStr (lit "encrypted_content") [] = some text ∧ Base64.base64UrlDecode text = some enc ∧
      Crypto.decrypt plat.prim dev.masterKey enc (lit "file") = .plain plain := by
  unfold remoteContent at valid
  cases has : r.body.valueStr (lit "encrypted_content") [] with
  | none => simp [has,orThrow,bind,Except.bind] at valid
  | some text =>
    cases decoded : Base64.base64UrlDecode text with
    | none => simp [has,decoded,orThrow,orFail,bind,Except.bind] at valid
    | some enc =>
      refine ⟨text,enc,rfl,decoded,?_⟩
      simp only [has,decoded,orThrow,orFail,bind,Except.bind] at valid
      split at valid
      · contradiction
      split at valid
      · contradiction
      cases opens : Crypto.decrypt plat.prim dev.masterKey enc (lit "file") with
      | threw => simp [opens,opened] at valid
      | rejected => simp [opens,opened] at valid
      | plain text =>
        simp only [opens,opened] at valid
        rw [(Prod.mk.inj (Except.ok.inj valid)).1]

theorem applyRemoteFile_copies {fileId : Str} {io : ApplyIo} {now : Int} {event : ApiEvent} (member : event ∈ conversation)
    (asks : event.op = .getFile fileId) (shadow : io.shadow = .replaced) :
    ShadowStep plat.prim (Held plat.prim dev.masterKey accountID history) l
      (applyRemoteFile plat dev l fileId event.result io now).2 := by
  have backed := backed event member
  obtain ⟨op,r⟩ := event
  dsimp only at asks
  unfold applyRemoteFile
  rw [planRemote_online]
  rcases planRemote_cases plat dev l r io.opens with ⟨outcome,plan⟩ | ⟨record,t,accepted,found,branch⟩
  · rw [plan]
    exact .same rfl rfl
  obtain ⟨answered,reads⟩ := remoteRecord_parts accepted
  rcases branch with ⟨-,plan⟩ | ⟨plain,hash,-,valid,⟨currentLocal,-,plan⟩ | ⟨-,plan⟩⟩
  · rw [plan]
    cases row : t.st with
    | none =>
      refine .same ?_ ?_
      · simp [perform,performRemove_db,row]
      · simp only [perform,performRemove,row]
        split <;> rfl
    | some st =>
      refine .unsynced {st with deleted := true,remoteVersion := t.version} (.inl rfl) ?_ ?_
      · simp [perform,performRemove_db,row,LocalDb.upsertFile]
      · simp only [perform,performRemove,row]
        split <;> rfl
  · rw [plan]
    exact .same rfl rfl
  · rw [plan]
    obtain ⟨text,enc,has,decoded,opens⟩ := remoteContent_parts valid
    have version := (remoteTarget_parts plat dev l record t found).2.2.2.1
    rw [← version] at reads
    have held := download_held backed asks answered has decoded opens reads
    have kept : SameCopies l (if (l.disk.read plat.win t.abs).isSome then
        backupReplaced plat.win {l with online := r.transportOk} t.abs io.backup else {l with online := r.transportOk}) := by
      split
      · exact ⟨rfl,rfl⟩
      · exact ⟨rfl,rfl⟩
    simp only [perform,performReplace]
    generalize (if (l.disk.read plat.win t.abs).isSome then
      backupReplaced plat.win {l with online := r.transportOk} t.abs io.backup else {l with online := r.transportOk}) =
        middle at kept ⊢
    split
    · exact .same kept.1 kept.2
    split
    · exact .same kept.1 kept.2
    · rename_i vector dumped
      rw [shadow]
      apply ShadowStep.of_same _ kept
      exact .stored (appliedRow plat fileId t plain vector) plain held rfl rfl

omit backed in
theorem settle_copies {fileId : Str} {f : LocalFileState} {text : Bytes} {version : Int} {vv : VersionVector}
    {shadow : WriteFate} (written : shadow = .replaced)
    (held : Held plat.prim dev.masterKey accountID history f.fileId version text)
    (yields : (settle plat l fileId f text version vv shadow).Yields conversation out) :
    ShadowStep plat.prim (Held plat.prim dev.masterKey accountID history) l out.2 := by
  obtain ⟨-,rfl⟩ := yields
  rw [written]
  exact .stored (resolvedRow plat f text version vv) text held rfl rfl

omit backed in
theorem RowEnd.copies {fileId : Str} {target : ConflictState} {text : Bytes} {version : Option Int}
    {vector : LocalFileState → Option VersionVector} {shadow : WriteFate}
    (ends : RowEnd plat l fileId target text version vector shadow out) (written : shadow = .replaced)
    (held : ∀ f, l.db.getFile target.relPath = some f → ∀ number, version = some number →
      Held plat.prim dev.masterKey accountID history f.fileId number text) :
    ShadowStep plat.prim (Held plat.prim dev.masterKey accountID history) l out.2 := by
  cases ends with
  | stopped outcome unsuccessful => exact .same rfl rfl
  | untracked missing => exact .same rfl rfl
  | settled f tracked number reads vv takes out yields => exact settle_copies written (held f tracked number reads) yields

omit backed in
theorem conflictText_parts {full : ApiResponse} {plain : Bytes} (taken : conflictText plat dev full = .ok plain) :
    ∃ text enc, full.body.valueStr (lit "encrypted_content") [] = some text ∧ Base64.base64UrlDecode text = some enc ∧
      Crypto.decrypt plat.prim dev.masterKey enc (lit "file") = .plain plain := by
  unfold conflictText at taken
  cases has : full.body.valueStr (lit "encrypted_content") [] with
  | none => simp [has,orThrow,bind,Except.bind] at taken
  | some text =>
    cases decoded : Base64.base64UrlDecode text with
    | none => simp [has,decoded,orThrow,orFail,bind,Except.bind] at taken
    | some enc =>
      refine ⟨text,enc,rfl,decoded,?_⟩
      simp only [has,decoded,orThrow,orFail,bind,Except.bind] at taken
      cases opens : Crypto.decrypt plat.prim dev.masterKey enc (lit "file") with
      | threw => simp [opens,opened] at taken
      | rejected => simp [opens,opened] at taken
      | plain text =>
        simp only [opens,opened] at taken
        rw [Except.ok.inj taken]

theorem keepLocal_copies {fileId : Str} {target : ConflictState} {abs : WStr} {io : ResolveIo} (shadow : io.shadow = .replaced)
    (named : ∀ st, l.db.getFile target.relPath = some st → st.fileId = fileId)
    (yields : (keepLocal plat dev l fileId target abs io).Yields conversation out) :
    ShadowStep plat.prim (Held plat.prim dev.masterKey accountID history) l out.2 := by
  cases keepLocal_ends yields with
  | missing outcome unsuccessful absent => exact .same rfl rfl
  | unsealed data copy unsealed => exact .same rfl rfl
  | sent data copy payload built r out ends =>
    refine (ends.copies shadow fun f tracked number reads => ?_).of_same ⟨rfl,rfl⟩
    obtain ⟨accepted,version⟩ := acceptedVersion_some reads
    rw [named f tracked]
    exact payload_held built (backed _ List.mem_cons_self) rfl rfl rfl (.inl accepted) version

omit backed in
theorem FetchedEnd.copies {disk : Disk} {fileId : Str} {target : ConflictState} {abs : WStr} {full : ApiResponse}
    {takesVector : Bool} {io : ResolveIo} (ends : FetchedEnd plat dev l disk fileId target abs full takesVector io out)
    (shadow : io.shadow = .replaced) (named : ∀ st, l.db.getFile target.relPath = some st → st.fileId = fileId)
    (backed : Backed plat.prim accountID history ⟨.getFile fileId,full⟩) :
    ShadowStep plat.prim (Held plat.prim dev.masterKey accountID history) l out.2 := by
  cases ends with
  | refused outcome unsuccessful reason => exact .same rfl rfl
  | installed plain answered taken out ends =>
    obtain ⟨text,enc,has,decoded,opens⟩ := conflictText_parts taken
    refine (ends.copies shadow fun f tracked number reads => ?_).of_same ⟨rfl,rfl⟩
    rw [named f tracked]
    exact download_held backed rfl answered has decoded opens reads

theorem resolveConflict_copies {fileId strategy : Str} {io : ResolveIo} (shadow : io.shadow = .replaced)
    (named : ∀ c, l.db.conflicts.get fileId = some c → ∀ st, l.db.getFile c.relPath = some st → st.fileId = fileId)
    (yields : (resolveConflict plat dev l fileId strategy io).Yields conversation out) :
    ShadowStep plat.prim (Held plat.prim dev.masterKey accountID history) l out.2 := by
  unfold resolveConflict at yields
  split at yields
  · obtain ⟨-,rfl⟩ := yields
    exact .same rfl rfl
  rename_i target recorded
  have named := named target recorded
  split at yields
  · obtain ⟨-,rfl⟩ := yields
    exact .same rfl rfl
  rename_i abs mapped
  split at yields
  · exact keepLocal_copies backed shadow named yields
  split at yields
  · obtain ⟨full,rest,rfl,after⟩ := yields
    exact (fetched_ends after).2.copies shadow named (backed _ List.mem_cons_self)
  split at yields
  · obtain ⟨full,rest,rfl,after⟩ := yields
    exact (fetched_ends after).2.copies shadow named (backed _ List.mem_cons_self)
  · obtain ⟨-,rfl⟩ := yields
    exact .same rfl rfl

end

/-! ### One operation -/

/-- The shadow copies of the operation are written. -/
def EngineOp.shadowed : EngineOp → Prop
  | .upload _ _ io => io.shadow = .replaced ∧ io.merge.shadow = .replaced
  | .apply _ io _ => io.shadow = .replaced
  | .resolve _ _ io => io.shadow = .replaced
  | _ => True

/-- The row that a resolution works on, at the path of its conflict. -/
def resolvedRows (l : Local) : EngineOp → Option (Str × LocalFileState)
  | .resolve fileId _ _ => (l.db.conflicts.get fileId).bind fun c => (l.db.getFile c.relPath).map fun st => (fileId,st)
  | _ => none

/-- A path belongs to one file id: the row has that of the conflict, or none. -/
def OneFile (l : Local) (op : EngineOp) : Prop := ∀ both ∈ resolvedRows l op, both.2.fileId = [] ∨ both.2.fileId = both.1

/-- The row that a resolution works on has a file id. -/
def Identified (l : Local) (op : EngineOp) : Prop := ∀ both ∈ resolvedRows l op, both.2.fileId ≠ []

section
variable {plat : Platform} {dev : Device} {accountID : Str} {history : List (ServerEntry Party)}
  {l after : Local} {conversation : List ApiEvent} {out : Outcome × Local}

theorem onFileOpened_copies (signedIn : Bool) (absPath : WStr) :
    ShadowStep plat.prim (Held plat.prim dev.masterKey accountID history) l
      {l with db := onFileOpened plat.win l.db signedIn absPath} := by
  unfold onFileOpened
  split
  · exact .same rfl rfl
  split
  · exact .same rfl rfl
  split
  · exact .same rfl rfl
  · exact .unsynced {LocalFileState.fresh with relPath := _,syncRoot := _} (.inr (le_refl 0)) rfl rfl

theorem EngineOp.copies (op : EngineOp) (backed : ∀ event ∈ conversation, Backed plat.prim accountID history event)
    (shadowed : op.shadowed) (one : OneFile l op) (identified : Identified l op)
    (yields : (op.exchange plat dev l).Yields conversation out) :
    ShadowStep plat.prim (Held plat.prim dev.masterKey accountID history) l out.2 := by
  cases op with
  | upload relPath absPath io => exact uploadFile_copies backed shadowed.1 shadowed.2 yields
  | delete relPath => exact deleteRemote_copies yields
  | apply fileId io now =>
    obtain ⟨r,rest,rfl,-,rfl⟩ := yields
    exact applyRemoteFile_copies backed List.mem_cons_self rfl shadowed
  | resolve fileId strategy io =>
    apply resolveConflict_copies backed shadowed _ yields
    intro c recorded st tracked
    have works : resolvedRows l (.resolve fileId strategy io) = some (fileId,st) := by simp [resolvedRows,recorded,tracked]
    exact (one _ works).resolve_left (identified _ works)
  | opened signedIn absPath =>
    obtain ⟨-,rfl⟩ := yields
    exact onFileOpened_copies signedIn absPath
  | edit disk =>
    obtain ⟨-,rfl⟩ := yields
    exact .same rfl rfl

end

theorem getFile_tracked {db : LocalDb} {relPath : Str} {st : LocalFileState} (tracked : db.getFile relPath = some st) :
    relPath ∈ db.files.keys := by
  obtain ⟨row,found,-⟩ := Option.map_eq_some_iff.mp tracked
  exact List.mem_map_of_mem ((Table.mem_rows_iff _ _ _).mpr found)

theorem getFile_upsert {db after : LocalDb} {row : LocalFileState}
    (files : after.files = db.files.upsert row.relPath (LocalDb.toRow row)) {relPath : Str} {st : LocalFileState}
    (tracked : after.getFile relPath = some st) :
    (relPath = row.relPath ∧ st = LocalDb.ofRow row.relPath (LocalDb.toRow row)) ∨
      (relPath ≠ row.relPath ∧ db.getFile relPath = some st) := by
  unfold LocalDb.getFile at tracked
  rw [files,Table.get_upsert] at tracked
  split at tracked
  · rename_i here
    subst here
    exact .inl ⟨rfl,(Option.some.inj tracked).symm⟩
  · rename_i other
    exact .inr ⟨other,tracked⟩

theorem ShadowsHeld.step {prim : Primitives} {held : Str → Int → Bytes → Prop} {l after : Local}
    (holds : ShadowsHeld prim held l) (distinct : DistinctShadows prim after) (step : ShadowStep prim held l after) :
    ShadowsHeld prim held after := by
  intro relPath st tracked live synced
  cases step with
  | same files shadows =>
    rw [shadows]
    exact holds relPath st (by rw [LocalDb.getFile,← files]; exact tracked) live synced
  | removed key files shadows =>
    rw [shadows]
    unfold LocalDb.getFile at tracked
    rw [files,Table.get_remove] at tracked
    split at tracked
    · contradiction
    · exact holds relPath st tracked live synced
  | unsynced row idle files shadows =>
    rw [shadows]
    rcases getFile_upsert files tracked with ⟨rfl,rfl⟩ | ⟨-,old⟩
    · rcases idle with gone | never
      · exact absurd live (by simp [LocalDb.ofRow,LocalDb.toRow,gone])
      · exact absurd synced (not_lt.mpr never)
    · exact holds relPath st old live synced
  | stored row text backed files shadows =>
    rw [shadows]
    rcases getFile_upsert files tracked with ⟨rfl,rfl⟩ | ⟨other,old⟩
    · exact ⟨text,Table.get_upsert_same _ _ _,backed⟩
    · have there : after.db.getFile row.relPath = some (LocalDb.ofRow row.relPath (LocalDb.toRow row)) := by
        rw [LocalDb.getFile,files,Table.get_upsert_same]
        rfl
      have present := getFile_tracked there
      have apart : Crypto.sha256Hex prim relPath ≠ Crypto.sha256Hex prim row.relPath :=
        fun same => other (distinct _ (getFile_tracked tracked) _ present same)
      rw [Table.get_upsert_other _ _ _ _ apart]
      exact holds relPath st old live synced


/-! ### Runs -/

/-- The device works on one operation at a time, among the requests of other devices. -/
structure Session where
  here : Local
  busy : Option Nat
  ledger : ClientLedger

inductive SessionEvent where
  | start (op : EngineOp) (dispatches : List Dispatch)
  | move (first : Move Party Bool)
  | finish

section
variable (plat : Platform) (dev : Device) (cfg : Config) (account : {accountID // PlainAccount accountID})

/-- The device as a party that carries out an operation. -/
def worker (l : Local) (op : EngineOp) (dispatches : List Dispatch) : Party :=
  ⟨.client dev account.1 (op.exchange plat dev l) dispatches,account.2⟩

def Session.step (s : Session) : SessionEvent → Session
  | .start op dispatches =>
    match s.busy with
    | some _ => s
    | none => ⟨s.here,some s.ledger.threads.length,
        Ledger.spawned (partyProgram plat cfg) s.ledger (worker plat dev account s.here op dispatches)⟩
  | .move first => {s with ledger := Ledger.move (partyProgram plat cfg) exec s.ledger first}
  | .finish =>
    match s.busy.bind (s.ledger.threads[·]?) with
    | some ⟨.done (.finished out),_⟩ => ⟨out.2,none,s.ledger⟩
    | _ => s

/-- No file is tracked yet. -/
def Session.initial (l : Local) : Session := ⟨{l with db := {l.db with files := .empty}},none,Ledger.initial State.empty⟩

/-- The text that the shadow copy of a tracked row holds is that of the row's version. -/
def Session.Based (s : Session) : Prop :=
  ShadowsHeld plat.prim (Held plat.prim dev.masterKey account.1 s.ledger.history) s.here

/-- The shadow copies are written and are different files, a path belongs to one
file id, and an accepting answer was given to a write that was applied. -/
def Session.Assumed (s : Session) : SessionEvent → Prop
  | .start op _ => op.shadowed ∧ OneFile s.here op
  | .move _ => True
  | .finish => (∀ index ∈ s.busy, ∀ call ∈ Ledger.callsOf s.ledger.history index, replayed call = false) ∧
      DistinctShadows plat.prim (s.step plat dev cfg account .finish).here

def Session.RowNamed (s : Session) : SessionEvent → Prop
  | .start op _ => Identified s.here op
  | _ => True

structure SessionInv (s : Session) : Prop where
  run : ∃ moves, s.ledger = clientRun plat cfg moves
  based : s.Based plat dev account
  working : ∀ index, s.busy = some index → ∃ op dispatches,
    s.ledger.requests[index]? = some (worker plat dev account s.here op dispatches) ∧ op.shadowed ∧ OneFile s.here op ∧
      Identified s.here op

theorem clientRun_writes (moves : List (Move Party Bool)) : WriteInv (clientRun plat cfg moves) := by
  apply (Ledger.ledger_invariant (fun (_ : Party) _ _ => True) (fun _ _ => True) WriteInv (fun _ => trivial)
    (fun _ _ _ _ _ _ => trivial) ?_ ?_ State.empty moves writeInv_initial (guarded_trivial _ _ _)).1
  · intro l party _ inv
    exact ⟨inv.heads,inv.reads,inv.copies,inv.single,inv.content⟩
  · intro l index fault party op next log inv _ _ _ _
    exact inv.called index fault party op next log

variable {plat dev cfg account}

theorem Session.Based.later {s : Session} (based : s.Based plat dev account) {ledger : ClientLedger}
    (more : List (ServerEntry Party)) (grows : ledger.history = s.ledger.history ++ more) :
    Session.Based plat dev account {s with ledger := ledger} := by
  intro relPath st tracked live synced
  obtain ⟨text,copy,f,written,version,plain⟩ := based relPath st tracked live synced
  refine ⟨text,copy,f,?_,version,plain⟩
  change WrittenIn ledger.history _ f
  rw [grows]
  exact written.later more

theorem SessionInv.finish {s : Session} (inv : SessionInv plat dev cfg account s)
    (assumed : s.Assumed plat dev cfg account .finish) : SessionInv plat dev cfg account (s.step plat dev cfg account .finish) := by
  obtain ⟨honest,distinct⟩ := assumed
  unfold Session.step at distinct ⊢
  dsimp only at distinct ⊢
  split
  case h_2 => exact inv
  rename_i out log ended
  obtain ⟨index,busy,thread⟩ := Option.bind_eq_some_iff.mp ended
  rw [ended] at distinct
  refine ⟨inv.run,?_,fun _ none_ => by contradiction⟩
  obtain ⟨moves,ran⟩ := inv.run
  obtain ⟨op,dispatches,asked,shadowed,one,identified⟩ := inv.working index busy
  have logged := clientRun_logged plat cfg moves
  have follows := Ledger.ledger_follows (partyProgram plat cfg) exec State.empty moves
  change Ledger.Served _ (clientRun plat cfg moves) at follows
  rw [← ran] at logged follows
  have serves : s.ledger.Serves index (worker plat dev account s.here op dispatches) (.done (.finished out)) log :=
    ⟨asked,thread⟩
  obtain ⟨first,second,result,shape,yields,empty,same⟩ := (follows index _ _ log serves).yields.of_bind
  cases same
  subst empty
  rw [List.append_nil] at shape
  subst shape
  obtain ⟨conversation,answered,carried⟩ := overServer_yields ⟨plat,dev,cfg,account.1⟩ yields
  rw [logged.logs index _ _ log serves] at carried
  have writes := clientRun_writes plat cfg moves
  have contents := clientRun_contents plat cfg moves
  rw [← ran] at writes contents
  have backed : ∀ event ∈ conversation, Backed plat.prim account.1 s.ledger.history event := by
    intro event member
    exact carried.backed writes contents (honest index busy) member
  exact inv.based.step distinct (op.copies backed shadowed one identified answered)

theorem SessionInv.step {s : Session} (inv : SessionInv plat dev cfg account s) (event : SessionEvent)
    (assumed : s.Assumed plat dev cfg account event) (named : s.RowNamed event) :
    SessionInv plat dev cfg account (s.step plat dev cfg account event) := by
  cases event with
  | start op dispatches =>
    unfold Session.step
    dsimp only
    split
    · exact inv
    obtain ⟨moves,ran⟩ := inv.run
    have logged := clientRun_logged plat cfg moves
    rw [← ran] at logged
    refine ⟨⟨moves ++ [.spawn (worker plat dev account s.here op dispatches)],?_⟩,inv.based,?_⟩
    · rw [clientRun,run_append,← clientRun,← ran]
      rfl
    · intro index same
      rw [← Option.some.inj same,← logged.sized]
      refine ⟨op,dispatches,?_,assumed.1,assumed.2,named⟩
      simp [Ledger.spawned]
  | move first =>
    obtain ⟨moves,ran⟩ := inv.run
    obtain ⟨requests,history,asks,grows⟩ := Ledger.move_grows (partyProgram plat cfg) exec s.ledger first
    refine ⟨⟨moves ++ [first],?_⟩,inv.based.later history grows,?_⟩
    · rw [clientRun,run_append,← clientRun,← ran]
      rfl
    · intro index busy
      obtain ⟨op,dispatches,asked,rest⟩ := inv.working index busy
      refine ⟨op,dispatches,?_,rest⟩
      have bound := (List.getElem?_eq_some_iff.mp asked).1
      simp only [Session.step,asks]
      rw [List.getElem?_append_left bound]
      exact asked
  | finish => exact inv.finish assumed

/-- In every run whose resolutions find rows with a file id, each shadow copy is
the text of the version that its row names. -/
theorem shadow_is_base (l : Local) (events : List SessionEvent)
    (guarded : Guarded (Session.step plat dev cfg account)
      (fun s event => s.Assumed plat dev cfg account event ∧ s.RowNamed event) (Session.initial l) events) :
    (run (Session.step plat dev cfg account) (Session.initial l) events).Based plat dev account := by
  have initial : SessionInv plat dev cfg account (Session.initial l) := by
    refine ⟨⟨[],rfl⟩,?_,fun index busy => by contradiction⟩
    intro relPath st tracked
    simp [Session.initial,LocalDb.getFile] at tracked
  exact (run_invariant _ _ (SessionInv plat dev cfg account)
    (fun s event inv meets => inv.step event meets.1 meets.2) _ events initial guarded).based

end

/-! ### A conflict resolved after its row was removed -/

section
variable (plat : Platform) (dev : Device) (cfg : Config) (account : {accountID // PlainAccount accountID})

instance (op : EngineOp) : Decidable op.shadowed := by
  cases op <;> unfold EngineOp.shadowed <;> infer_instance

instance (l : Local) (op : EngineOp) : Decidable (OneFile l op) :=
  inferInstanceAs (Decidable (∀ both ∈ resolvedRows l op,_))

instance (l : Local) (op : EngineOp) : Decidable (Identified l op) :=
  inferInstanceAs (Decidable (∀ both ∈ resolvedRows l op,_))

instance (prim : Primitives) (l : Local) : Decidable (DistinctShadows prim l) :=
  inferInstanceAs (Decidable (∀ a ∈ l.db.files.keys,_))

instance (s : Session) : (event : SessionEvent) → Decidable (s.Assumed plat dev cfg account event)
  | .start _ _ => inferInstanceAs (Decidable (_ ∧ _))
  | .move _ => .isTrue trivial
  | .finish => inferInstanceAs (Decidable ((∀ index ∈ s.busy,_) ∧ _))

instance (s : Session) : (event : SessionEvent) → Decidable (s.RowNamed event)
  | .start op _ => inferInstanceAs (Decidable (Identified s.here op))
  | .move _ => .isTrue trivial
  | .finish => .isTrue trivial

end

section
open KnownAnswers

private def notesPlatform : Platform :=
  ⟨primitives (digestOf (lit "home:notes.txt") "84c699b5778abceb8c1252f916af279f6fb4277cd4bcc5eb1f25e380f177362d"::digests)
    seals seals_consistent,ascii,parse⟩

private theorem notesPlatform_numerals : notesPlatform =
    ⟨primitives (digestIn (lit "home:notes.txt") 0x84c699b5778abceb8c1252f916af279f6fb4277cd4bcc5eb1f25e380f177362d::
      numeralDigests) numeralSeals numeralSeals_consistent,ascii,parse⟩ := by
  have answer : unhex "84c699b5778abceb8c1252f916af279f6fb4277cd4bcc5eb1f25e380f177362d" =
      numeral 32 0x84c699b5778abceb8c1252f916af279f6fb4277cd4bcc5eb1f25e380f177362d := unhex_numeral _ (by decide)
  unfold notesPlatform
  simp only [digests_numerals,seals_numerals,digestOf_eq rfl answer]

private def generous : Config := ⟨1000000,1000000,10⟩

private def alice : {accountID // PlainAccount accountID} := ⟨lit "alice",by decide⟩

private def phoneContext : Context := ⟨lit "alice",lit "phone",[],1⟩

private def phoneVersion (content hash : String) (baseVersion : Int) : FileJSON :=
  ⟨notesId,notesMetadata,lit content,lit hash,0,baseVersion,.empty,false,38,0,[],0,[]⟩

private def phonePosts : Party := ⟨.request (.post phoneContext (phoneVersion
  "TlBTMQEBAQEBAQEBAQEBAQHsCGPi8fMIAuEiQ1ryYmJjH6aJWQc"
  "7f6cbf117c8f9ae9a755ae37b34adcee94b9600958b62dd3a315f1ba17b81269" 0)),alice.2⟩

private def phonePuts (baseVersion : Int) : Party := ⟨.request (.put phoneContext notesId (phoneVersion
  "TlBTMQEEBAQEBAQEBAQEBAQe6VUjOyFMhtLM5mfOc0eRDOKi5EY"
  "72f2be278f2b2ea92282288d2cf86bbf46015145827374274831ecd179239a01" baseVersion)),alice.2⟩

/-- Steps of one thread of the server. -/
private def threadSteps (index count : Nat) : List SessionEvent := List.replicate count (.move (.step index false))

/-- One operation of the device, with the calls of its request. -/
private def operation (op : EngineOp) (index calls : Nat) : List SessionEvent :=
  .start op [⟨.answered,1⟩]::threadSteps index calls ++ [.finish]

/-- The phone creates the file and the laptop downloads it. -/
private def downloaded : List SessionEvent :=
  .move (.spawn phonePosts)::threadSteps 0 2 ++ operation (.apply notesId workingIo 1) 1 2

/-- An unsynchronised edit meets version 2. The file is deleted, opened again
without a row of its own, and written again by the phone before the conflict is resolved. -/
private def orphaned : List SessionEvent :=
  downloaded ++ .move (.spawn (phonePuts 1))::threadSteps 2 2 ++
    operation (.edit ⟨Table.empty.upsert (wlit "c:\\notes\\notes.txt") (lit "world"),[]⟩) 3 0 ++
    operation (.apply notesId workingIo 2) 4 2 ++ operation (.delete (lit "home:notes.txt")) 5 3 ++
    operation (.opened true (wlit "C:\\notes\\notes.txt")) 6 0 ++ .move (.spawn (phonePuts 3))::threadSteps 7 2 ++
    operation (.resolve notesId (lit "keepRemote")
      ⟨true,true,lit "2024-01-01",⟨0,true⟩,.replaced,.replaced,⟨nonceOf 1,nonceOf 2,uuidOf 0⟩⟩) 8 2

private def unsynced : Local := ⟨rooted,⟨.empty,[]⟩,.empty,[],true⟩

theorem downloaded_based :
    Guarded (Session.step notesPlatform laptop generous alice)
        (fun s event => s.Assumed notesPlatform laptop generous alice event ∧ s.RowNamed event)
        (Session.initial unsynced) downloaded ∧
      (run (Session.step notesPlatform laptop generous alice) (Session.initial unsynced) downloaded).Based
        notesPlatform laptop alice := by
  have guarded : Guarded (Session.step notesPlatform laptop generous alice)
      (fun s event => s.Assumed notesPlatform laptop generous alice event ∧ s.RowNamed event)
      (Session.initial unsynced) downloaded := by
    simp only [notesPlatform_numerals,downloaded,phonePosts,phoneVersion,notesMetadata_numerals,
      show lit "TlBTMQEBAQEBAQEBAQEBAQHsCGPi8fMIAuEiQ1ryYmJjH6aJWQc" = _ from lit_text _,
      show lit "7f6cbf117c8f9ae9a755ae37b34adcee94b9600958b62dd3a315f1ba17b81269" = _ from lit_text _]
    decide +kernel
  exact ⟨guarded,shadow_is_base unsynced downloaded guarded⟩

/-- The resolution stores version 4 in a row that has no file id. -/
theorem resolved_row_unbased :
    Guarded (Session.step notesPlatform laptop generous alice)
        (fun s event => s.Assumed notesPlatform laptop generous alice event) (Session.initial unsynced) orphaned ∧
      ¬(run (Session.step notesPlatform laptop generous alice) (Session.initial unsynced) orphaned).Based
        notesPlatform laptop alice := by
  have facts : Guarded (Session.step notesPlatform laptop generous alice)
        (fun s event => s.Assumed notesPlatform laptop generous alice event) (Session.initial unsynced) orphaned ∧
      ((run (Session.step notesPlatform laptop generous alice) (Session.initial unsynced) orphaned).here.db.getFile
        (lit "home:notes.txt")).map (fun st => (st.fileId,st.deleted,st.remoteVersion)) = some ([],false,4) ∧
      (run (Session.step notesPlatform laptop generous alice) (Session.initial unsynced) orphaned).ledger.history.all
        (fun entry => (wrote entry.event).map Prod.fst ≠ some (Mem.fileKey alice.1 [])) = true := by
    simp only [notesPlatform_numerals,orphaned,downloaded,phonePosts,phonePuts,phoneVersion,notesMetadata_numerals,
      show lit "TlBTMQEBAQEBAQEBAQEBAQHsCGPi8fMIAuEiQ1ryYmJjH6aJWQc" = _ from lit_text _,
      show lit "7f6cbf117c8f9ae9a755ae37b34adcee94b9600958b62dd3a315f1ba17b81269" = _ from lit_text _,
      show lit "TlBTMQEEBAQEBAQEBAQEBAQe6VUjOyFMhtLM5mfOc0eRDOKi5EY" = _ from lit_text _,
      show lit "72f2be278f2b2ea92282288d2cf86bbf46015145827374274831ecd179239a01" = _ from lit_text _]
    decide
  obtain ⟨guarded,row,unnamedWrites⟩ := facts
  refine ⟨guarded,fun based => ?_⟩
  obtain ⟨st,tracked,same⟩ := Option.map_eq_some_iff.mp row
  simp only [Prod.mk.injEq] at same
  obtain ⟨unnamed,live,version⟩ := same
  obtain ⟨text,-,f,⟨entry,member,written⟩,-⟩ := based _ st tracked live (by rw [version]; decide)
  have other := List.all_eq_true.mp unnamedWrites entry member
  simp [written,unnamed] at other

end
end NPSync.Engine
