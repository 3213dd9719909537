import NPSync.Engine.Identity
import NPSync.Library.Run
import NPSync.Server.VersionChain

/-! `SyncEngine::pullChanges` against the change feed of the server. A run mixes
writes of any device, pulls, and whatever else the engine does between them. -/
namespace NPSync.Engine
open Library Server

/-- The elements that a range-for over the value visits. -/
def elements : Json → List Json
  | .null => []
  | .arr items => items
  | .obj fields => fields.map Prod.snd
  | scalar => [scalar]

/-- What one `applyRemoteFile` of the loop meets. -/
structure Fetch where
  response : ApiResponse
  io : ApplyIo
  now : Int

/-- One call of `applyRemoteFile`: what it was asked for and met, and the device around it. -/
structure Visit where
  before : Local
  fileId : Str
  response : ApiResponse
  after : Local

/-- The state after a pull, its calls of `applyRemoteFile`, and whether it ended
without an exception. -/
structure Pulled where
  after : Local
  visits : List Visit
  finished : Bool

section
variable (plat : Platform) (dev : Device)

def applyFetched (l : Local) (fileId : Str) (fetch : Fetch) : Outcome × Local :=
  applyRemoteFile plat dev l fileId fetch.response fetch.io fetch.now

/-- The loop over the changes; the `i`-th call meets `fetch i`. -/
def applyChanges (fetch : Nat → Fetch) (l : Local) (i : Nat) : List Json → Pulled
  | [] => ⟨l,[],true⟩
  | ch::rest =>
    match ch.valueStr (lit "origin_device_id") [] with
    | none => ⟨l,[],false⟩
    | some origin =>
      if origin = dev.deviceId then applyChanges fetch l i rest
      else match ch.valueStr (lit "file_id") [] with
        | none => ⟨l,[],false⟩
        | some fileId =>
          let out := applyFetched plat dev l fileId (fetch i)
          let visit := ⟨l,fileId,(fetch i).response,out.2⟩
          if out.1 = .threw then ⟨out.2,[visit],false⟩
          else
            let rest := applyChanges fetch out.2 (i + 1) rest
            ⟨rest.after,visit::rest.visits,rest.finished⟩

def pullChanges (l : Local) (hasTokens : Bool) (r : ApiResponse) (fetch : Nat → Fetch) : Pulled :=
  if !hasTokens || !hasMasterKey dev then ⟨l,[],true⟩
  else
    let l := {l with online := r.transportOk}
    if !r.transportOk then ⟨l,[],true⟩
    else if r.status ≠ 200 then ⟨l,[],true⟩
    else match r.body.valueInt (lit "latest_seq") 0,r.body.value (lit "changes") (.arr []) with
      | some latest,some changes =>
        let out := applyChanges plat dev fetch l 0 (elements changes)
        -- the outcomes of the calls are not looked at
        if out.finished && 0 < latest then
          {out with after := {out.after with db := out.after.db.setLastChangeSeq latest}}
        else out
      | _,_ => ⟨l,[],false⟩

end

/-! ### When a change is settled -/

section
variable (plat : Platform) (dev : Device)

/-- The device has the file of the change at its version or a later one; where the row
is marked deleted its file is gone. -/
def Current (l : Local) (c : Change) : Prop :=
  ∃ key row, l.db.files.get key = some row ∧ row.fileId = c.fileID ∧ (c.version : Int) ≤ row.remoteVersion ∧
    (row.deleted = true → ∀ abs, absPathForRel plat.win l.db key = some abs → l.disk.read plat.win abs = none)

/-- A conflict of the file is recorded for the version or a later one. -/
def Conflicting (l : Local) (c : Change) : Prop :=
  ∃ conflict, l.db.conflicts.get c.fileID = some conflict ∧ (c.version : Int) ≤ conflict.remoteVersion

/-- The row has the version, for the file of the change. -/
def RowOf (c : Change) (deleted : Bool) (row : FileRow) : Prop :=
  row.fileId = c.fileID ∧ (c.version : Int) ≤ row.remoteVersion ∧ row.deleted = deleted

/-- The fetched record is on this device: the file of a tombstone is gone and no row
keeps it alive, the content of a live record is in its file and in its row. -/
def OnDevice (v : Visit) (c : Change) (record : RemoteRecord) : Prop :=
  ∃ key abs, Named plat.win v.before.db record.norm key ∧ absPathForRel plat.win v.before.db key = some abs ∧
    if record.deleted then v.after.disk.read plat.win abs = none ∧
      ∀ row, v.after.db.files.get key = some row → RowOf c true row
    else ∃ content row, remoteContent plat dev v.response = .ok content ∧
      v.after.disk.read plat.win abs = some content.1 ∧ v.after.db.files.get key = some row ∧ RowOf c false row ∧
      row.localHash = Crypto.sha256Hex plat.prim content.1

/-- The call for the file of the change found it current, left a conflict, or fetched a
record of its version or a later one that is ignored by rule or now on the device. -/
def SettledAt (v : Visit) (c : Change) : Prop :=
  v.fileId = c.fileID ∧ (Current plat v.before c ∨ Conflicting v.after c ∨
    ∃ record, remoteRecord plat dev v.response = .ok record ∧ (c.version : Int) ≤ record.version ∧
      (ignored dev record.norm false = true ∨ OnDevice plat dev v c record))

/-- What a newer record needs. A tombstone: the file is deleted or was not there, and
the row is one of the file. Content: it stands against unsynchronised edits or is written. -/
def Storable (l : Local) (fetch : Fetch) (c : Change) (record : RemoteRecord) (key : Str) (abs : WStr) : Prop :=
  if record.deleted then (fetch.io.deletes = true ∨ l.disk.read plat.win abs = none) ∧
    ∀ row, l.db.files.get key = some row → row.fileId = c.fileID
  else (∃ content, remoteContent plat dev fetch.response = .ok content) ∧
    (EditedAt plat l fetch.io key abs ∨ fetch.io.write = .replaced ∧
      (fetch.response.body.value (lit "version_vector") (.obj [])).bind Json.dump ≠ none)

/-- The condition on the device before the call and on what the call meets. -/
def Settles (l : Local) (fetch : Fetch) (c : Change) : Prop :=
  Current plat l c ∨ ∃ record, remoteRecord plat dev fetch.response = .ok record ∧ (c.version : Int) ≤ record.version ∧
    (ignored dev record.norm false = true ∨ ∃ key abs, Located plat dev l fetch.response record key abs ∧
      Newer l record key ∧ Storable plat dev l fetch c record key abs)

/-- The answer cannot be read as a record, as its content or as its vector. -/
def Throws (l : Local) (fetch : Fetch) : Prop :=
  remoteRecord plat dev fetch.response = .error .threw ∨
    ∃ record key abs, Located plat dev l fetch.response record key abs ∧ Newer l record key ∧ record.deleted = false ∧
      (remoteContent plat dev fetch.response = .error .threw ∨
        (∃ content, remoteContent plat dev fetch.response = .ok content) ∧ ¬EditedAt plat l fetch.io key abs ∧
          fetch.io.write = .replaced ∧
          (fetch.response.body.value (lit "version_vector") (.obj [])).bind Json.dump = none)

variable {plat dev} {l : Local} {fetch : Fetch}

theorem Throws.ends (throws : Throws plat dev l fetch) (fileId : Str) :
    (applyFetched plat dev l fileId fetch).1 = .threw := by
  obtain ⟨r,io,now⟩ := fetch
  simp only [applyFetched,applyRemoteFile,planRemote_online]
  rcases throws with unread | ⟨record,key,abs,located,newer,live,reads⟩
  · have unread : remoteRecord plat dev r = .error .threw := unread
    simp [planRemote,unread,perform]
  have accepted := located.accepted newer
  rcases reads with unread | ⟨⟨content,valid⟩,clean,written,undumped⟩
  · have unread : remoteContent plat dev r = .error .threw := unread
    simp [planRemote,accepted.1,accepted.2,live,unread,perform]
  · have unseen := (unedited_targetAt record key abs).mpr clean
    have valid : remoteContent plat dev r = .ok content := valid
    have plan : planRemote plat dev l r io.opens = .replace (targetAt l record key abs) content.1 := by
      simp [planRemote,accepted.1,accepted.2,live,valid,unseen]
    rw [plan]
    rcases performReplace_cases plat {l with online := r.transportOk} fileId r (targetAt l record key abs) content.1 io with
      ⟨-,⟨unwritten,-⟩ | ⟨-,-,threw⟩⟩ | ⟨vector,-,dumped,-⟩
    · exact absurd written unwritten
    · exact threw
    · exact absurd (dumped.symm.trans undumped) (Option.some_ne_none vector)

/-- A tombstone of the file is carried out. -/
theorem onDevice_removed {c : Change} {record : RemoteRecord} {key : Str} {abs : WStr}
    (located : Located plat dev l fetch.response record key abs) (newer : Newer l record key) (dead : record.deleted = true)
    (reaches : (c.version : Int) ≤ record.version)
    (gone : fetch.io.deletes = true ∨ l.disk.read plat.win abs = none)
    (own : ∀ row, l.db.files.get key = some row → row.fileId = c.fileID) :
    OnDevice plat dev ⟨l,c.fileID,fetch.response,(applyFetched plat dev l c.fileID fetch).2⟩ c record := by
  obtain ⟨r,io,now⟩ := fetch
  have accepted := located.accepted newer
  have plan : planRemote plat dev l r io.opens = .remove (targetAt l record key abs) := by
    simp [planRemote,accepted.1,accepted.2,dead]
  refine ⟨key,abs,located.named,located.mapped,?_⟩
  rw [if_pos dead]
  simp only [applyFetched,applyRemoteFile,planRemote_online,plan,perform,performRemove_disk,performRemove_db]
  constructor
  · have absent : (l.disk.delete plat.win abs).read plat.win abs = none := Table.get_remove_same _ _
    by_cases deletes : io.deletes = true
    · rw [if_pos deletes]
      exact absent
    · rw [if_neg deletes]
      exact gone.resolve_left deletes
  · intro row stored
    have row_ : (targetAt l record key abs).st = (l.db.files.get key).map (LocalDb.ofRow key) := rfl
    rw [row_] at stored
    cases tracked : l.db.files.get key with
    | none =>
      rw [tracked] at stored
      rw [Option.map_none] at stored
      exact absurd (stored.symm.trans tracked) (Option.some_ne_none row)
    | some old =>
      rw [tracked] at stored
      have written : _ = row := Option.some.inj ((Table.get_upsert_same _ _ _).symm.trans stored)
      rw [← written]
      exact ⟨own old tracked,reaches,rfl⟩

/-- The content of the file is written. -/
theorem onDevice_replaced {c : Change} {record : RemoteRecord} {key : Str} {abs : WStr} {content : Bytes × Str}
    (located : Located plat dev l fetch.response record key abs) (newer : Newer l record key) (live : record.deleted = false)
    (reaches : (c.version : Int) ≤ record.version) (valid : remoteContent plat dev fetch.response = .ok content)
    (clean : ¬EditedAt plat l fetch.io key abs) (written : fetch.io.write = .replaced)
    (dumps : (fetch.response.body.value (lit "version_vector") (.obj [])).bind Json.dump ≠ none) :
    OnDevice plat dev ⟨l,c.fileID,fetch.response,(applyFetched plat dev l c.fileID fetch).2⟩ c record := by
  obtain ⟨r,io,now⟩ := fetch
  have accepted := located.accepted newer
  have unseen := (unedited_targetAt record key abs).mpr clean
  have valid : remoteContent plat dev r = .ok content := valid
  have plan : planRemote plat dev l r io.opens = .replace (targetAt l record key abs) content.1 := by
    simp [planRemote,accepted.1,accepted.2,live,valid,unseen]
  refine ⟨key,abs,located.named,located.mapped,?_⟩
  rw [if_neg (by simp [live])]
  simp only [applyFetched,applyRemoteFile,planRemote_online,plan,perform,performReplace_disk]
  rcases performReplace_cases plat {l with online := r.transportOk} c.fileID r (targetAt l record key abs) content.1 io with
    ⟨-,⟨unwritten,-⟩ | ⟨-,undumped,-⟩⟩ | ⟨vector,-,-,-,row⟩
  · exact absurd written unwritten
  · exact absurd undumped dumps
  · rw [row]
    refine ⟨content,_,valid,?_,Table.get_upsert_same _ _ _,⟨rfl,reaches,rfl⟩,rfl⟩
    exact (read_writeFileAtomic plat.win l.disk abs content.1 io.write).trans (if_pos written)

/-- Unsynchronised edits under new content leave a conflict of the file. -/
theorem conflicting_edited {c : Change} {record : RemoteRecord} {key : Str} {abs : WStr} {content : Bytes × Str}
    (located : Located plat dev l fetch.response record key abs) (newer : Newer l record key) (live : record.deleted = false)
    (reaches : (c.version : Int) ≤ record.version) (valid : remoteContent plat dev fetch.response = .ok content)
    (edits : EditedAt plat l fetch.io key abs) : Conflicting (applyFetched plat dev l c.fileID fetch).2 c := by
  obtain ⟨r,io,now⟩ := fetch
  have accepted := located.accepted newer
  obtain ⟨bytes,seen⟩ := (edited_targetAt record key abs).mpr edits
  have valid : remoteContent plat dev r = .ok content := valid
  have plan : planRemote plat dev l r io.opens = .conflict (targetAt l record key abs) bytes content.2 := by
    simp [planRemote,accepted.1,accepted.2,live,valid,seen]
  simp only [Conflicting,applyFetched,applyRemoteFile,planRemote_online,plan,perform,performConflict]
  exact ⟨_,Table.get_upsert_same _ _ _,reaches⟩

/-- A change that the call can settle is settled by it. -/
theorem Settles.settled {c : Change} (settles : Settles plat dev l fetch c) :
    SettledAt plat dev ⟨l,c.fileID,fetch.response,(applyFetched plat dev l c.fileID fetch).2⟩ c := by
  refine ⟨rfl,?_⟩
  rcases settles with current | ⟨record,fetched,reaches,skipped | ⟨key,abs,located,newer,storable⟩⟩
  · exact .inl current
  · exact .inr (.inr ⟨record,fetched,reaches,.inl skipped⟩)
  unfold Storable at storable
  split at storable
  · rename_i dead
    exact .inr (.inr ⟨record,fetched,reaches,.inr (onDevice_removed located newer dead reaches storable.1 storable.2)⟩)
  · rename_i alive
    have live : record.deleted = false := by simpa using alive
    obtain ⟨⟨content,valid⟩,stands⟩ := storable
    by_cases edits : EditedAt plat l fetch.io key abs
    · exact .inr (.inl (conflicting_edited located newer live reaches valid edits))
    · obtain ⟨written,dumps⟩ := stands.resolve_left edits
      exact .inr (.inr ⟨record,fetched,reaches,
        .inr (onDevice_replaced located newer live reaches valid edits written dumps)⟩)

end

/-! ### Runs -/

def kindText : ChangeKind → Str
  | .upsert => lit "upsert"
  | .delete => lit "delete"

def changeJson (c : Change) : Json := .obj [
  (lit "change_seq",.num c.changeSeq),(lit "file_id",.str c.fileID),(lit "version",.num c.version),
  (lit "kind",.str (kindText c.kind)),(lit "origin_device_id",.str c.originDeviceID)]

/-- How the answer to `changesSince` reaches the client. -/
inductive Delivery where
  | answered
  | garbled
  | refused (status : Int) (body : Json) (unsuccessful : status ≠ 200)
  | lost

/-- The server, the device, and every call of `applyRemoteFile` that its pulls made. -/
structure World where
  mem : Mem FileJSON
  here : Local
  visits : List Visit

inductive Event where
  | create (rec : FileRecord)
  | update (rec : FileRecord) (baseVersion : Int)
  | pull (hasTokens : Bool) (delivery : Delivery) (fetch : Nat → Fetch)
  | work (next : Local)

section
variable (plat : Platform) (dev : Device) (accountID : Str)

def page (mem : Mem FileJSON) (since : Int) : List Change := mem.listChangesSince accountID since.toNat 1000

def changesResponse (mem : Mem FileJSON) (since : Int) : Delivery → ApiResponse
  | .answered =>
    if since < 0 then ⟨true,400,.obj [(lit "error",.str (lit "invalid_request")),
      (lit "message",.str (lit "invalid since parameter"))]⟩
    else ⟨true,200,.obj [(lit "changes",.arr ((page accountID mem since).map changeJson)),
      (lit "latest_seq",.num (latestSeq since.toNat (page accountID mem since)))]⟩
  | .garbled => ⟨true,200,.null⟩
  | .refused status body _ => ⟨true,status,body⟩
  | .lost => ⟨false,0,.null⟩

def foreign (c : Change) : Prop := c.originDeviceID ≠ dev.deviceId

def World.step (w : World) : Event → World
  | .create rec => {w with mem := (w.mem.createFile rec).2}
  | .update rec baseVersion => {w with mem := (w.mem.updateFile rec baseVersion).2}
  | .pull hasTokens delivery fetch =>
    let r := changesResponse accountID w.mem w.here.db.lastChangeSeq delivery
    let out := pullChanges plat dev w.here hasTokens r fetch
    {w with here := out.after,visits := w.visits ++ out.visits}
  | .work next => {w with here := {next with db := next.db.setLastChangeSeq w.here.db.lastChangeSeq}}

def World.initial (l : Local) : World := ⟨.newMem,{l with db := l.db.setLastChangeSeq 0},[]⟩

/-- Every change of another device up to the cursor was settled by some call. -/
def CursorSafe (w : World) : Prop :=
  ∀ c ∈ w.mem.changes, c.accountID = accountID → foreign dev c →
    (c.changeSeq : Int) ≤ w.here.db.lastChangeSeq → ∃ v ∈ w.visits, SettledAt plat dev v c

/-- The loop meets an answer that throws, or comes to a call for the file that can
settle the change. -/
def Covered (fetch : Nat → Fetch) (c : Change) (l : Local) (i : Nat) : List Change → Prop
  | [] => False
  | d::rest =>
    if d.originDeviceID = dev.deviceId then Covered fetch c l i rest
    else Throws plat dev l (fetch i) ∨ (d.fileID = c.fileID ∧ Settles plat dev l (fetch i) c) ∨
      Covered fetch c (applyFetched plat dev l d.fileID (fetch i)).2 (i + 1) rest

/-- The condition on an answered pull: each change of another device on the page
was settled before or is covered. -/
def PullGuard (w : World) : Event → Prop
  | .pull hasTokens .answered fetch => hasTokens = true → hasMasterKey dev = true →
    ∀ c ∈ page accountID w.mem w.here.db.lastChangeSeq, foreign dev c → (∃ v ∈ w.visits, SettledAt plat dev v c) ∨
      Covered plat dev fetch c {w.here with online := true} 0 (page accountID w.mem w.here.db.lastChangeSeq)
  | _ => True

/-! ### The pull -/

@[simp] theorem changeJson_origin (c : Change) :
    (changeJson c).valueStr (lit "origin_device_id") [] = some c.originDeviceID := by
  simp [changeJson,Json.valueStr,Json.value,Json.field,lit]

@[simp] theorem changeJson_fileId (c : Change) :
    (changeJson c).valueStr (lit "file_id") [] = some c.fileID := by
  simp [changeJson,Json.valueStr,Json.value,Json.field,lit]

theorem applyChanges_cursor (fetch : Nat → Fetch) (l : Local) (i : Nat) (items : List Json) :
    (applyChanges plat dev fetch l i items).after.db.lastChangeSeq = l.db.lastChangeSeq := by
  induction items generalizing l i with
  | nil => rfl
  | cons ch rest ih =>
    unfold applyChanges
    split
    · rfl
    split
    · exact ih l i
    split
    · rfl
    rename_i fileId _
    have kept : (applyFetched plat dev l fileId (fetch i)).2.db.lastChangeSeq = l.db.lastChangeSeq :=
      (applyRemoteFile_frame plat dev l fileId _ _ _).lastChangeSeq
    dsimp only
    split
    · exact kept
    · exact (ih _ _).trans kept

/-- A loop that came to its end settled every covered change. -/
theorem covered_settled (fetch : Nat → Fetch) (c : Change) (l : Local) (i : Nat) (changes : List Change)
    (covered : Covered plat dev fetch c l i changes)
    (finished : (applyChanges plat dev fetch l i (changes.map changeJson)).finished = true) :
    ∃ v ∈ (applyChanges plat dev fetch l i (changes.map changeJson)).visits, SettledAt plat dev v c := by
  induction changes generalizing l i with
  | nil => contradiction
  | cons d rest ih =>
    simp only [Covered] at covered
    simp only [List.map_cons,applyChanges,changeJson_origin,changeJson_fileId] at finished ⊢
    by_cases own : d.originDeviceID = dev.deviceId
    · simp only [own,if_true] at covered finished ⊢
      exact ih l i covered finished
    simp only [own,if_false] at covered finished ⊢
    by_cases threw : (applyFetched plat dev l d.fileID (fetch i)).1 = .threw
    · simp [threw] at finished
    simp only [threw,if_false] at finished ⊢
    rcases covered with throws | ⟨same,settles⟩ | later
    · exact absurd (throws.ends d.fileID) threw
    · rw [same]
      exact ⟨_,List.mem_cons_self,settles.settled⟩
    · obtain ⟨v,member,settled⟩ := ih _ _ later finished
      exact ⟨v,List.mem_cons_of_mem _ member,settled⟩

/-- A pull leaves the cursor, or it read a page, came to its end without an
exception and moved the cursor to `latest_seq`. -/
theorem pullChanges_cases (l : Local) (hasTokens : Bool) (r : ApiResponse) (fetch : Nat → Fetch) :
    (pullChanges plat dev l hasTokens r fetch).after.db.lastChangeSeq = l.db.lastChangeSeq ∨
    ∃ latest changes, hasTokens = true ∧ hasMasterKey dev = true ∧ r.transportOk = true ∧ r.status = 200 ∧
      r.body.valueInt (lit "latest_seq") 0 = some latest ∧ r.body.value (lit "changes") (.arr []) = some changes ∧
      (applyChanges plat dev fetch {l with online := true} 0 (elements changes)).finished = true ∧
      (pullChanges plat dev l hasTokens r fetch).visits =
        (applyChanges plat dev fetch {l with online := true} 0 (elements changes)).visits ∧
      (pullChanges plat dev l hasTokens r fetch).after.db.lastChangeSeq = latest := by
  unfold pullChanges
  split
  · exact .inl rfl
  rename_i ready
  have signed : hasTokens = true ∧ hasMasterKey dev = true := by simpa using ready
  dsimp only
  split
  · exact .inl rfl
  rename_i reached
  have transport : r.transportOk = true := by simpa using reached
  split
  · exact .inl rfl
  rename_i status
  split
  · rename_i latest changes hasLatest hasChanges
    have kept := applyChanges_cursor plat dev fetch {l with online := true} 0 (elements changes)
    simp only [transport]
    split
    · rename_i moved
      have finished := (Bool.and_eq_true_iff.mp moved).1
      exact .inr ⟨latest,changes,signed.1,signed.2,trivial,not_not.mp status,hasLatest,hasChanges,finished,rfl,rfl⟩
    · exact .inl kept
  · exact .inl rfl

/-- The page holds every change up to its last number. -/
theorem mem_page (mem : Mem FileJSON) (since : Int) (c : Change)
    (increasing : (mem.changes.map (·.changeSeq)).Pairwise (· < ·)) (member : c ∈ mem.changes)
    (account : c.accountID = accountID) (after : since.toNat < c.changeSeq)
    (upTo : c.changeSeq ≤ latestSeq since.toNat (page accountID mem since)) : c ∈ page accountID mem since := by
  unfold page Mem.listChangesSince at upTo ⊢
  rw [if_pos (by omega)] at upTo ⊢
  generalize listed : mem.changes.filter (fun c => decide (c.accountID = accountID ∧ since.toNat < c.changeSeq)) =
    out at upTo ⊢
  have ordered : out.Pairwise (fun a b => a.changeSeq < b.changeSeq) :=
    listed ▸ (List.pairwise_map.mp increasing).filter _
  have inside : c ∈ out := listed ▸ List.mem_filter.mpr ⟨member,by simp [account,after]⟩
  rw [← List.take_append_drop 1000 out] at inside ordered
  rcases List.mem_append.mp inside with first | later
  · exact first
  -- the last number is that of a row of the page, and a later row has a larger one
  rcases latestSeq_cases since.toNat (out.take 1000) with same | ⟨d,shown,same⟩
  · omega
  · have smaller := (List.pairwise_append.mp ordered).2.2 d shown c later
    omega

/-- What holds along a run: the feed is increasing, the cursor is behind its end, and it is safe. -/
structure Following (w : World) : Prop where
  increasing : (w.mem.changes.map (·.changeSeq)).Pairwise (· < ·)
  below : ∀ c ∈ w.mem.changes, c.changeSeq < w.mem.nextSeq
  started : 0 ≤ w.here.db.lastChangeSeq
  behind : w.here.db.lastChangeSeq < w.mem.nextSeq
  safe : CursorSafe plat dev accountID w

/-- A write adds a change above the cursor. -/
theorem Following.commit {w : World} (following : Following plat dev accountID w) (key : Str) (cp : FileRecord)
    (numbered : cp.changeSeq = w.mem.nextSeq) :
    Following plat dev accountID {w with mem := w.mem.commit key cp} := by
  have behind := following.behind
  have last : (Mem.changeOf cp).changeSeq = w.mem.nextSeq := numbered
  refine ⟨?_,?_,following.started,?_,?_⟩
  · simp only [Mem.commit,List.map_append,List.map_cons,List.map_nil,List.pairwise_append]
    refine ⟨following.increasing,List.pairwise_singleton _ _,?_⟩
    intro n member m new
    obtain ⟨c,inside,rfl⟩ := List.mem_map.mp member
    rw [List.mem_singleton.mp new,last]
    exact following.below c inside
  · intro c member
    rcases List.mem_append.mp member with old | new
    · exact Nat.lt_succ_of_lt (following.below c old)
    · rw [List.mem_singleton.mp new,last]
      exact Nat.lt_succ_self _
  · show w.here.db.lastChangeSeq < ((w.mem.nextSeq + 1 : Nat) : Int)
    omega
  · intro c member account other passed
    rcases List.mem_append.mp member with old | new
    · exact following.safe c old account other passed
    · have number : c.changeSeq = w.mem.nextSeq := by
        rw [List.mem_singleton.mp new,last]
      have passed : (c.changeSeq : Int) ≤ w.here.db.lastChangeSeq := passed
      omega

/-- Another state of the device, after more calls and with the cursor where it was. -/
theorem Following.moved {w : World} (following : Following plat dev accountID w) (here : Local) (more : List Visit)
    (same : here.db.lastChangeSeq = w.here.db.lastChangeSeq) :
    Following plat dev accountID {w with here := here,visits := w.visits ++ more} := by
  refine ⟨following.increasing,following.below,same ▸ following.started,same ▸ following.behind,?_⟩
  intro c member account other passed
  obtain ⟨v,made,settled⟩ := following.safe c member account other (same ▸ passed)
  exact ⟨v,List.mem_append_left _ made,settled⟩

/-- The page that a pull read to its end is settled, and the cursor may move to its last number. -/
theorem Following.pulled {w : World} (following : Following plat dev accountID w) (here : Local) (visits : List Visit)
    (cursor : here.db.lastChangeSeq =
      latestSeq w.here.db.lastChangeSeq.toNat (page accountID w.mem w.here.db.lastChangeSeq))
    (settles : ∀ c ∈ page accountID w.mem w.here.db.lastChangeSeq, foreign dev c →
      ∃ v ∈ w.visits ++ visits, SettledAt plat dev v c) :
    Following plat dev accountID {w with here := here,visits := w.visits ++ visits} := by
  have started := following.started
  have behind := following.behind
  refine ⟨following.increasing,following.below,?_,?_,?_⟩
  · rw [cursor]
    exact Int.natCast_nonneg _
  · dsimp only
    rw [cursor]
    rcases latestSeq_cases w.here.db.lastChangeSeq.toNat (page accountID w.mem w.here.db.lastChangeSeq) with
      same | ⟨c,shown,same⟩
    · omega
    · have listed : c ∈ w.mem.changes := List.mem_of_mem_filter (List.mem_of_mem_take shown)
      have below := following.below c listed
      omega
  · intro c member account other passed
    rw [cursor] at passed
    by_cases old : (c.changeSeq : Int) ≤ w.here.db.lastChangeSeq
    · obtain ⟨v,made,settled⟩ := following.safe c member account other old
      exact ⟨v,List.mem_append_left _ made,settled⟩
    · have shown := mem_page accountID w.mem w.here.db.lastChangeSeq c following.increasing member account (by omega)
        (by omega)
      exact settles c shown other

theorem step_following (w : World) (event : Event) (following : Following plat dev accountID w)
    (guard : PullGuard plat dev accountID w event) :
    Following plat dev accountID (w.step plat dev accountID event) := by
  cases event with
  | create rec =>
    rcases w.mem.createFile_cases rec with same | ⟨-,same⟩
    · simpa only [World.step,same] using following
    · simp only [World.step,same]
      exact following.commit plat dev accountID _ _ rfl
  | update rec baseVersion =>
    rcases w.mem.updateFile_cases rec baseVersion with ⟨err,same⟩ | ⟨cur,-,-,same⟩
    · simpa only [World.step,same] using following
    · simp only [World.step,same]
      exact following.commit plat dev accountID _ _ rfl
  | work next =>
    have after := following.moved plat dev accountID {next with db := next.db.setLastChangeSeq w.here.db.lastChangeSeq} [] rfl
    simpa only [World.step,List.append_nil] using after
  | pull hasTokens delivery fetch =>
    simp only [World.step]
    generalize response : changesResponse accountID w.mem w.here.db.lastChangeSeq delivery = r
    rcases pullChanges_cases plat dev w.here hasTokens r fetch with
      same | ⟨latest,changes,tokens,key,reached,ok,hasLatest,hasChanges,finished,calls,moved⟩
    · exact following.moved plat dev accountID _ _ same
    · have answered : delivery = .answered ∧ latest = latestSeq w.here.db.lastChangeSeq.toNat
          (page accountID w.mem w.here.db.lastChangeSeq) ∧
          changes = .arr ((page accountID w.mem w.here.db.lastChangeSeq).map changeJson) := by
        subst response
        cases delivery with
        | garbled => simp [changesResponse,Json.valueInt,Json.value] at hasLatest
        | refused status body unsuccessful => exact absurd ok unsuccessful
        | lost => simp [changesResponse] at reached
        | answered =>
          have started : ¬w.here.db.lastChangeSeq < 0 := by have := following.started; omega
          simp only [changesResponse,started,if_false] at hasLatest hasChanges
          exact ⟨rfl,(Option.some.inj hasLatest).symm,(Option.some.inj hasChanges).symm⟩
      obtain ⟨rfl,rfl,rfl⟩ := answered
      refine following.pulled plat dev accountID _ _ moved ?_
      intro c shown other
      rcases guard tokens key c shown other with ⟨v,made,settled⟩ | covered
      · exact ⟨v,List.mem_append_left _ made,settled⟩
      · obtain ⟨v,made,settled⟩ := covered_settled plat dev fetch c _ 0 _ covered finished
        rw [calls]
        exact ⟨v,List.mem_append_right _ made,settled⟩

/-- In every run whose answered pulls cover their pages, the cursor passes no
change of another device that was not settled. -/
theorem cursor_passes_no_change (l : Local) (events : List Event)
    (guarded : Guarded (World.step plat dev accountID) (PullGuard plat dev accountID) (World.initial l) events) :
    CursorSafe plat dev accountID (run (World.step plat dev accountID) (World.initial l) events) := by
  have start : Following plat dev accountID (World.initial l) :=
    ⟨List.Pairwise.nil,by simp [World.initial,Mem.newMem],Int.le_refl 0,Int.one_pos,
      by simp [CursorSafe,World.initial,Mem.newMem]⟩
  exact (run_invariant (World.step plat dev accountID) (PullGuard plat dev accountID) (Following plat dev accountID)
    (step_following plat dev accountID) (World.initial l) events start guarded).safe

end

section
open KnownAnswers

private def rootedLocal : Local := ⟨rooted,⟨.empty,[]⟩,.empty,[],true⟩

private def desktopFile : FileRecord := ⟨lit "account",lit "f",[],[],1,.empty,false,0,[],1,lit "desktop",0⟩

/-- The other device creates a file, and this one pulls with the given answer of `getFile`. -/
private def createThenPull (response : ApiResponse) : List Event :=
  [.create desktopFile,.pull true .answered (fun _ => ⟨response,workingIo,0⟩)]

/-- What the page shows of the file. -/
private def desktopChange : Change := ⟨1,lit "account",lit "f",1,.upsert,lit "desktop"⟩

private theorem created_page (w : World) (there : w = (World.initial rootedLocal).step platform laptop (lit "account")
    (.create desktopFile)) : page (lit "account") w.mem w.here.db.lastChangeSeq = [desktopChange] := by
  subst there
  decide

private theorem notesTombstone_settles :
    Settles platform laptop rootedLocal ⟨notesTombstone,workingIo,0⟩ desktopChange := by
  have fetched : remoteRecord platform laptop notesTombstone = .ok ⟨2,true,lit "notes.txt"⟩ := by
    rw [platform_numerals,notesTombstone,notesMetadata_numerals]
    decide +kernel
  have named : localKeyFor ascii rootedLocal.db (lit "notes.txt") = some (lit "home:notes.txt") := by decide
  refine .inr ⟨_,fetched,by decide,.inr ⟨lit "home:notes.txt",wlit "C:\\notes\\notes.txt",?_,?_,?_⟩⟩
  · exact ⟨fetched,(localKeyFor_iff ascii rootedLocal.db _ _).mp named,by decide,by decide⟩
  · intro row stored
    exact absurd stored (by simp [rootedLocal,rooted,LocalDb.addSyncRoot,LocalDb.empty])
  · refine ⟨.inl rfl,fun row stored => ?_⟩
    exact absurd stored (by simp [rootedLocal,rooted,LocalDb.addSyncRoot,LocalDb.empty])

theorem deleted_file_pulled :
    CursorSafe platform laptop (lit "account")
      (run (World.step platform laptop (lit "account")) (World.initial rootedLocal) (createThenPull notesTombstone)) := by
  apply cursor_passes_no_change platform laptop (lit "account") rootedLocal
  refine ⟨trivial,?_,trivial⟩
  intro _ _ c shown other
  rw [created_page _ rfl] at shown ⊢
  rw [List.mem_singleton.mp shown]
  refine .inr ?_
  unfold Covered
  rw [if_neg (by decide)]
  exact .inr (.inl ⟨rfl,notesTombstone_settles⟩)

/-- The fetch of the file finds no network and the cursor passes its change. -/
theorem offline_change_passed :
    ¬CursorSafe platform laptop (lit "account") (run (World.step platform laptop (lit "account"))
      (World.initial rootedLocal) (createThenPull ⟨false,0,.null⟩)) := by
  intro safe
  have changes : (run (World.step platform laptop (lit "account")) (World.initial rootedLocal)
      (createThenPull ⟨false,0,.null⟩)).mem.changes = [desktopChange] := by
    decide
  have cursor : (run (World.step platform laptop (lit "account")) (World.initial rootedLocal)
      (createThenPull ⟨false,0,.null⟩)).here.db.lastChangeSeq = 1 := by
    decide
  have visits : (run (World.step platform laptop (lit "account")) (World.initial rootedLocal)
      (createThenPull ⟨false,0,.null⟩)).visits =
        [⟨rootedLocal,lit "f",⟨false,0,.null⟩,{rootedLocal with online := false}⟩] := by
    rfl
  obtain ⟨v,made,-,settled⟩ := safe desktopChange (by simp [changes]) rfl
    (show desktopChange.originDeviceID ≠ laptop.deviceId by decide) (by rw [cursor]; decide)
  rw [visits] at made
  rw [List.mem_singleton.mp made] at settled
  rcases settled with ⟨key,row,stored,-⟩ | ⟨conflict,stored,-⟩ | ⟨record,fetched,-⟩
  · exact absurd stored (by simp [rootedLocal,rooted,LocalDb.addSyncRoot,LocalDb.empty])
  · exact absurd stored (by simp [rootedLocal,rooted,LocalDb.addSyncRoot,LocalDb.empty])
  · contradiction

end
end NPSync.Engine
