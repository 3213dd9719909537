import NPSync.Engine.LocalEdits

/-! Which file a fetched record is taken for. `applyRemoteFile` finds the row by
the path of the record, never by its file id. -/
namespace NPSync.Engine
open Library

section
variable (plat : Platform) (dev : Device) (l : Local) (r : ApiResponse) (io : ApplyIo)

/-- The row whose version is compared with that of the record. -/
def Compared (st : LocalFileState) : Prop :=
  ∃ record key abs, remoteRecord plat dev r = .ok record ∧ localKeyFor plat.win l.db record.norm = some key ∧
    absPathForRel plat.win l.db key = some abs ∧ ignored dev record.norm false = false ∧
    l.db.getFile key = some st

/-- The record is accepted, mapped, not ignored and newer than its row. -/
def Accepted (record : RemoteRecord) (t : Target) : Prop :=
  remoteRecord plat dev r = .ok record ∧ remoteTarget plat dev l record = .ok t

/-- The call overwrites or deletes the file at this lower-cased path. -/
def Touches (path : WStr) : Prop :=
  ∃ record t, Accepted plat dev l r record t ∧
    ((record.deleted = true ∧ io.deletes = true ∧ path = PathUtil.wlower plat.win t.abs) ∨
      (record.deleted = false ∧ (∃ content, remoteContent plat dev r = .ok content) ∧
        ((∃ bytes, edited plat l t io.opens = some bytes ∧
            path ∈ writtenPaths plat.win (conflictCopyPath t.abs) io.copyWrite) ∨
          (edited plat l t io.opens = none ∧ path ∈ writtenPaths plat.win t.abs io.write))))

/-- The call writes the row of this target: a tombstone of a tracked path, or
content that replaces the file. -/
def WritesRow (record : RemoteRecord) (t : Target) : Prop :=
  Accepted plat dev l r record t ∧
    ((record.deleted = true ∧ t.st ≠ none) ∨
      (record.deleted = false ∧ (∃ content, remoteContent plat dev r = .ok content) ∧
        edited plat l t io.opens = none ∧ io.write = .replaced ∧
        (r.body.value (lit "version_vector") (.obj [])).bind Json.dump ≠ none))

theorem mem_touchedPaths_iff (path : WStr) :
    path ∈ touchedPaths plat io (planRemote plat dev l r io.opens) ↔ Touches plat dev l r io path := by
  constructor
  · intro touched
    obtain ⟨outcome,stops⟩ | ⟨record,t,accepted,found,branch⟩ := planRemote_cases plat dev l r io.opens
    · simp [stops,touchedPaths] at touched
    refine ⟨record,t,⟨accepted,found⟩,?_⟩
    obtain ⟨dead,plan⟩ | ⟨plain,hash,live,content,⟨bytes,seen,plan⟩ | ⟨unseen,plan⟩⟩ := branch
    · rw [plan] at touched
      by_cases deletes : io.deletes = true
      · exact .inl ⟨dead,deletes,by simpa [touchedPaths,deletes] using touched⟩
      · simp [touchedPaths,deletes] at touched
    · rw [plan] at touched
      exact .inr ⟨live,⟨_,content⟩,.inl ⟨bytes,seen,touched⟩⟩
    · rw [plan] at touched
      exact .inr ⟨live,⟨_,content⟩,.inr ⟨unseen,touched⟩⟩
  · rintro ⟨record,t,⟨accepted,found⟩,
      ⟨dead,deletes,rfl⟩ | ⟨live,⟨content,valid⟩,⟨bytes,seen,written⟩ | ⟨unseen,written⟩⟩⟩
    · simp [planRemote,accepted,found,dead,touchedPaths,deletes]
    · simpa [planRemote,accepted,found,live,valid,seen,touchedPaths] using written
    · simpa [planRemote,accepted,found,live,valid,unseen,touchedPaths] using written

variable (f : Str) (now : Int)

theorem accepted_row (record : RemoteRecord) (t : Target) (accepted : Accepted plat dev l r record t) :
    t.st = l.db.getFile t.key ∧ ∀ st, t.st = some st → st.relPath = t.key := by
  obtain ⟨-,-,row,-⟩ := remoteTarget_parts plat dev l record t accepted.2
  refine ⟨row,?_⟩
  intro st tracked
  rw [row,LocalDb.getFile] at tracked
  obtain ⟨stored,-,rfl⟩ := Option.map_eq_some_iff.mp tracked
  rfl

/-- The row that a call writes. -/
structure NewRow (t : Target) (row : FileRow) : Prop where
  version : row.remoteVersion = t.version
  owner : row.fileId = f ∨ ∃ st, t.st = some st ∧ row.fileId = st.fileId

/-- A call writes at most the row of its target. -/
theorem applyRemoteFile_files :
    ((∀ record t, ¬WritesRow plat dev l r io record t) ∧
      (applyRemoteFile plat dev l f r io now).2.db.files = l.db.files) ∨
    ∃ record t row, WritesRow plat dev l r io record t ∧ NewRow f t row ∧
      (applyRemoteFile plat dev l f r io now).2.db.files = l.db.files.upsert t.key row := by
  simp only [applyRemoteFile,planRemote_online]
  have unique : ∀ {record t record' t'}, Accepted plat dev l r record t →
      Accepted plat dev l r record' t' → record' = record ∧ t' = t := by
    intro record t record' t' first second
    obtain rfl : record' = record := Except.ok.inj (second.1.symm.trans first.1)
    exact ⟨rfl,Except.ok.inj (second.2.symm.trans first.2)⟩
  obtain ⟨outcome,stops⟩ | ⟨record,t,accepted,found,branch⟩ := planRemote_cases plat dev l r io.opens
  · refine .inl ⟨?_,by rw [stops]; rfl⟩
    rintro record t ⟨⟨accepted,found⟩,⟨dead,-⟩ | ⟨live,⟨content,valid⟩,unseen,-⟩⟩
    · simp [planRemote,accepted,found,dead] at stops
    · simp [planRemote,accepted,found,live,valid,unseen] at stops
  have here : Accepted plat dev l r record t := ⟨accepted,found⟩
  obtain ⟨dead,plan⟩ | ⟨plain,hash,live,content,⟨bytes,seen,plan⟩ | ⟨unseen,plan⟩⟩ := branch
  · rw [plan]
    simp only [perform,performRemove_db]
    cases tracked : t.st with
    | none =>
      refine .inl ⟨?_,rfl⟩
      rintro record' t' ⟨other,⟨-,known⟩ | ⟨live,-⟩⟩
      · obtain ⟨rfl,rfl⟩ := unique here other
        exact known tracked
      · obtain ⟨rfl,rfl⟩ := unique here other
        exact Bool.noConfusion (dead.symm.trans live)
    | some st =>
      have key := (accepted_row plat dev l r record t here).2 st tracked
      refine .inr ⟨record,t,_,⟨here,.inl ⟨dead,by simp [tracked]⟩⟩,
        ⟨?_,.inr ⟨st,tracked,?_⟩⟩,congrArg (fun k => l.db.files.upsert k _) key⟩
      · rfl
      · rfl
  · rw [plan]
    refine .inl ⟨?_,rfl⟩
    rintro record' t' ⟨other,⟨dead,-⟩ | ⟨-,-,unseen,-⟩⟩
    · obtain ⟨rfl,rfl⟩ := unique here other
      exact Bool.noConfusion (dead.symm.trans live)
    · obtain ⟨rfl,rfl⟩ := unique here other
      exact Option.some_ne_none _ (seen.symm.trans unseen)
  · rw [plan]
    rcases performReplace_cases plat {l with online := r.transportOk} f r t plain io with
      ⟨same,stopped⟩ | ⟨vector,written,dumped,-,row⟩
    · refine .inl ⟨?_,congrArg LocalDb.files same⟩
      rintro record' t' ⟨other,⟨dead,-⟩ | ⟨-,-,-,written,dumps⟩⟩
      · obtain ⟨rfl,rfl⟩ := unique here other
        exact Bool.noConfusion (dead.symm.trans live)
      · rcases stopped with ⟨unwritten,-⟩ | ⟨-,undumped,-⟩
        · exact unwritten written
        · exact dumps undumped
    · refine .inr ⟨record,t,_,⟨here,.inr ⟨live,⟨_,content⟩,unseen,written,by simp [dumped]⟩⟩,⟨?_,.inl ?_⟩,
        congrArg LocalDb.files row⟩
      · rfl
      · rfl

end

section
variable (win : Windows) (db after : LocalDb)

theorem rowBySuffix_tracked (norm key : Str) (found : rowBySuffix db norm = some key) : db.files.get key ≠ none := by
  intro absent
  exact (Table.get_none_iff _ _).mp absent (List.mem_of_find?_eq_some found)

private theorem tail_unique (id norm q : Str) (flat : 58 ∉ q)
    (suffix : ((id ++ lit ":" ++ norm).dropWhile (· ≠ 58)).tail = q) : q = norm := by
  induction id with
  | nil => exact suffix.symm
  | cons c id ih =>
    by_cases colon : c = 58
    · -- the first colon stands inside the identifier, so the rest holds another one
      subst colon
      refine absurd ?_ flat
      rw [← suffix]
      simp [lit]
    · exact ih (by simpa [colon] using suffix)

/-- A key ends in one path without a colon. -/
theorem suffix_unique (id norm q : Str) (flat : 58 ∉ q)
    (suffix : (splitKey (id ++ lit ":" ++ norm)).map Prod.snd = some q) : q = norm := by
  unfold splitKey at suffix
  split at suffix
  · exact tail_unique id norm q flat (Option.some.inj suffix)
  · contradiction

/-- An untracked key is the one that the lookup makes up. -/
theorem localKeyFor_untracked (norm key : Str) (named : localKeyFor win db norm = some key)
    (absent : db.files.get key = none) :
    rowBySuffix db norm = none ∧ ∃ id, key = id ++ lit ":" ++ norm := by
  unfold localKeyFor at named
  cases found : rowBySuffix db norm with
  | some row =>
    rw [found] at named
    exact absurd absent (rowBySuffix_tracked db norm key (Option.some.inj named ▸ found))
  | none =>
    rw [found] at named
    obtain ⟨id,-,same⟩ := Option.map_eq_some_iff.mp named
    exact ⟨rfl,id,same.symm⟩

variable (norm key q : Str) (row : FileRow) (roots : after.syncRoots = db.syncRoots)
  (files : after.files = db.files.upsert key row)

include roots files

/-- The lookup of a path after a row was written at the key of `norm`. -/
theorem localKeyFor_upsert (flat : 58 ∉ q) (named : localKeyFor win db norm = some key) :
    localKeyFor win after q = localKeyFor win db q := by
  have places : after.listSyncRoots win = db.listSyncRoots win := by
    simp [LocalDb.listSyncRoots,LocalDb.rootsWhere,roots]
  have keys := Table.keys_upsert db.files key row
  rw [← files] at keys
  by_cases present : key ∈ db.files.keys
  · have same : rowBySuffix after q = rowBySuffix db q := by
      rw [if_pos present] at keys
      exact congrArg (List.find? _) keys
    simp only [localKeyFor,same,places]
  · rw [if_neg present] at keys
    have absent := (Table.get_none_iff _ _).mpr present
    obtain ⟨unknown,id,made⟩ := localKeyFor_untracked win db norm key named absent
    have appended : rowBySuffix after q = (rowBySuffix db q).or
        (if (splitKey key).map Prod.snd = some q then some key else none) := by
      have found := congrArg (List.find? (fun key => decide ((splitKey key).map Prod.snd = some q))) keys
      rw [List.find?_append] at found
      refine found.trans (congrArg _ ?_)
      by_cases suffix : (splitKey key).map Prod.snd = some q
      · simp [suffix]
      · simp [suffix]
    cases first : rowBySuffix db q with
    | some other => simp [localKeyFor,appended,first]
    | none =>
      by_cases suffix : (splitKey key).map Prod.snd = some q
      · have same := suffix_unique id norm q flat (made ▸ suffix)
        subst same
        rw [named]
        simp [localKeyFor,appended,first,suffix]
      · simp [localKeyFor,appended,first,suffix,places]

theorem alreadyCurrent_upsert_other (flat : 58 ∉ q) (named : localKeyFor win db norm = some key)
    (elsewhere : localKeyFor win db q ≠ some key) (v : Int) :
    alreadyCurrent win after q v = alreadyCurrent win db q v := by
  unfold alreadyCurrent
  rw [localKeyFor_upsert win db after norm key q row roots files flat named]
  cases found : localKeyFor win db q with
  | none => rfl
  | some other =>
    have different : other ≠ key := fun same => elsewhere (same ▸ found)
    simp [LocalDb.getFile,files,Table.get_upsert_other _ _ _ _ different]

theorem alreadyCurrent_upsert_same (flat : 58 ∉ q) (named : localKeyFor win db norm = some key)
    (here : localKeyFor win db q = some key) : alreadyCurrent win after q row.remoteVersion = true := by
  unfold alreadyCurrent
  rw [localKeyFor_upsert win db after norm key q row roots files flat named,here]
  simp [LocalDb.getFile,files,LocalDb.ofRow]

end

/-! ### The record, its key and its path -/

/-- The key ends in the path after its first colon. -/
def EndsIn (norm : Str) (entry : Str × FileRow) : Prop := (splitKey entry.1).map Prod.snd = some norm

instance (norm : Str) (entry : Str × FileRow) : Decidable (EndsIn norm entry) := inferInstanceAs (Decidable (_ = _))

/-- The key that a path stands for on a device: that of the first row whose key ends in
it, and without such a row the path in the root it is placed in. -/
inductive Named (win : Windows) (db : LocalDb) (norm : Str) : Str → Prop
  | tracked (before after : List (Str × FileRow)) (key : Str) (row : FileRow)
      (rows : db.files.rows = before ++ (key,row)::after) (ends : EndsIn norm (key,row))
      (first : ∀ other ∈ before, ¬EndsIn norm other) : Named win db norm key
  | placed (id : Str) (untracked : ∀ other ∈ db.files.rows, ¬EndsIn norm other)
      (chosen : chosenRoot win (db.listSyncRoots win) norm = some id) : Named win db norm (id ++ lit ":" ++ norm)

section
variable (plat : Platform) (dev : Device) (l : Local) (r : ApiResponse) (io : ApplyIo)

/-- The record is fetched and decrypted, its key maps to a path in a root, and it is
not ignored. -/
structure Located (record : RemoteRecord) (key : Str) (abs : WStr) : Prop where
  fetched : remoteRecord plat dev r = .ok record
  named : Named plat.win l.db record.norm key
  mapped : absPathForRel plat.win l.db key = some abs
  kept : ignored dev record.norm false = false

/-- The row at the key, if any, has an older version. -/
def Newer (record : RemoteRecord) (key : Str) : Prop :=
  ∀ row, l.db.files.get key = some row → row.remoteVersion < record.version

/-- The file opens and holds neither what its row says of this device nor of the server. -/
def EditedAt (key : Str) (abs : WStr) : Prop :=
  ∃ row bytes, l.db.files.get key = some row ∧ readFileBytes plat.win l.disk abs io.opens = some bytes ∧
    row.localHash ≠ [] ∧ Crypto.sha256Hex plat.prim bytes ≠ row.localHash ∧
    Crypto.sha256Hex plat.prim bytes ≠ row.remoteHash

/-- The lower-cased paths that a newer record overwrites or deletes: the file of a
tombstone, the copy of an edited file, or the file that gets the content. -/
def Overwrites (record : RemoteRecord) (key : Str) (abs path : WStr) : Prop :=
  (record.deleted = true ∧ io.deletes = true ∧ path = PathUtil.wlower plat.win abs) ∨
    (record.deleted = false ∧ (∃ content, remoteContent plat dev r = .ok content) ∧
      ((EditedAt plat l io key abs ∧ path ∈ writtenPaths plat.win (conflictCopyPath abs) io.copyWrite) ∨
        (¬EditedAt plat l io key abs ∧ path ∈ writtenPaths plat.win abs io.write)))

/-- A newer record replaces the row at its key: a tombstone of a tracked path, or
content that is written to the file. -/
def ReplacesRow (record : RemoteRecord) (key : Str) (abs : WStr) : Prop :=
  (record.deleted = true ∧ l.db.files.get key ≠ none) ∨
    (record.deleted = false ∧ (∃ content, remoteContent plat dev r = .ok content) ∧ ¬EditedAt plat l io key abs ∧
      io.write = .replaced ∧ (r.body.value (lit "version_vector") (.obj [])).bind Json.dump ≠ none)

end

section
variable (win : Windows) (db : LocalDb)

theorem rowBySuffix_some (norm key : Str) : rowBySuffix db norm = some key ↔
    ∃ before after row, db.files.rows = before ++ (key,row)::after ∧ EndsIn norm (key,row) ∧
      ∀ other ∈ before, ¬EndsIn norm other := by
  have search : rowBySuffix db norm =
      (db.files.rows.find? fun entry => decide (EndsIn norm entry)).map Prod.fst := by
    rw [rowBySuffix,List.find?_map]
    rfl
  rw [search]
  constructor
  · intro found
    obtain ⟨⟨other,row⟩,first,same⟩ := Option.map_eq_some_iff.mp found
    cases same
    obtain ⟨ends,before,after,rows,earlier⟩ := List.find?_eq_some_iff_append.mp first
    exact ⟨before,after,row,rows,of_decide_eq_true ends,fun entry member => by simpa using earlier entry member⟩
  · rintro ⟨before,after,row,rows,ends,first⟩
    refine Option.map_eq_some_iff.mpr ⟨(key,row),?_,rfl⟩
    refine List.find?_eq_some_iff_append.mpr ⟨decide_eq_true ends,before,after,rows,fun entry member => ?_⟩
    simpa using first entry member

theorem rowBySuffix_none (norm : Str) : rowBySuffix db norm = none ↔ ∀ other ∈ db.files.rows, ¬EndsIn norm other := by
  simp [rowBySuffix,List.find?_eq_none,EndsIn]

/-- The lookup of the source finds the key that the path stands for. -/
theorem localKeyFor_iff (norm key : Str) : localKeyFor win db norm = some key ↔ Named win db norm key := by
  constructor
  · intro named
    unfold localKeyFor at named
    cases found : rowBySuffix db norm with
    | some row =>
      rw [found] at named
      cases named
      obtain ⟨before,after,row,rows,ends,first⟩ := (rowBySuffix_some db norm key).mp found
      exact .tracked before after key row rows ends first
    | none =>
      rw [found] at named
      obtain ⟨id,chosen,rfl⟩ := Option.map_eq_some_iff.mp named
      exact .placed id ((rowBySuffix_none db norm).mp found) chosen
  · intro named
    cases named with
    | tracked before after key row rows ends first =>
      simp [localKeyFor,(rowBySuffix_some db norm key).mpr ⟨before,after,row,rows,ends,first⟩]
    | placed id untracked chosen => simp [localKeyFor,(rowBySuffix_none db norm).mpr untracked,chosen]

/-- A text ends in one part without a colon. -/
theorem last_part_unique (id place norm other : Str) (flat : 58 ∉ norm) (smooth : 58 ∉ other)
    (same : id ++ lit ":" ++ norm = place ++ lit ":" ++ other) : norm = other := by
  simp only [List.append_assoc] at same
  rcases List.append_eq_append_iff.mp same with ⟨more,-,rest⟩ | ⟨more,-,rest⟩
  · cases more with
    | nil => exact (List.cons.inj rest).2
    | cons c more =>
      have inside : norm = more ++ (lit ":" ++ other) := (List.cons.inj rest).2
      refine absurd ?_ flat
      rw [inside]
      simp [lit]
  · cases more with
    | nil => exact (List.cons.inj rest).2.symm
    | cons c more =>
      have inside : other = more ++ (lit ":" ++ norm) := (List.cons.inj rest).2
      refine absurd ?_ smooth
      rw [inside]
      simp [lit]

/-- Paths without a colon that stand for one key are one path. -/
theorem Named.unique {norm other key : Str} (flat : 58 ∉ norm) (smooth : 58 ∉ other) (first : Named win db norm key)
    (second : Named win db other key) : norm = other := by
  cases first with
  | tracked _ _ _ row _ ends _ =>
    cases second with
    | tracked _ _ _ same _ also _ => exact Option.some.inj (ends.symm.trans also)
    | placed id _ _ => exact suffix_unique id other norm flat ends
  | placed id _ _ =>
    generalize made : id ++ lit ":" ++ norm = key at second
    cases second with
    | tracked _ _ _ row _ ends _ => exact (suffix_unique id norm other smooth (made ▸ ends)).symm
    | placed place _ _ => exact last_part_unique id place norm other flat smooth made

end

section
variable (plat : Platform) (dev : Device) (l : Local) (r : ApiResponse) (io : ApplyIo)

/-- The target of a record at a key. -/
def targetAt (record : RemoteRecord) (key : Str) (abs : WStr) : Target := ⟨key,abs,l.db.getFile key,record.version⟩

variable {plat dev l r io}

/-- The path of a record was accepted. -/
theorem remoteRecord_norm {record : RemoteRecord} (fetched : remoteRecord plat dev r = .ok record) :
    ∃ path, PathUtil.normalizeRelative path = some record.norm := by
  unfold remoteRecord at fetched
  split at fetched
  · contradiction
  split at fetched
  · contradiction
  simp only [bind,Except.bind] at fetched
  split at fetched
  · contradiction
  split at fetched
  · contradiction
  split at fetched
  · contradiction
  split at fetched
  · contradiction
  split at fetched
  · contradiction
  split at fetched
  · contradiction
  split at fetched
  · contradiction
  split at fetched
  · contradiction
  rename_i path _ _ norm accepted
  rw [← Except.ok.inj fetched]
  refine ⟨path,?_⟩
  cases normal : PathUtil.normalizeRelative path with
  | none => simp [normal,orFail] at accepted
  | some other =>
    simp only [normal,orFail] at accepted
    exact congrArg some (Except.ok.inj accepted)

theorem Located.flat {record : RemoteRecord} {key : Str} {abs : WStr} (located : Located plat dev l r record key abs) :
    58 ∉ record.norm := by
  obtain ⟨path,accepted⟩ := remoteRecord_norm located.fetched
  exact PathUtil.normalizeRelative_no_colon path record.norm accepted

theorem Located.compared {record : RemoteRecord} {key : Str} {abs : WStr} {row : FileRow}
    (located : Located plat dev l r record key abs) (stored : l.db.files.get key = some row) :
    Compared plat dev l r (LocalDb.ofRow key row) :=
  ⟨record,key,abs,located.fetched,(localKeyFor_iff plat.win l.db record.norm key).mpr located.named,located.mapped,
    located.kept,by rw [LocalDb.getFile,stored]; rfl⟩

theorem Compared.located {st : LocalFileState} (compared : Compared plat dev l r st) :
    ∃ record key abs row, Located plat dev l r record key abs ∧ l.db.files.get key = some row ∧
      row.fileId = st.fileId := by
  obtain ⟨record,key,abs,fetched,named,mapped,kept,tracked⟩ := compared
  obtain ⟨row,stored,rfl⟩ := Option.map_eq_some_iff.mp tracked
  exact ⟨record,key,abs,row,⟨fetched,(localKeyFor_iff plat.win l.db record.norm key).mp named,mapped,kept⟩,stored,rfl⟩

theorem Located.accepted {record : RemoteRecord} {key : Str} {abs : WStr}
    (located : Located plat dev l r record key abs) (newer : Newer l record key) :
    Accepted plat dev l r record (targetAt l record key abs) := by
  refine ⟨located.fetched,?_⟩
  have named := (localKeyFor_iff plat.win l.db record.norm key).mpr located.named
  cases stored : l.db.files.get key with
  | none =>
    simp [remoteTarget,named,located.mapped,located.kept,targetAt,LocalDb.getFile,stored,orFail,bind,Except.bind,pure,
      Except.pure]
  | some row =>
    have older : ¬record.version ≤ row.remoteVersion := by
      have known := newer row stored
      omega
    simp [remoteTarget,named,located.mapped,located.kept,targetAt,LocalDb.getFile,stored,LocalDb.ofRow,older,orFail,bind,
      Except.bind,pure,Except.pure]

theorem Accepted.located {record : RemoteRecord} {t : Target} (accepted : Accepted plat dev l r record t) :
    Located plat dev l r record t.key t.abs ∧ Newer l record t.key ∧ t = targetAt l record t.key t.abs := by
  obtain ⟨named,mapped,row,version,kept,newer⟩ := remoteTarget_parts plat dev l record t accepted.2
  refine ⟨⟨accepted.1,(localKeyFor_iff plat.win l.db record.norm t.key).mp named,mapped,kept⟩,?_,?_⟩
  · intro old stored
    exact newer (LocalDb.ofRow t.key old) (by rw [row,LocalDb.getFile,stored]; rfl)
  · rw [targetAt,← row,← version]

theorem edited_targetAt (record : RemoteRecord) (key : Str) (abs : WStr) :
    (∃ bytes, edited plat l (targetAt l record key abs) io.opens = some bytes) ↔ EditedAt plat l io key abs := by
  unfold edited targetAt EditedAt LocalDb.getFile
  cases readFileBytes plat.win l.disk abs io.opens with
  | none => simp
  | some bytes =>
    cases l.db.files.get key with
    | none => simp
    | some row => simp [LocalDb.ofRow]

theorem unedited_targetAt (record : RemoteRecord) (key : Str) (abs : WStr) :
    edited plat l (targetAt l record key abs) io.opens = none ↔ ¬EditedAt plat l io key abs := by
  rw [← edited_targetAt record key abs,Option.eq_none_iff_forall_ne_some]
  exact not_exists.symm

theorem touches_iff (path : WStr) : Touches plat dev l r io path ↔
    ∃ record key abs, Located plat dev l r record key abs ∧ Newer l record key ∧
      Overwrites plat dev l r io record key abs path := by
  constructor
  · rintro ⟨record,t,accepted,touched⟩
    obtain ⟨located,newer,same⟩ := accepted.located
    refine ⟨record,t.key,t.abs,located,newer,?_⟩
    rw [same] at touched
    rcases touched with deleted | ⟨live,content,⟨bytes,seen,written⟩ | ⟨unseen,written⟩⟩
    · exact .inl deleted
    · exact .inr ⟨live,content,.inl ⟨(edited_targetAt record t.key t.abs).mp ⟨bytes,seen⟩,written⟩⟩
    · exact .inr ⟨live,content,.inr ⟨(unedited_targetAt record t.key t.abs).mp unseen,written⟩⟩
  · rintro ⟨record,key,abs,located,newer,deleted | ⟨live,content,⟨edits,written⟩ | ⟨clean,written⟩⟩⟩
    · exact ⟨record,_,located.accepted newer,.inl deleted⟩
    · obtain ⟨bytes,seen⟩ := (edited_targetAt record key abs).mpr edits
      exact ⟨record,_,located.accepted newer,.inr ⟨live,content,.inl ⟨bytes,seen,written⟩⟩⟩
    · have unseen := (unedited_targetAt record key abs).mpr clean
      exact ⟨record,_,located.accepted newer,.inr ⟨live,content,.inr ⟨unseen,written⟩⟩⟩

theorem WritesRow.replaces {record : RemoteRecord} {t : Target} (writes : WritesRow plat dev l r io record t) :
    ReplacesRow plat dev l r io record t.key t.abs := by
  obtain ⟨accepted,⟨dead,tracked⟩ | ⟨live,content,unseen,written⟩⟩ := writes
  · refine .inl ⟨dead,fun absent => tracked ?_⟩
    rw [(accepted_row plat dev l r record t accepted).1,LocalDb.getFile,absent]
    rfl
  · obtain ⟨-,-,same⟩ := accepted.located
    rw [same] at unseen
    exact .inr ⟨live,content,(unedited_targetAt record t.key t.abs).mp unseen,written⟩

theorem Located.writesRow {record : RemoteRecord} {key : Str} {abs : WStr}
    (located : Located plat dev l r record key abs) (newer : Newer l record key)
    (replaces : ReplacesRow plat dev l r io record key abs) :
    WritesRow plat dev l r io record (targetAt l record key abs) := by
  refine ⟨located.accepted newer,?_⟩
  rcases replaces with ⟨dead,tracked⟩ | ⟨live,content,clean,written⟩
  · refine .inl ⟨dead,fun absent => tracked ?_⟩
    exact Option.map_eq_none_iff.mp absent
  · exact .inr ⟨live,content,(unedited_targetAt record key abs).mpr clean,written⟩

end

section
variable (plat : Platform) (dev : Device) (l : Local) (r : ApiResponse) (io : ApplyIo) (now : Int) (f g q : Str)

/-- Receiving a change of `f` concerns `f` only: it compares with and modifies
rows of `f`, or creates one, and the rows and files of `g`, whose path is `q`,
and whether `g` counts as current stay as they were. -/
structure KeepsIdentity (after : Local) : Prop where
  compared : ∀ st, Compared plat dev l r st → st.fileId = f
  modified : ∀ key, after.db.files.get key = l.db.files.get key ∨
    ∃ row, after.db.files.get key = some row ∧ row.fileId = f ∧ ∀ old, l.db.files.get key = some old → old.fileId = f
  rows : ∀ key row, row.fileId = g → (after.db.files.get key = some row ↔ l.db.files.get key = some row)
  file : ∀ key row abs, l.db.files.get key = some row → row.fileId = g → absPathForRel plat.win l.db key = some abs →
    ¬Destroyed plat l after abs ∧ after.disk.read plat.win abs = l.disk.read plat.win abs
  current : ∀ version, alreadyCurrent plat.win after.db q version = alreadyCurrent plat.win l.db q version

/-- The row at the key of the record belongs to `f`, no row of `g` maps to a path that
the call overwrites, and where it writes a row the record has another path than `g`. -/
structure Separate : Prop where
  own : ∀ record key abs row, Located plat dev l r record key abs → l.db.files.get key = some row → row.fileId = f
  elsewhere : ∀ record key abs path, Located plat dev l r record key abs → Newer l record key →
    Overwrites plat dev l r io record key abs path → ∀ other row place, l.db.files.get other = some row →
      row.fileId = g → absPathForRel plat.win l.db other = some place → PathUtil.wlower plat.win place ≠ path
  unshared : ∀ record key abs, Located plat dev l r record key abs → Newer l record key →
    ReplacesRow plat dev l r io record key abs → record.norm ≠ q

theorem compared_of_accepted (record : RemoteRecord) (t : Target) (st : LocalFileState)
    (accepted : Accepted plat dev l r record t) (tracked : t.st = some st) : Compared plat dev l r st := by
  obtain ⟨named,mapped,row,-,kept,-⟩ := remoteTarget_parts plat dev l record t accepted.2
  exact ⟨record,t.key,t.abs,accepted.1,named,mapped,kept,row ▸ tracked⟩

theorem touches_of_destroyed (abs : WStr)
    (destroyed : Destroyed plat l (applyRemoteFile plat dev l f r io now).2 abs) :
    Touches plat dev l r io (PathUtil.wlower plat.win abs) :=
  (mem_touchedPaths_iff plat dev l r io _).mp ((destroyed_iff plat dev l f r io now abs).mp destroyed)

/-- A row the call writes belongs to `f`, and so did the row it replaces. -/
theorem newRow_owned (own : ∀ st, Compared plat dev l r st → st.fileId = f) (record : RemoteRecord) (t : Target)
    (row : FileRow) (writes : WritesRow plat dev l r io record t) (written : NewRow f t row) :
    row.fileId = f ∧ ∀ old, l.db.files.get t.key = some old → old.fileId = f := by
  constructor
  · rcases written.owner with same | ⟨st,tracked,same⟩
    · exact same
    · exact same.trans (own st (compared_of_accepted plat dev l r record t st writes.1 tracked))
  · intro old stored
    have tracked : t.st = some (LocalDb.ofRow t.key old) := by
      rw [(accepted_row plat dev l r record t writes.1).1,LocalDb.getFile,stored]
      rfl
    exact own _ (compared_of_accepted plat dev l r record t _ writes.1 tracked)

theorem Separate.compared (separate : Separate plat dev l r io f g q) (st : LocalFileState)
    (compared : Compared plat dev l r st) : st.fileId = f := by
  obtain ⟨record,key,abs,row,located,stored,same⟩ := compared.located
  rw [← same]
  exact separate.own record key abs row located stored

theorem Separate.untouched (separate : Separate plat dev l r io f g q) (key : Str) (row : FileRow) (abs : WStr)
    (stored : l.db.files.get key = some row) (owner : row.fileId = g)
    (mapped : absPathForRel plat.win l.db key = some abs) : ¬Touches plat dev l r io (PathUtil.wlower plat.win abs) := by
  intro touches
  obtain ⟨record,other,place,located,newer,overwrites⟩ := (touches_iff _).mp touches
  exact separate.elsewhere record other place _ located newer overwrites key row abs stored owner mapped rfl

/-- The path of `g` does not find the row that the call writes. -/
theorem Separate.unnamed (separate : Separate plat dev l r io f g q) (flat : 58 ∉ q) (record : RemoteRecord) (t : Target)
    (writes : WritesRow plat dev l r io record t) : localKeyFor plat.win l.db q ≠ some t.key := by
  intro shared
  obtain ⟨located,newer,-⟩ := writes.1.located
  have second := (localKeyFor_iff plat.win l.db q t.key).mp shared
  exact separate.unshared record t.key t.abs located newer writes.replaces
    (located.named.unique plat.win l.db located.flat flat second)

theorem keepsIdentity_of_separate (different : g ≠ f) (flat : 58 ∉ q)
    (separate : Separate plat dev l r io f g q) :
    KeepsIdentity plat dev l r f g q (applyRemoteFile plat dev l f r io now).2 := by
  have frame : ∀ abs, ¬Touches plat dev l r io (PathUtil.wlower plat.win abs) →
      ¬Destroyed plat l (applyRemoteFile plat dev l f r io now).2 abs ∧
        (applyRemoteFile plat dev l f r io now).2.disk.read plat.win abs = l.disk.read plat.win abs := by
    intro abs untouched
    refine ⟨fun destroyed => untouched (touches_of_destroyed plat dev l r io now f abs destroyed),?_⟩
    refine perform_other plat _ f r io now _ _ ?_
    exact fun touched => untouched ((mem_touchedPaths_iff plat dev l r io _).mp touched)
  have files : ∀ key row abs, l.db.files.get key = some row → row.fileId = g →
      absPathForRel plat.win l.db key = some abs → _ :=
    fun key row abs stored owner mapped =>
      frame abs (separate.untouched plat dev l r io f g q key row abs stored owner mapped)
  have compared := separate.compared plat dev l r io f g q
  rcases applyRemoteFile_files plat dev l r io f now with ⟨-,same⟩ | ⟨record,t,row,writes,written,upserted⟩
  · have roots := (applyRemoteFile_frame plat dev l f r io now).syncRoots
    refine ⟨compared,fun key => .inl (by rw [same]),fun key row _ => by rw [same],files,?_⟩
    intro version
    have rows : (applyRemoteFile plat dev l f r io now).2.db.getFile = l.db.getFile :=
      funext (fun key => by rw [LocalDb.getFile,same]; rfl)
    simp only [alreadyCurrent,localKeyFor,rowBySuffix,LocalDb.listSyncRoots,LocalDb.rootsWhere,same,roots,rows]
  · obtain ⟨owned,before⟩ := newRow_owned plat dev l r io f compared record t row writes written
    have named := (remoteTarget_parts plat dev l record t writes.1.2).1
    refine ⟨compared,?_,?_,files,?_⟩
    · intro key
      by_cases here : key = t.key
      · subst here
        exact .inr ⟨row,by rw [upserted,Table.get_upsert_same],owned,before⟩
      · exact .inl (by rw [upserted,Table.get_upsert_other _ _ _ _ here])
    · intro key other owner
      by_cases here : key = t.key
      · subst here
        rw [upserted,Table.get_upsert_same]
        constructor
        · intro same
          exact absurd (owner.symm.trans ((Option.some.inj same) ▸ owned)) different
        · intro stored
          exact absurd (owner.symm.trans (before other stored)) different
      · rw [upserted,Table.get_upsert_other _ _ _ _ here]
    · intro version
      exact alreadyCurrent_upsert_other plat.win l.db _ record.norm t.key q row
        ((applyRemoteFile_frame plat dev l f r io now).syncRoots) upserted flat named
        (separate.unnamed plat dev l r io f g q flat record t writes) version

/-- The row of `q` is not one that the call writes: at the version of the record it
would be current after the call and not before it. -/
theorem KeepsIdentity.unshared (flat : 58 ∉ q)
    (kept : KeepsIdentity plat dev l r f g q (applyRemoteFile plat dev l f r io now).2) (record : RemoteRecord)
    (t : Target) (writes : WritesRow plat dev l r io record t) : localKeyFor plat.win l.db q ≠ some t.key := by
  intro shared
  obtain ⟨named,-,stored,version,-,newer⟩ := remoteTarget_parts plat dev l record t writes.1.2
  have before : alreadyCurrent plat.win l.db q t.version = false := by
    simp only [alreadyCurrent,shared,Option.bind_some,← stored]
    cases tracked : t.st with
    | none => rfl
    | some st =>
      have old := newer st tracked
      exact decide_eq_false (by omega)
  rcases applyRemoteFile_files plat dev l r io f now with ⟨none,-⟩ | ⟨record',t',row,writes',written,upserted⟩
  · exact none record t writes
  · obtain rfl : record' = record := Except.ok.inj (writes'.1.1.symm.trans writes.1.1)
    obtain rfl : t' = t := Except.ok.inj (writes'.1.2.symm.trans writes.1.2)
    have after := alreadyCurrent_upsert_same plat.win l.db _ record'.norm t'.key q row
      ((applyRemoteFile_frame plat dev l f r io now).syncRoots) upserted flat named shared
    rw [written.version,kept.current t'.version,before] at after
    contradiction

theorem separate_of_keepsIdentity (flat : 58 ∉ q)
    (kept : KeepsIdentity plat dev l r f g q (applyRemoteFile plat dev l f r io now).2) :
    Separate plat dev l r io f g q := by
  refine ⟨?_,?_,?_⟩
  · intro record key abs row located stored
    exact kept.compared _ (located.compared stored)
  · intro record key abs path located newer overwrites other row place stored owner mapped same
    subst same
    refine (kept.file other row place stored owner mapped).1 ?_
    have touches := (touches_iff _).mpr ⟨record,key,abs,located,newer,overwrites⟩
    exact (destroyed_iff plat dev l f r io now place).mpr ((mem_touchedPaths_iff plat dev l r io _).mpr touches)
  · intro record key abs located newer replaces same
    refine kept.unshared plat dev l r io now f g q flat record _ (located.writesRow newer replaces) ?_
    rw [← same]
    exact (localKeyFor_iff plat.win l.db record.norm key).mpr located.named

/-- Receiving a change of `f` leaves another file `g` with the path `q` alone
exactly when the two are separate on this device. -/
theorem keeps_identity_iff (path : Str) (different : g ≠ f) (carried : PathUtil.normalizeRelative path = some q) :
    KeepsIdentity plat dev l r f g q (applyRemoteFile plat dev l f r io now).2 ↔
      Separate plat dev l r io f g q :=
  have flat := PathUtil.normalizeRelative_no_colon path q carried
  ⟨separate_of_keepsIdentity plat dev l r io now f g q flat,
    keepsIdentity_of_separate plat dev l r io now f g q different flat⟩

end

section
open KnownAnswers

/-- `notes.txt` is tracked as the file `g`. -/
private def otherTracked : Local where
  db := rooted.upsertFile ⟨lit "g",lit "home",lit "home:notes.txt",Crypto.sha256Hex sample (lit "hello"),
    Crypto.sha256Hex sample (lit "hello"),1,.empty,false,0⟩
  disk := ⟨Table.empty.upsert (wlit "c:\\notes\\notes.txt") (lit "hello"),[]⟩
  shadows := .empty
  backups := []
  online := true

theorem otherTracked_iff : lit "g" ≠ lit "f" ∧ PathUtil.normalizeRelative (lit "notes.txt") = some (lit "notes.txt") ∧
    (KeepsIdentity platform laptop otherTracked notesTombstone (lit "f") (lit "g") (lit "notes.txt")
        (applyRemoteFile platform laptop otherTracked (lit "f") notesTombstone workingIo 0).2 ↔
      Separate platform laptop otherTracked notesTombstone workingIo (lit "f") (lit "g") (lit "notes.txt")) :=
  ⟨by decide,by decide,keeps_identity_iff platform laptop otherTracked notesTombstone workingIo 0
    (lit "f") (lit "g") (lit "notes.txt") (lit "notes.txt") (by decide) (by decide +kernel)⟩

/-- The tombstone of `f` deletes the file of `g` and marks its row. -/
theorem other_file_deleted :
    ¬KeepsIdentity platform laptop otherTracked notesTombstone (lit "f") (lit "g") (lit "notes.txt")
      (applyRemoteFile platform laptop otherTracked (lit "f") notesTombstone workingIo 0).2 := by
  intro kept
  have before : (otherTracked.db.files.get (lit "home:notes.txt")).map (fun row => (row.fileId,row.deleted)) =
      some (lit "g",false) := by
    decide
  have after : ((applyRemoteFile platform laptop otherTracked (lit "f") notesTombstone workingIo 0).2.db.files.get
      (lit "home:notes.txt")).map (fun row => row.deleted) = some true := by
    rw [platform_numerals,notesTombstone,notesMetadata_numerals]
    decide +kernel
  obtain ⟨row,stored,fields⟩ := Option.map_eq_some_iff.mp before
  have same := (kept.rows (lit "home:notes.txt") row (congrArg Prod.fst fields)).mpr stored
  rw [same] at after
  have live : row.deleted = false := congrArg Prod.snd fields
  exact Bool.noConfusion ((Option.some.inj after).symm.trans live)

end
end NPSync.Engine
