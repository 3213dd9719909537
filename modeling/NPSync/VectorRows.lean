import NPSync.LocalDb
import NPSync.VectorStorage

/-! Version vectors in the rows of `files`. SQLite is given its texts as C strings, so what
is bound of a text ends at its first NUL. -/
namespace NPSync
open Library

/-- `Stmt::bind` of a text: `sqlite3_bind_text` of `v.c_str()` up to the NUL. -/
def boundText (v : Str) : Str := v.takeWhile (· ≠ 0)

theorem boundText_eq {v : Str} (plain : 0 ∉ v) : boundText v = v := by
  rw [boundText,List.takeWhile_eq_self_iff]
  intro c member
  exact decide_eq_true fun nul => plain (nul ▸ member)

def FileRow.bound (row : FileRow) : FileRow :=
  ⟨boundText row.fileId,boundText row.syncRoot,boundText row.localHash,boundText row.remoteHash,row.remoteVersion,
    boundText row.versionVector,row.deleted,row.modifiedLocal⟩

namespace LocalDb

/-- `upsertFile` of a record with any texts. -/
def upsertBound (db : LocalDb) (f : LocalFileState) : LocalDb :=
  {db with files := db.files.upsert (boundText f.relPath) (toRow f).bound}

/-- `getFile` for any path. -/
def getBound (db : LocalDb) (relPath : Str) : Option LocalFileState :=
  (db.files.get (boundText relPath)).map (ofRow relPath)

theorem getBound_upsertBound (db : LocalDb) (f : LocalFileState) :
    (db.upsertBound f).getBound f.relPath = some (ofRow f.relPath (toRow f).bound) := by
  rw [getBound,upsertBound,Table.get_upsert_same]
  rfl

end LocalDb

namespace VersionVector

/-- Names without a quote and without a NUL, and counters that are not negative. -/
def Storable (vv : VersionVector) : Prop := ∀ e ∈ vv.entries, 34 ∉ e.1 ∧ 0 ∉ e.1 ∧ 0 ≤ e.2 ∧ e.2 < 2^63

theorem Storable.plain {vv : VersionVector} (storable : vv.Storable) : vv.Plain := by
  intro e member
  obtain ⟨unquoted,-,low,high⟩ := storable e member
  exact ⟨unquoted,by omega,high⟩

theorem Storable.kept {vv : VersionVector} (storable : vv.Storable) : vv.entries.filter (fun e => 0 ≤ e.2) = vv.entries := by
  rw [List.filter_eq_self]
  exact fun e member => decide_eq_true (storable e member).2.2.1

theorem no_nul_in_decimal (v : Int) : 0 ∉ decimal v := by
  have digits : 0 ∉ decimalNat v.natAbs := fun nul => absurd (decimalNat_isdigit _ 0 nul) (by decide)
  intro nul
  unfold decimal at nul
  split at nul
  · rcases List.mem_append.mp nul with sign | digit
    · exact absurd sign (by decide)
    · exact digits digit
  · exact digits nul

theorem mem_entriesPieces {entries : List (Str × Int)} {piece : Str} (member : piece ∈ entriesPieces entries) :
    piece = lit "," ∨ ∃ e ∈ entries, piece ∈ entryPieces e := by
  induction entries with
  | nil => exact absurd member List.not_mem_nil
  | cons e rest ih =>
    cases rest with
    | nil => exact .inr ⟨e,List.mem_cons_self,member⟩
    | cons second others =>
      rw [entriesPieces_cons] at member
      rcases List.mem_append.mp member with here | after
      · exact .inr ⟨e,List.mem_cons_self,here⟩
      rcases List.mem_cons.mp after with comma | later
      · exact .inl comma
      · exact (ih later).imp_right fun ⟨other,inside,there⟩ => ⟨other,List.mem_cons_of_mem _ inside,there⟩

theorem no_nul_in_entryPieces {e : Str × Int} (named : 0 ∉ e.1) : ∀ piece ∈ entryPieces e, 0 ∉ piece := by
  have quote : (0 : UInt8) ∉ lit "\"" := by decide
  have colon : (0 : UInt8) ∉ lit ":" := by decide
  intro piece member
  simp only [entryPieces,List.mem_cons,List.not_mem_nil,or_false] at member
  rcases member with rfl | rfl | rfl
  · simp only [List.mem_append,not_or]
    exact ⟨⟨quote,named⟩,quote⟩
  · exact colon
  · exact no_nul_in_decimal e.2

theorem no_nul_in_toJson {vv : VersionVector} (named : ∀ e ∈ vv.entries, 0 ∉ e.1) : 0 ∉ vv.toJson := by
  rw [← pieces_flatten,List.mem_flatten]
  rintro ⟨piece,member,nul⟩
  rcases List.mem_cons.mp member with rfl | member
  · exact absurd nul (by decide)
  rcases List.mem_append.mp member with entry | last
  · rcases mem_entriesPieces entry with rfl | ⟨e,inside,part⟩
    · exact absurd nul (by decide)
    · exact no_nul_in_entryPieces (named e inside) piece part nul
  · rw [List.mem_singleton.mp last] at nul
    exact absurd nul (by decide)

/-- A vector comes back from its text, with any blanks in it, and from the row of a file. -/
theorem vectors_survive_storage (vv : VersionVector) (storable : vv.Storable) :
    fromJson vv.toJson = vv ∧
    vv.pieces.flatten = vv.toJson ∧
    (∀ text, Spaced Blank vv.pieces text → fromJson text = vv) ∧
    ∀ (db : LocalDb) (f : LocalFileState), f.versionVector = vv →
      (∃ row, (db.upsertFile f).getFile f.relPath = some row ∧ row.versionVector = vv) ∧
      ∃ row, (db.upsertBound f).getBound f.relPath = some row ∧ row.versionVector = vv := by
  have spaced : ∀ text, Spaced Blank vv.pieces text → fromJson text = vv := fun text pieces =>
    eq_of_entries ((fromJson_spaced storable.plain pieces).trans storable.kept)
  have json : fromJson vv.toJson = vv := spaced _ (vv.pieces_flatten ▸ Spaced.flatten vv.pieces)
  refine ⟨json,vv.pieces_flatten,spaced,?_⟩
  rintro db f rfl
  have whole := boundText_eq (no_nul_in_toJson fun e member => (storable e member).2.1)
  refine ⟨⟨_,db.getFile_upsertFile_same f,json⟩,_,db.getBound_upsertBound f,?_⟩
  show fromJson (boundText f.versionVector.toJson) = f.versionVector
  rw [whole,json]

/-- A name with a brace and a backslash, a zero entry, and the largest counter. -/
def laptopVector : VersionVector := ⟨[(lit "laptop",0),(lit "\x7b\\ office",9223372036854775807)],by decide⟩

theorem laptop_vector_survives :
    laptopVector.toJson = lit "\x7b\"laptop\":0,\"\x7b\\ office\":9223372036854775807\x7d" ∧
    fromJson laptopVector.toJson = laptopVector ∧
    ∃ row, (LocalDb.empty.upsertBound {LocalFileState.fresh with versionVector := laptopVector}).getBound [] = some row ∧
      row.versionVector = laptopVector := by
  have survives := vectors_survive_storage laptopVector (by unfold Storable; decide)
  exact ⟨by decide,survives.1,(survives.2.2.2 LocalDb.empty {LocalFileState.fresh with versionVector := laptopVector} rfl).2⟩

end VersionVector
end NPSync
