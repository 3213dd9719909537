import NPSync.Library.Table

/-! A list of writes to a table, and the values that are nowhere afterwards. -/
namespace NPSync.Library.Table
variable {K V : Type} [DecidableEq K]

/-- One write; `none` removes the row. -/
def write (table : Table K V) (w : K × Option V) : Table K V :=
  match w.2 with
  | some value => table.upsert w.1 value
  | none => table.remove w.1

def writes (table : Table K V) (ws : List (K × Option V)) : Table K V := ws.foldl write table

/-- What the last write to the key leaves there. -/
def lastWrite (key : K) : List (K × Option V) → Option (Option V)
  | [] => none
  | w::rest =>
    match lastWrite key rest with
    | some value => some value
    | none => if w.1 = key then some w.2 else none

theorem get_write (table : Table K V) (w : K × Option V) (key : K) :
    (table.write w).get key = if w.1 = key then w.2 else table.get key := by
  obtain ⟨here,value⟩ := w
  unfold write
  cases value with
  | none =>
    rw [get_remove]
    exact if_congr eq_comm rfl rfl
  | some value =>
    rw [get_upsert]
    exact if_congr eq_comm rfl rfl

/-- A key holds what was last written there, or what it held. -/
theorem get_writes (table : Table K V) (ws : List (K × Option V)) (key : K) :
    (table.writes ws).get key = (lastWrite key ws).getD (table.get key) := by
  induction ws generalizing table with
  | nil => rfl
  | cons w rest ih =>
    have later := ih (table.write w)
    rw [get_write] at later
    rw [writes,List.foldl_cons,← writes,later,lastWrite]
    cases lastWrite key rest with
    | some value => rfl
    | none =>
      dsimp only [Option.getD_none]
      split
      · rfl
      · rfl

theorem lastWrite_none_iff (key : K) (ws : List (K × Option V)) : lastWrite key ws = none ↔ key ∉ ws.map Prod.fst := by
  induction ws with
  | nil => simp [lastWrite]
  | cons w rest ih =>
    rw [lastWrite,List.map_cons,List.mem_cons,not_or]
    cases last : lastWrite key rest with
    | some value =>
      rw [last] at ih
      simp only [reduceCtorEq,false_iff,not_and]
      exact fun _ absent => nomatch ih.mpr absent
    | none =>
      by_cases here : w.1 = key
      · simp [here]
      · simp only [if_neg here,true_iff]
        exact ⟨fun same => here same.symm,ih.mp last⟩

theorem mem_of_lastWrite {key : K} {value : Option V} {ws : List (K × Option V)} (last : lastWrite key ws = some value) :
    (key,value) ∈ ws := by
  induction ws with
  | nil => contradiction
  | cons w rest ih =>
    rw [lastWrite] at last
    split at last
    · rename_i later found
      rw [found] at ih
      exact List.mem_cons_of_mem _ (ih last)
    · split at last
      · rename_i here
        rw [← here,← Option.some.inj last]
        exact List.mem_cons_self
      · contradiction

theorem lastWrite_append (key : K) (first second : List (K × Option V)) :
    lastWrite key (first ++ second) = (lastWrite key second).or (lastWrite key first) := by
  induction first with
  | nil => simp [lastWrite]
  | cons w rest ih =>
    rw [List.cons_append,lastWrite,ih,lastWrite]
    cases lastWrite key second with
    | none => rfl
    | some value => rfl

/-- A value written last by the first writes is not written over by the second. -/
theorem exists_lastWrite_append_iff (first second : List (K × Option V)) (value : V) :
    (∃ key, lastWrite key (first ++ second) = some (some value)) ↔
      (∃ key, lastWrite key second = some (some value)) ∨
        ∃ key, key ∉ second.map Prod.fst ∧ lastWrite key first = some (some value) := by
  simp only [lastWrite_append,Option.or_eq_some_iff,lastWrite_none_iff,exists_or]

theorem writes_append (table : Table K V) (first second : List (K × Option V)) :
    table.writes (first ++ second) = (table.writes first).writes second := List.foldl_append

/-- After the writes a value is somewhere exactly when it was written last
somewhere, or was where nothing was written. -/
theorem exists_get_writes_iff (table : Table K V) (ws : List (K × Option V)) (value : V) :
    (∃ key, (table.writes ws).get key = some value) ↔
      (∃ key, lastWrite key ws = some (some value)) ∨ ∃ key, key ∉ ws.map Prod.fst ∧ table.get key = some value := by
  constructor
  · rintro ⟨key,found⟩
    rw [get_writes] at found
    cases last : lastWrite key ws with
    | some written =>
      rw [last] at found
      exact .inl ⟨key,last.trans (congrArg some found)⟩
    | none =>
      rw [last] at found
      exact .inr ⟨key,(lastWrite_none_iff key ws).mp last,found⟩
  · rintro (⟨key,last⟩ | ⟨key,absent,found⟩)
    · exact ⟨key,by rw [get_writes,last]; rfl⟩
    · exact ⟨key,by rw [get_writes,(lastWrite_none_iff key ws).mpr absent]; exact found⟩

/-- Every value that the writes replace is spared or elsewhere, exactly when this
is so of the values at the keys that are written. -/
theorem replaced_elsewhere_iff (table : Table K V) (ws : List (K × Option V)) (spared : V → Prop) :
    (∀ key value, table.get key = some value → (table.writes ws).get key ≠ some value →
        spared value ∨ ∃ other, (table.writes ws).get other = some value) ↔
      ∀ key ∈ ws.map Prod.fst, ∀ value, table.get key = some value →
        spared value ∨ (∃ other, lastWrite other ws = some (some value)) ∨
          ∃ other, other ∉ ws.map Prod.fst ∧ table.get other = some value := by
  simp only [exists_get_writes_iff]
  constructor
  · intro kept key written value held
    by_cases same : (table.writes ws).get key = some value
    · exact .inr ((exists_get_writes_iff table ws value).mp ⟨key,same⟩)
    · exact kept key value held same
  · intro kept key value held replaced
    by_cases written : key ∈ ws.map Prod.fst
    · exact kept key written value held
    · exact .inr (.inr ⟨key,written,held⟩)

end NPSync.Library.Table
