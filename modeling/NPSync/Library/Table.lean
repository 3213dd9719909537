import Mathlib.Data.List.Nodup
import Mathlib.Data.List.Basic

/-! Finite tables with a primary key. A row keeps its position when it is
replaced and a new row goes to the end, so the order of the rows is the order
of first insertion. Distinctness of the keys is a field of the table. -/
namespace NPSync.Library

structure Table (K V : Type) where
  rows : List (K × V)
  distinct : (rows.map Prod.fst).Nodup

namespace Table
variable {K V : Type} [DecidableEq K]

def empty : Table K V := ⟨[],List.nodup_nil⟩

def find (key : K) : List (K × V) → Option V
  | [] => none
  | row::rest => if row.1 = key then some row.2 else find key rest

def replace (key : K) (value : V) : List (K × V) → List (K × V)
  | [] => [(key,value)]
  | row::rest => if row.1 = key then (key,value)::rest else row::replace key value rest

def get (table : Table K V) (key : K) : Option V := find key table.rows

omit [DecidableEq K] in
theorem keys_filter_nodup (keep : K × V → Bool) (rows : List (K × V))
    (distinct : (rows.map Prod.fst).Nodup) : ((rows.filter keep).map Prod.fst).Nodup :=
  distinct.sublist (List.filter_sublist.map Prod.fst)

theorem mem_replace_keys (key other : K) (value : V) (rows : List (K × V)) :
    other ∈ (replace key value rows).map Prod.fst ↔ other = key ∨ other ∈ rows.map Prod.fst := by
  induction rows with
  | nil => simp [replace]
  | cons row rest ih =>
    by_cases same : row.1 = key
    · simp only [replace,same,if_true,List.map_cons,List.mem_cons]
      tauto
    · simp only [replace,same,if_false,List.map_cons,List.mem_cons,ih]
      tauto

theorem replace_nodup (key : K) (value : V) (rows : List (K × V))
    (distinct : (rows.map Prod.fst).Nodup) : ((replace key value rows).map Prod.fst).Nodup := by
  induction rows with
  | nil => simp [replace]
  | cons row rest ih =>
    have parts := List.nodup_cons.mp distinct
    by_cases same : row.1 = key
    · simpa only [replace,same,if_true,List.map_cons] using same ▸ distinct
    · simp only [replace,same,if_false,List.map_cons]
      refine List.nodup_cons.mpr ⟨?_,ih parts.2⟩
      intro member
      rcases (mem_replace_keys key row.1 value rest).mp member with equal | inside
      · exact same equal
      · exact parts.1 inside

def upsert (table : Table K V) (key : K) (value : V) : Table K V :=
  ⟨replace key value table.rows,replace_nodup key value table.rows table.distinct⟩

def remove (table : Table K V) (key : K) : Table K V :=
  ⟨table.rows.filter (fun row => !decide (row.1 = key)),keys_filter_nodup _ _ table.distinct⟩

@[simp] theorem get_empty (key : K) : (empty : Table K V).get key = none := rfl

private theorem find_replace (key other : K) (value : V) (rows : List (K × V)) :
    find other (replace key value rows) = if other = key then some value else find other rows := by
  induction rows with
  | nil =>
    by_cases same : other = key
    · simp [replace,find,same]
    · simp [replace,find,same,Ne.symm same]
  | cons row rest ih =>
    by_cases here : row.1 = key
    · by_cases same : other = key
      · simp [replace,find,here,same]
      · simp [replace,find,here,same,Ne.symm same]
    · by_cases same : other = key
      · simp [replace,find,here,same ▸ ih,same]
      · simp [replace,find,here,ih,same]

theorem get_upsert (table : Table K V) (key other : K) (value : V) :
    (table.upsert key value).get other = if other = key then some value else table.get other :=
  find_replace key other value table.rows

@[simp] theorem get_upsert_same (table : Table K V) (key : K) (value : V) :
    (table.upsert key value).get key = some value := by
  simp [get_upsert]

theorem get_upsert_other (table : Table K V) (key other : K) (value : V) (different : other ≠ key) :
    (table.upsert key value).get other = table.get other := by
  simp [get_upsert,different]

theorem get_remove (table : Table K V) (key other : K) :
    (table.remove key).get other = if other = key then none else table.get other := by
  rcases table with ⟨rows,distinct⟩
  simp only [get,remove]
  clear distinct
  induction rows with
  | nil => simp [find]
  | cons row rest ih =>
    by_cases here : row.1 = key
    · by_cases same : other = key
      · simpa [find,here,same] using ih
      · simpa [find,here,same,Ne.symm same] using ih
    · by_cases there : row.1 = other
      · subst there
        simp [find,here]
      · simpa [find,here,there] using ih

@[simp] theorem get_remove_same (table : Table K V) (key : K) :
    (table.remove key).get key = none := by
  simp [get_remove]

theorem get_remove_other (table : Table K V) (key other : K) (different : other ≠ key) :
    (table.remove key).get other = table.get other := by
  simp [get_remove,different]

/-- With distinct keys a row is in the table exactly when its key reads it. -/
theorem mem_rows_iff (table : Table K V) (key : K) (value : V) :
    (key,value) ∈ table.rows ↔ table.get key = some value := by
  rcases table with ⟨rows,distinct⟩
  simp only [get]
  induction rows with
  | nil => simp [find]
  | cons row rest ih =>
    have parts := List.nodup_cons.mp distinct
    by_cases here : row.1 = key
    · have absent : (key,value) ∉ rest := fun member =>
        parts.1 (here ▸ List.mem_map.mpr ⟨(key,value),member,rfl⟩)
      simp only [find,here,if_true,List.mem_cons,absent,or_false,Option.some.injEq]
      constructor
      · intro equal
        exact (congrArg Prod.snd equal).symm
      · intro equal
        rw [← here,← equal]
    · have other : (key,value) ≠ row := fun equal => here (congrArg Prod.fst equal).symm
      simpa only [find,here,if_false,List.mem_cons,other,false_or] using ih parts.2

def keys (table : Table K V) : List K := table.rows.map Prod.fst

theorem get_none_iff (table : Table K V) (key : K) : table.get key = none ↔ key ∉ table.keys := by
  rcases table with ⟨rows,distinct⟩
  simp only [get,keys]
  clear distinct
  induction rows with
  | nil => simp [find]
  | cons row rest ih =>
    by_cases here : row.1 = key
    · simp [find,here]
    · simpa [find,here,Ne.symm here] using ih

private theorem replace_keys (key : K) (value : V) (rows : List (K × V)) :
    (replace key value rows).map Prod.fst =
      if key ∈ rows.map Prod.fst then rows.map Prod.fst else rows.map Prod.fst ++ [key] := by
  induction rows with
  | nil => simp [replace]
  | cons row rest ih =>
    by_cases here : row.1 = key
    · simp [replace,here]
    · simp only [replace,here,if_false,List.map_cons,ih,List.mem_cons,Ne.symm here,false_or]
      split
      · rfl
      · rfl

/-- A replaced row keeps its place and a new one goes to the end. -/
theorem keys_upsert (table : Table K V) (key : K) (value : V) :
    (table.upsert key value).keys = if key ∈ table.keys then table.keys else table.keys ++ [key] :=
  replace_keys key value table.rows

/-- The rows whose value passes the test. -/
def filterValues (table : Table K V) (keep : V → Bool) : Table K V :=
  ⟨table.rows.filter (fun row => keep row.2),keys_filter_nodup _ _ table.distinct⟩

theorem get_filterValues (table : Table K V) (keep : V → Bool) (key : K) :
    (table.filterValues keep).get key = (table.get key).filter keep := by
  rcases table with ⟨rows,distinct⟩
  simp only [get,filterValues]
  induction rows with
  | nil => simp [find]
  | cons row rest ih =>
    have parts := List.nodup_cons.mp distinct
    by_cases kept : keep row.2 = true
    · by_cases here : row.1 = key
      · simp [find,kept,here,Option.filter]
      · simpa [find,kept,here] using ih parts.2
    · by_cases here : row.1 = key
      · have absent : find key rest = none := by
          have missing := (get_none_iff ⟨rest,parts.2⟩ key).mpr (here ▸ parts.1)
          exact missing
        simpa [find,kept,here,absent,Option.filter] using ih parts.2
      · simpa [find,kept,here] using ih parts.2

/-- Every value replaced by its image. -/
def mapValues (table : Table K V) (f : V → V) : Table K V :=
  ⟨table.rows.map (fun row => (row.1,f row.2)),by simpa [List.map_map,Function.comp_def] using table.distinct⟩

theorem get_mapValues (table : Table K V) (f : V → V) (key : K) :
    (table.mapValues f).get key = (table.get key).map f := by
  rcases table with ⟨rows,distinct⟩
  simp only [get,mapValues]
  clear distinct
  induction rows with
  | nil => rfl
  | cons row rest ih =>
    by_cases here : row.1 = key
    · simp [find,here]
    · simpa [find,here] using ih

/-- A search through the values finds a stored one that passes. -/
theorem find_value_some {table : Table K V} (test : V → Bool) {value : V}
    (found : (table.rows.find? (fun row => test row.2)).map Prod.snd = some value) :
    ∃ key, table.get key = some value ∧ test value = true := by
  obtain ⟨⟨key,stored⟩,here,rfl⟩ := Option.map_eq_some_iff.mp found
  have passes : test stored = true := List.find?_some (p := fun row : K × V => test row.2) here
  exact ⟨key,(table.mem_rows_iff key stored).mp (List.mem_of_find?_eq_some here),passes⟩

theorem find_value_none {table : Table K V} (test : V → Bool)
    (missing : (table.rows.find? (fun row => test row.2)).map Prod.snd = none) {key : K} {value : V}
    (found : table.get key = some value) : test value = false := by
  have absent := List.find?_eq_none.mp (Option.map_eq_none_iff.mp missing) (key,value) ((table.mem_rows_iff key value).mpr found)
  simpa using absent

/-- How many values pass the test. -/
def count (table : Table K V) (test : V → Bool) : Nat := (table.rows.filter (fun row => test row.2)).length

private theorem count_replace (key : K) (value : V) (test : V → Bool) (rows : List (K × V)) :
    ((replace key value rows).filter (fun row => test row.2)).length + (match find key rows with
      | some old => if test old then 1 else 0
      | none => 0) = (rows.filter (fun row => test row.2)).length + if test value then 1 else 0 := by
  induction rows with
  | nil => cases passes : test value <;> simp [replace,find,passes]
  | cons row rest ih =>
    by_cases here : row.1 = key
    · cases before : test row.2 <;> cases passes : test value <;> simp [replace,find,here,before,passes]
    · simp only [replace,find,here,if_false,List.filter_cons]
      split
      · simp only [List.length_cons]
        omega
      · exact ih

theorem count_upsert (table : Table K V) (key : K) (value : V) (test : V → Bool) :
    (table.upsert key value).count test + (match table.get key with
      | some old => if test old then 1 else 0
      | none => 0) = table.count test + if test value then 1 else 0 :=
  count_replace key value test table.rows

theorem count_upsert_le (table : Table K V) (key : K) (value : V) (test : V → Bool) :
    (table.upsert key value).count test ≤ table.count test + if test value then 1 else 0 := by
  have total := table.count_upsert key value test
  omega

/-- A value that passes only if the old one did adds nothing. -/
theorem count_upsert_kept (table : Table K V) (key : K) (value old : V) (test : V → Bool) (found : table.get key = some old)
    (kept : test value = true → test old = true) : (table.upsert key value).count test ≤ table.count test := by
  have total := table.count_upsert key value test
  rw [found] at total
  dsimp only at total
  by_cases passes : test value = true
  · rw [if_pos passes,if_pos (kept passes)] at total
    omega
  · rw [if_neg passes] at total
    omega

/-! ### Secondary indexes -/

section
variable {I : Type} [DecidableEq I] {table : Table I V} {index : Table K I} {keyOf : V → Option K}

/-- The index maps exactly the keys of the rows to the rows that have them. -/
def IsIndex (table : Table I V) (index : Table K I) (keyOf : V → Option K) : Prop :=
  ∀ key id, index.get key = some id ↔ (table.get id).bind keyOf = some key

theorem empty_isIndex (keyOf : V → Option K) : IsIndex (empty : Table I V) (empty : Table K I) keyOf := by
  intro key id
  simp

/-- A row that keeps its key, or that is new and has none, leaves the index right. -/
theorem IsIndex.keep (indexed : IsIndex table index keyOf) (id : I) (value : V)
    (same : keyOf value = (table.get id).bind keyOf) : IsIndex (table.upsert id value) index keyOf := by
  intro key other
  rw [indexed key other,get_upsert]
  split
  · rename_i here
    rw [here,← same]
    rfl
  · rfl

/-- A row that gets a key nobody has is entered into the index. -/
theorem IsIndex.add (indexed : IsIndex table index keyOf) (id : I) (value : V) (key : K)
    (unkeyed : (table.get id).bind keyOf = none) (keyed : keyOf value = some key) (free : index.get key = none) :
    IsIndex (table.upsert id value) (index.upsert key id) keyOf := by
  intro asked other
  rw [get_upsert,get_upsert]
  by_cases here : other = id
  · by_cases new : asked = key
    · simp [here,new,keyed]
    · have absent : index.get asked ≠ some id := fun found => by
        rw [(indexed asked id).mp found] at unkeyed
        contradiction
      simp [here,new,keyed,Ne.symm new,absent]
  · by_cases new : asked = key
    · have absent : (table.get other).bind keyOf ≠ some key := fun found => by
        rw [(indexed key other).mpr found] at free
        contradiction
      simpa [here,new,Ne.symm here] using absent
    · simpa [here,new] using indexed asked other

/-- No two rows have the same key. -/
theorem IsIndex.unique (indexed : IsIndex table index keyOf) {first second : I} {a b : V} {key : K}
    (here : table.get first = some a) (there : table.get second = some b) (keyed : keyOf a = some key)
    (same : keyOf b = some key) : first = second := by
  have one := (indexed key first).mpr (by rw [here]; exact keyed)
  have two := (indexed key second).mpr (by rw [there]; exact same)
  exact Option.some.inj (one.symm.trans two)

end

end Table
end NPSync.Library
