import Mathlib
import NPSync.VectorStorage
import NPSync.Server.Mem

/-! The order of version vectors. A vector means the function `get`, in which an
absent entry is 0; `merge` and `dominates` are the join and the strict order of
these functions, as long as no counter is negative. -/
namespace NPSync.VersionVector

def NonNegative (vv : VersionVector) : Prop := ∀ e ∈ vv.entries, 0 ≤ e.2

/-! ### Entries and counters -/

theorem lookup_of_mem {entries : List (Str × Int)} (sorted : (entries.map Prod.fst).Pairwise (· < ·)) {e : Str × Int}
    (member : e ∈ entries) : lookup e.1 entries = e.2 := by
  induction entries with
  | nil => contradiction
  | cons first rest ih =>
    obtain ⟨name,v⟩ := first
    obtain ⟨least,tail⟩ := List.pairwise_cons.mp sorted
    rcases List.mem_cons.mp member with rfl | inside
    · exact if_pos rfl
    · have later : name ≠ e.1 := by
        intro same
        exact List.lt_irrefl _ (same ▸ least e.1 (List.mem_map_of_mem inside))
      rw [lookup,if_neg later,ih tail inside]

theorem lookup_of_absent {entries : List (Str × Int)} {device : Str} (absent : device ∉ entries.map Prod.fst) :
    lookup device entries = 0 := by
  induction entries with
  | nil => rfl
  | cons first rest ih =>
    obtain ⟨name,v⟩ := first
    rw [List.map_cons,List.mem_cons,not_or] at absent
    rw [lookup,if_neg (Ne.symm absent.1),ih absent.2]

variable {a b c vv o : VersionVector}

theorem get_of_mem {e : Str × Int} (member : e ∈ vv.entries) : vv.get e.1 = e.2 := lookup_of_mem vv.sorted member

theorem get_of_absent {device : Str} (absent : device ∉ vv.entries.map Prod.fst) : vv.get device = 0 :=
  lookup_of_absent absent

/-- A counter other than 0 has an entry. -/
theorem mem_of_get_ne_zero {device : Str} (counted : vv.get device ≠ 0) : (device,vv.get device) ∈ vv.entries := by
  by_cases present : device ∈ vv.entries.map Prod.fst
  · obtain ⟨e,member,rfl⟩ := List.mem_map.mp present
    rw [get_of_mem member]
    exact member
  · exact absurd (get_of_absent present) counted

theorem NonNegative.get (nonneg : vv.NonNegative) (device : Str) : 0 ≤ vv.get device := by
  by_cases counted : vv.get device = 0
  · rw [counted]
  · exact nonneg _ (mem_of_get_ne_zero counted)

theorem NonNegative.set (nonneg : vv.NonNegative) {value : Int} (positive : 0 ≤ value) (device : Str) :
    (vv.set device value).NonNegative := by
  intro e member
  rcases mem_setEntry_cases member with rfl | old
  · exact positive
  · exact nonneg e old

/-! ### Merging -/

theorem get_touch (vv : VersionVector) (device : Str) : (vv.touch device).get = vv.get := by
  funext other
  rw [touch,get_set]
  split
  · rename_i same
    rw [same]
  · rfl

/-- A round of `merge` raises one counter, if at all. -/
theorem get_mergeEntry (vv : VersionVector) (entry : Str × Int) (device : Str) :
    (vv.mergeEntry entry).get device = if entry.1 = device then max (vv.get device) entry.2 else vv.get device := by
  unfold mergeEntry
  split
  · rename_i larger
    rw [get_set,get_touch]
    split
    · rename_i here
      rw [← here]
      omega
    · rfl
  · rename_i small
    rw [get_touch]
    split
    · rename_i here
      rw [← here]
      omega
    · rfl

theorem get_foldl_mergeEntry {entries : List (Str × Int)} (sorted : (entries.map Prod.fst).Pairwise (· < ·)) {device : Str}
    (nonneg : 0 ≤ vv.get device) :
    (entries.foldl mergeEntry vv).get device = max (vv.get device) (lookup device entries) := by
  induction entries generalizing vv with
  | nil => exact (max_eq_left nonneg).symm
  | cons first rest ih =>
    obtain ⟨name,v⟩ := first
    obtain ⟨least,tail⟩ := List.pairwise_cons.mp sorted
    have once := get_mergeEntry vv (name,v) device
    rw [List.foldl_cons,ih tail (by rw [once]; split <;> omega),once,lookup]
    split
    · rename_i here
      have absent : device ∉ rest.map Prod.fst := fun inside => List.lt_irrefl _ (here ▸ least device inside)
      rw [lookup_of_absent absent]
      omega
    · rfl

theorem get_merge (nonneg : a.NonNegative) (device : Str) : (a.merge b).get device = max (a.get device) (b.get device) :=
  get_foldl_mergeEntry b.sorted (nonneg.get device)

theorem NonNegative.merge (first : a.NonNegative) (second : b.NonNegative) : (a.merge b).NonNegative := by
  have fold : ∀ entries : List (Str × Int), (∀ e ∈ entries, 0 ≤ e.2) → ∀ vv : VersionVector, vv.NonNegative →
      (entries.foldl mergeEntry vv).NonNegative := by
    intro entries
    induction entries with
    | nil => exact fun _ vv nonneg => nonneg
    | cons e rest ih =>
      intro positive vv nonneg
      have touched := nonneg.set (nonneg.get e.1) e.1
      apply ih fun other member => positive other (List.mem_cons_of_mem _ member)
      unfold mergeEntry
      split
      · exact touched.set (positive e List.mem_cons_self) e.1
      · exact touched
  exact fold b.entries second a first

/-! ### The order -/

theorem greaterLoop_eq (o : VersionVector) (greater : Bool) (entries : List (Str × Int)) :
    greaterLoop o greater entries = if ∀ e ∈ entries, o.get e.1 ≤ e.2 then
      some (greater || entries.any fun e => decide (o.get e.1 < e.2)) else none := by
  induction entries generalizing greater with
  | nil => simp [greaterLoop]
  | cons e rest ih =>
    unfold greaterLoop
    simp only [List.forall_mem_cons,List.any_cons,← Bool.or_assoc]
    by_cases small : e.2 < o.get e.1
    · rw [if_pos small,if_neg (by omega)]
    · have least : o.get e.1 ≤ e.2 := by omega
      rw [if_neg small,ih]
      simp only [least,true_and]

/-- The two loops of `dominates` as conditions on the entries. -/
theorem dominates_entries : a.dominates b = true ↔ (∀ e ∈ a.entries, b.get e.1 ≤ e.2) ∧
    (∀ e ∈ b.entries, 0 < e.2 → e.1 ∈ a.entries.map Prod.fst) ∧ ∃ e ∈ a.entries, b.get e.1 < e.2 := by
  have covered : (b.entries.any fun e => 0 < e.2 && a.count e.1 = 0) = true ↔
      ¬∀ e ∈ b.entries, 0 < e.2 → e.1 ∈ a.entries.map Prod.fst := by
    simp only [List.any_eq_true,Bool.and_eq_true,decide_eq_true_eq,count,List.count_eq_zero]
    push Not
    rfl
  have larger : (a.entries.any fun e => decide (b.get e.1 < e.2)) = true ↔ ∃ e ∈ a.entries, b.get e.1 < e.2 := by
    simp only [List.any_eq_true,decide_eq_true_eq]
  unfold dominates
  rw [greaterLoop_eq]
  split
  · rename_i failed
    split at failed
    · contradiction
    · rename_i least
      exact ⟨fun same => absurd same Bool.false_ne_true,fun holds => absurd holds.1 least⟩
  · rename_i greater found
    split at found
    · rename_i least
      obtain rfl := Option.some.inj found
      rw [Bool.false_or]
      split
      · rename_i missed
        exact ⟨fun same => absurd same Bool.false_ne_true,fun holds => absurd holds.2.1 (covered.mp missed)⟩
      · rename_i kept
        rw [covered,not_not] at kept
        rw [larger]
        exact ⟨fun strict => ⟨least,kept,strict⟩,fun holds => holds.2.2⟩
    · contradiction

/-- `dominates` is the strict pointwise order. -/
theorem dominates_iff (first : a.NonNegative) (second : b.NonNegative) : a.dominates b = true ↔ b.get < a.get := by
  rw [dominates_entries,Pi.lt_def,Pi.le_def]
  constructor
  · rintro ⟨least,covered,e,member,larger⟩
    refine ⟨fun device => ?_,e.1,by rwa [get_of_mem member]⟩
    by_cases counted : b.get device = 0
    · rw [counted]
      exact first.get device
    · have positive : 0 < b.get device := lt_of_le_of_ne (second.get device) (Ne.symm counted)
      obtain ⟨entry,present,rfl⟩ := List.mem_map.mp (covered _ (mem_of_get_ne_zero counted) positive)
      rw [get_of_mem present]
      exact least entry present
  · rintro ⟨least,device,larger⟩
    have positive := second.get device
    have entry : (device,a.get device) ∈ a.entries := mem_of_get_ne_zero (by omega)
    refine ⟨fun e member => ?_,fun e member counted => ?_,_,entry,larger⟩
    · rw [← get_of_mem member]
      exact least e.1
    · have bound : b.get e.1 ≤ a.get e.1 := least e.1
      rw [get_of_mem member] at bound
      have counted : a.get e.1 ≠ 0 := by omega
      exact List.mem_map.mpr ⟨_,mem_of_get_ne_zero counted,rfl⟩

/-- Two vectors that mean the same counters. -/
theorem dominates_or_equal (first : a.NonNegative) (second : b.NonNegative) :
    (a.get = b.get ∨ a.dominates b = true) ↔ b.get ≤ a.get := by
  rw [dominates_iff first second,eq_comm,← le_iff_eq_or_lt]

/-! ### The server's merge -/

/-- The server's map and the plugin's vector count alike. -/
def Records (vv : VersionVector) (v : Server.Vector) : Prop := ∀ device, vv.get device = (v.get device).getD 0

private theorem counted_foldl {rows : List (Str × Int)} (distinct : (rows.map Prod.fst).Nodup) {out : Server.Vector}
    {device : Str} (nonneg : 0 ≤ (out.get device).getD 0) :
    ((rows.foldl (fun out row => if (out.get row.1).getD 0 < row.2 then out.upsert row.1 row.2 else out) out).get
      device).getD 0 = max ((out.get device).getD 0) ((Library.Table.find device rows).getD 0) := by
  induction rows generalizing out with
  | nil => exact (max_eq_left nonneg).symm
  | cons row rest ih =>
    obtain ⟨absent,tail⟩ := List.nodup_cons.mp distinct
    have once : ((if (out.get row.1).getD 0 < row.2 then out.upsert row.1 row.2 else out).get device).getD 0 =
        if row.1 = device then max ((out.get device).getD 0) row.2 else (out.get device).getD 0 := by
      by_cases here : row.1 = device
      · rw [if_pos here,← here]
        split
        · rw [Library.Table.get_upsert_same,Option.getD_some]
          omega
        · omega
      · rw [if_neg here]
        split
        · rw [Library.Table.get_upsert_other _ _ _ _ (Ne.symm here)]
        · rfl
    rw [List.foldl_cons,ih tail (by rw [once]; split <;> omega),once,Library.Table.find]
    split
    · rename_i here
      have missing := (Library.Table.get_none_iff ⟨rest,tail⟩ device).mpr (here ▸ absent)
      change Library.Table.find device rest = none at missing
      rw [missing,Option.getD_none,Option.getD_some]
      omega
    · rfl

theorem Records.merge (nonneg : a.NonNegative) {x y : Server.Vector} (first : Records a x) (second : Records b y) :
    Records (a.merge b) (Server.mergeVersionVector x y) := by
  intro device
  have bound := nonneg.get device
  rw [first device] at bound
  rw [get_merge nonneg,first device,second device]
  exact (counted_foldl y.distinct bound).symm

/-! ### The laws -/

theorem get_bump_of_lt {device : Str} (nonneg : a.NonNegative) (small : a.get device < 2^63 - 1) (other : Str) :
    (a.bump device).get other = if device = other then a.get device + 1 else a.get other := by
  have bound := nonneg.get device
  rw [get_bump,wrap64_of_bounds (by omega) (by omega)]

theorem NonNegative.bump {device : Str} (nonneg : a.NonNegative) (small : a.get device < 2^63 - 1) :
    (a.bump device).NonNegative := by
  have bound := nonneg.get device
  apply nonneg.set
  rw [wrap64_of_bounds (by omega) (by omega)]
  omega

theorem bump_grows {device : Str} (nonneg : a.NonNegative) (small : a.get device < 2^63 - 1) :
    (a.bump device).dominates a = true ∧ ∀ other, other ≠ device → (a.bump device).get other = a.get other := by
  have counters := get_bump_of_lt nonneg small
  constructor
  · rw [dominates_iff (nonneg.bump small) nonneg,Pi.lt_def]
    refine ⟨fun other => ?_,device,?_⟩
    · rw [counters]
      split
      · rename_i same
        rw [← same]
        exact (lt_add_one _).le
      · exact le_refl _
    · rw [counters,if_pos rfl]
      exact lt_add_one _
  · intro other different
    rw [counters,if_neg (Ne.symm different)]

/-- The counters of vectors are a join-semilattice with `merge` as the join and
`dominates` as the strict order. -/
structure JoinLaws (a b c : VersionVector) : Prop where
  pointwise : ∀ device, (a.merge b).get device = max (a.get device) (b.get device)
  comm : ∀ device, (a.merge b).get device = (b.merge a).get device
  assoc : ∀ device, ((a.merge b).merge c).get device = (a.merge (b.merge c)).get device
  idem : ∀ device, (a.merge a).get device = a.get device
  server : ∀ x y : Server.Vector, Records a x → Records b y → Records (a.merge b) (Server.mergeVersionVector x y)
  order : a.dominates b = true ↔ (∀ device, b.get device ≤ a.get device) ∧ ∃ device, b.get device < a.get device
  irrefl : a.dominates a = false
  trans : a.dominates b = true → b.dominates c = true → a.dominates c = true
  left : (∀ device, (a.merge b).get device = a.get device) ∨ (a.merge b).dominates a = true
  right : (∀ device, (a.merge b).get device = b.get device) ∨ (a.merge b).dominates b = true
  least : (∀ device, a.get device ≤ c.get device) → (∀ device, b.get device ≤ c.get device) →
    (∀ device, c.get device = (a.merge b).get device) ∨ c.dominates (a.merge b) = true
  bump : ∀ device, a.get device < 2^63 - 1 → (a.bump device).dominates a = true ∧
    ∀ other, other ≠ device → (a.bump device).get other = a.get other

theorem join_semilattice (a b c : VersionVector) (first : a.NonNegative) (second : b.NonNegative) (third : c.NonNegative) :
    JoinLaws a b c := by
  have merged : (a.merge b).get = a.get ⊔ b.get := funext fun device => get_merge first device
  have both := first.merge second
  constructor
  case pointwise => exact fun device => get_merge first device
  case comm =>
    intro device
    rw [get_merge first,get_merge second,max_comm]
  case assoc =>
    intro device
    rw [get_merge both,get_merge first,get_merge first,get_merge second,max_assoc]
  case idem =>
    intro device
    rw [get_merge first,max_self]
  case server => exact fun x y => .merge first
  case order => rw [dominates_iff first second,Pi.lt_def,Pi.le_def]
  case irrefl =>
    rw [Bool.eq_false_iff,ne_eq,dominates_iff first first]
    exact lt_irrefl _
  case trans =>
    rw [dominates_iff first second,dominates_iff second third,dominates_iff first third]
    exact fun above below => lt_trans below above
  case left =>
    rw [← funext_iff,dominates_or_equal both first,merged]
    exact le_sup_left
  case right =>
    rw [← funext_iff,dominates_or_equal both second,merged]
    exact le_sup_right
  case least =>
    intro left right
    rw [← funext_iff,dominates_or_equal third both,merged]
    exact sup_le left right
  case bump => exact fun device small => bump_grows first small

/-- Vectors with a zero entry, apart from one another. -/
theorem join_semilattice_zero : JoinLaws (fromJson (lit "\x7b\"a\":1,\"b\":0\x7d")) (fromJson (lit "\x7b\"b\":2\x7d")) empty :=
  join_semilattice _ _ _ (by unfold NonNegative; decide) (by unfold NonNegative; decide) (by unfold NonNegative; decide)

/-! ### Concurrency -/

/-- Neither vector is pointwise at least the other. -/
def Diverged (a b : VersionVector) : Prop :=
  ¬(∀ device, b.get device ≤ a.get device) ∧ ¬∀ device, a.get device ≤ b.get device

/-- The same devices have an entry, be it 0 or not. -/
def SameDevices (a b : VersionVector) : Prop := ∀ device, a.count device = b.count device

theorem eq_of_get {a b : VersionVector} (devices : SameDevices a b) (counters : a.get = b.get) : a.entries = b.entries := by
  have keys : a.entries.map Prod.fst = b.entries.map Prod.fst :=
    (List.perm_iff_count.mpr devices).eq_of_pairwise (fun _ _ _ _ less more => absurd more (List.lt_asymm less)) a.sorted b.sorted
  have same : ∀ vv : VersionVector, vv.entries = (vv.entries.map Prod.fst).map fun device => (device,vv.get device) := by
    intro vv
    rw [List.map_map]
    refine (List.map_id _).symm.trans (List.map_congr_left fun e member => ?_)
    rw [Function.comp,get_of_mem member]
    rfl
  rw [same a,same b,keys,counters]

/-- `concurrent` is divergence except where the counters are all equal and only one
of the vectors spells some zero out. -/
theorem concurrent_iff_diverged (a b : VersionVector) (first : a.NonNegative) (second : b.NonNegative) :
    (a.concurrent b = true ↔ Diverged a b) ↔ (∃ device, a.get device ≠ b.get device) ∨ SameDevices a b := by
  have reads : a.concurrent b = true ↔ ¬b.get < a.get ∧ ¬a.get < b.get ∧ a.entries ≠ b.entries := by
    rw [← dominates_iff first second,← dominates_iff second first]
    simp [concurrent,equal,and_assoc]
  have diverged : Diverged a b ↔ ¬b.get ≤ a.get ∧ ¬a.get ≤ b.get := Iff.rfl
  rw [reads,diverged]
  by_cases counters : a.get = b.get
  · have alike : ¬∃ device, a.get device ≠ b.get device := fun ⟨device,differ⟩ => differ (congrFun counters device)
    rw [or_iff_right alike,counters]
    simp only [lt_self_iff_false,not_false_eq_true,true_and,le_refl,not_true_eq_false,false_and,iff_false,not_not]
    constructor
    · intro entries device
      rw [count,count,entries]
    · exact fun devices => eq_of_get devices counters
  · have entries : a.entries ≠ b.entries := fun same => counters (funext fun device => congrArg (lookup device) same)
    have differ : ∃ device, a.get device ≠ b.get device := Function.ne_iff.mp counters
    rw [le_iff_lt_or_eq,le_iff_lt_or_eq,eq_comm (a := b.get)]
    simp only [counters,or_false,entries,ne_eq,not_false_eq_true,and_true,differ,true_or]

theorem concurrent_iff_diverged_edited :
    ((fromJson (lit "\x7b\"a\":1\x7d")).concurrent (fromJson (lit "\x7b\"b\":1\x7d")) = true ↔
        Diverged (fromJson (lit "\x7b\"a\":1\x7d")) (fromJson (lit "\x7b\"b\":1\x7d"))) ↔
      (∃ device, (fromJson (lit "\x7b\"a\":1\x7d")).get device ≠ (fromJson (lit "\x7b\"b\":1\x7d")).get device) ∨
        SameDevices (fromJson (lit "\x7b\"a\":1\x7d")) (fromJson (lit "\x7b\"b\":1\x7d")) :=
  concurrent_iff_diverged _ _ (by unfold NonNegative; decide) (by unfold NonNegative; decide)

/-- Two vectors without a single edit are reported as a conflict. -/
theorem spelled_zero_concurrent : ¬((fromJson (lit "\x7b\"a\":0\x7d")).concurrent (fromJson (lit "\x7b\x7d")) = true ↔
    Diverged (fromJson (lit "\x7b\"a\":0\x7d")) (fromJson (lit "\x7b\x7d"))) := by
  have facts : (fromJson (lit "\x7b\"a\":0\x7d")).concurrent (fromJson (lit "\x7b\x7d")) = true ∧
      (fromJson (lit "\x7b\"a\":0\x7d")).entries = [(lit "a",0)] ∧ (fromJson (lit "\x7b\x7d")).entries = [] := by
    decide
  intro reported
  apply (reported.mp facts.1).1
  intro device
  rw [get,get,facts.2.1,facts.2.2,lookup,lookup]
  split
  · exact le_refl _
  · exact le_refl _

end NPSync.VersionVector
