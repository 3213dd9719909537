import NPSync.Text

/-! `core/VersionVector.cpp`. The entries are a `std::map`, so they are kept in
the byte order of the device names; counters are `int64_t`. -/
namespace NPSync

structure VersionVector where
  entries : List (Str × Int)
  sorted : (entries.map Prod.fst).Pairwise (· < ·)

namespace VersionVector

def empty : VersionVector := ⟨[],List.Pairwise.nil⟩

def lookup (device : Str) : List (Str × Int) → Int
  | [] => 0
  | (name,v)::rest => if name = device then v else lookup device rest

/-- `entries[device] = value`. -/
def setEntry (device : Str) (value : Int) : List (Str × Int) → List (Str × Int)
  | [] => [(device,value)]
  | (name,v)::rest =>
    if device = name then (name,value)::rest
    else if device < name then (device,value)::(name,v)::rest
    else (name,v)::setEntry device value rest

private theorem mem_setEntry (device name : Str) (value : Int) (entries : List (Str × Int))
    (member : name ∈ (setEntry device value entries).map Prod.fst) :
    name = device ∨ name ∈ entries.map Prod.fst := by
  induction entries with
  | nil => exact Or.inl (by simpa [setEntry] using member)
  | cons first rest ih =>
    obtain ⟨here,v⟩ := first
    unfold setEntry at member
    split at member
    · exact Or.inr (by simpa using member)
    split at member
    · simpa using member
    · simp only [List.map_cons,List.mem_cons] at member ⊢
      rcases member with same | inside
      · exact Or.inr (Or.inl same)
      · rcases ih inside with same | old
        · exact Or.inl same
        · exact Or.inr (Or.inr old)

theorem setEntry_sorted (device : Str) (value : Int) (entries : List (Str × Int))
    (sorted : (entries.map Prod.fst).Pairwise (· < ·)) :
    ((setEntry device value entries).map Prod.fst).Pairwise (· < ·) := by
  induction entries with
  | nil => simp [setEntry]
  | cons first rest ih =>
    obtain ⟨name,v⟩ := first
    obtain ⟨least,tail⟩ := List.pairwise_cons.mp sorted
    unfold setEntry
    split
    · exact sorted
    split
    · rename_i before
      refine List.pairwise_cons.mpr ⟨?_,sorted⟩
      intro other member
      rcases List.mem_cons.mp member with rfl | inside
      · exact before
      · exact List.lt_trans before (least other inside)
    · rename_i different notBefore
      refine List.pairwise_cons.mpr ⟨?_,ih tail⟩
      intro other member
      rcases mem_setEntry device other value rest member with rfl | inside
      · by_contra notAfter
        exact different (List.le_antisymm notAfter notBefore)
      · exact least other inside

def get (vv : VersionVector) (device : Str) : Int := lookup device vv.entries

def set (vv : VersionVector) (device : Str) (value : Int) : VersionVector :=
  ⟨setEntry device value vv.entries,setEntry_sorted device value vv.entries vv.sorted⟩

/-- `++entries[device]`. -/
def bump (vv : VersionVector) (device : Str) : VersionVector := vv.set device (wrap64 (vv.get device + 1))

theorem lookup_setEntry (device other : Str) (value : Int) (entries : List (Str × Int)) :
    lookup other (setEntry device value entries) = if device = other then value else lookup other entries := by
  induction entries with
  | nil => rfl
  | cons first rest ih =>
    obtain ⟨name,v⟩ := first
    unfold setEntry
    split
    · rename_i here
      rw [lookup,lookup,here]
      split
      · rfl
      · rfl
    split
    · rfl
    · rename_i different _
      rw [lookup,lookup,ih]
      by_cases same : name = other
      · have apart : device ≠ other := fun equal => different (equal.trans same.symm)
        rw [if_pos same,if_neg apart,if_pos same]
      · rw [if_neg same,if_neg same]

theorem get_set (vv : VersionVector) (device other : Str) (value : Int) :
    (vv.set device value).get other = if device = other then value else vv.get other :=
  lookup_setEntry device other value vv.entries

theorem get_bump (vv : VersionVector) (device other : Str) :
    (vv.bump device).get other = if device = other then wrap64 (vv.get device + 1) else vv.get other :=
  get_set vv device other _

/-- `entries[device]` as a read: an absent entry is inserted with 0. -/
def touch (vv : VersionVector) (device : Str) : VersionVector := vv.set device (vv.get device)

/-- `entries.count(device)`. -/
def count (vv : VersionVector) (device : Str) : Nat := (vv.entries.map Prod.fst).count device

def mergeEntry (vv : VersionVector) (entry : Str × Int) : VersionVector :=
  if vv.get entry.1 < entry.2 then (vv.touch entry.1).set entry.1 entry.2 else vv.touch entry.1

def merge (vv other : VersionVector) : VersionVector := other.entries.foldl mergeEntry vv

/-- The first loop of `dominates`; `none` is its early return. -/
def greaterLoop (o : VersionVector) (greater : Bool) : List (Str × Int) → Option Bool
  | [] => some greater
  | (dev,v)::rest => if v < o.get dev then none else greaterLoop o (greater || decide (o.get dev < v)) rest

def dominates (vv o : VersionVector) : Bool :=
  match greaterLoop o false vv.entries with
  | none => false
  | some greater => if o.entries.any (fun (dev,v) => 0 < v && vv.count dev = 0) then false else greater

def equal (vv o : VersionVector) : Bool := vv.entries = o.entries

def concurrent (vv o : VersionVector) : Bool := !vv.dominates o && !o.dominates vv && !vv.equal o

def entriesJson : List (Str × Int) → Str
  | [] => []
  | [(device,v)] => lit "\"" ++ device ++ lit "\":" ++ decimal v
  | (device,v)::rest => lit "\"" ++ device ++ lit "\":" ++ decimal v ++ lit "," ++ entriesJson rest

def toJson (vv : VersionVector) : Str := lit "\x7b" ++ entriesJson vv.entries ++ lit "\x7d"

def isspace (c : UInt8) : Bool := c = 32 || (9 ≤ c && c ≤ 13)

def isdigit (c : UInt8) : Bool := 48 ≤ c && c ≤ 57

def skipWs (text : Str) : Str := text.dropWhile isspace

def skip (c : UInt8) (text : Str) : Str :=
  match text with
  | first::rest => if first = c then rest else text
  | [] => []

/-- The digits loop; the sum wraps as the 64-bit register does. -/
def number (digits : Str) : Int := digits.foldl (fun val c => wrap64 (val * 10 + ((c.toNat : Int) - 48))) 0

/-- Loop of `fromJson`. Every round consumes a quote, so `fuel` never runs out
when it is at least the length of the text. -/
def fromJsonLoop : (fuel : Nat) → Str → VersionVector → VersionVector
  | 0,_,vv => vv
  | fuel + 1,text,vv =>
    match skipWs text with
    | 34::rest =>
      let key := rest.takeWhile (· ≠ 34)
      let afterKey := skipWs (skip 58 (skipWs (skip 34 (rest.dropWhile (· ≠ 34)))))
      let negative := afterKey.head? = some 45
      let digits := (skip 45 afterKey).takeWhile isdigit
      let vv := if digits ≠ [] ∧ ¬negative then vv.set key (number digits) else vv
      fromJsonLoop fuel (skip 44 (skipWs ((skip 45 afterKey).dropWhile isdigit))) vv
    | _ => vv

def fromJson (json : Str) : VersionVector :=
  match skipWs json with
  | 123::rest => fromJsonLoop rest.length rest empty
  | _ => empty

example : (fromJson (lit "\x7b\"a\":1, \"b\":-2,\"c\":30\x7d")).toJson = lit "\x7b\"a\":1,\"c\":30\x7d" := by
  decide

end VersionVector
end NPSync
