import NPSync.KeySetup

/-! `Crypto::generateRecoveryKey` and `normalizeRecoveryKey`: the key as it is shown,
and what is typed back for it. -/
namespace NPSync.RecoveryKeys
open KeySetup (upper)

def alphabet : Str := lit "ABCDEFGHJKMNPQRSTUVWXYZ23456789"

def keyPrefix : Str := lit "NPSYNC"

/-- The loop of both functions over the positions from `start` on. -/
def groupedFrom (start : Nat) (body : Str) : Str :=
  (body.zipIdx start).flatMap fun c => if 0 < c.2 ∧ c.2 % 4 = 0 then [45,c.1] else [c.1]

def grouped (body : Str) : Str := groupedFrom 0 body

/-- `alphabet[b % 32]`; after its last letter the array has its NUL. -/
def symbol (b : UInt8) : UInt8 := alphabet.getD (b.toNat % 32) 0

abbrev Draw := {raw : Bytes // raw.length = 20}

def generateRecoveryKey (raw : Draw) : Str := lit "NPSYNC-" ++ grouped (raw.1.map symbol)

def blank (c : UInt8) : Bool := c = 45 || c = 32

/-- `normalizeRecoveryKey`; `none` is false. -/
def normalizeRecoveryKey (input : Str) : Option Str :=
  let body := (input.filter (fun c => !blank c)).map upper
  let body := if keyPrefix.isPrefixOf body then body.drop keyPrefix.length else body
  if body.length ≠ 20 then none else some (lit "NPSYNC-" ++ grouped body)

/-- What may be typed for a text: letters in either case, dashes, spaces or nothing for a dash. -/
inductive Retyped : Str → Str → Prop
  | nil : Retyped [] []
  | char {c d : UInt8} {shown typed : Str} (same : asciiLower c = asciiLower d) (rest : Retyped shown typed) :
    Retyped (c::shown) (d::typed)
  | space {shown typed : Str} (rest : Retyped shown typed) : Retyped (45::shown) (32::typed)
  | dropped {shown typed : Str} (rest : Retyped shown typed) : Retyped (45::shown) typed

/-- `NPSYNC-` and five groups of four letters of the alphabet. -/
def Shown (key : Str) : Prop :=
  ∃ groups : List Str, groups.length = 5 ∧ (∀ group ∈ groups, group.length = 4 ∧ ∀ c ∈ group, c ∈ alphabet) ∧
    key = lit "NPSYNC-" ++ List.intercalate (lit "-") groups

/-- What a key that is written down has to give. -/
structure Writable (raw : Draw) : Prop where
  shown : Shown (generateRecoveryKey raw)
  apart : ∀ other : Draw, generateRecoveryKey other = generateRecoveryKey raw →
    other.1.map (fun b => b.toNat % 32) = raw.1.map (fun b => b.toNat % 32)
  typed : ∀ typed, Retyped (generateRecoveryKey raw) typed → normalizeRecoveryKey typed = some (generateRecoveryKey raw)

/-! ### Symbols -/

theorem symbol_cases (b : UInt8) : (b.toNat % 32 = 31 ∧ symbol b = 0) ∨ (b.toNat % 32 ≠ 31 ∧ symbol b ∈ alphabet) := by
  have table : ∀ i < 32, (i = 31 ∧ alphabet.getD i 0 = 0) ∨ (i ≠ 31 ∧ alphabet.getD i 0 ∈ alphabet) := by decide
  exact table (b.toNat % 32) (Nat.mod_lt _ (by decide))

theorem symbol_index (b : UInt8) : alphabet.idxOf (symbol b) = b.toNat % 32 := by
  have table : ∀ i < 32, alphabet.idxOf (alphabet.getD i 0) = i := by decide
  exact table (b.toNat % 32) (Nat.mod_lt _ (by decide))

theorem symbol_plain (b : UInt8) : blank (symbol b) = false ∧ upper (symbol b) = symbol b := by
  have table : ∀ i < 32, blank (alphabet.getD i 0) = false ∧ upper (alphabet.getD i 0) = alphabet.getD i 0 := by
    decide
  exact table (b.toNat % 32) (Nat.mod_lt _ (by decide))

/-! ### Groups -/

theorem groupedFrom_cons (start : Nat) (c : UInt8) (body : Str) :
    groupedFrom start (c::body) = (if 0 < start ∧ start % 4 = 0 then [45,c] else [c]) ++ groupedFrom (start + 1) body := rfl

theorem mem_groupedFrom {body : Str} {c : UInt8} (start : Nat) (member : c ∈ body) : c ∈ groupedFrom start body := by
  induction body generalizing start with
  | nil => contradiction
  | cons d rest ih =>
    rw [groupedFrom_cons]
    rcases List.mem_cons.mp member with rfl | later
    · refine List.mem_append_left _ ?_
      split <;> simp
    · exact List.mem_append_right _ (ih (start + 1) later)

/-- Without the dashes the groups are the body. -/
theorem filter_groupedFrom {body : Str} (start : Nat) (plain : ∀ c ∈ body, blank c = false) :
    (groupedFrom start body).filter (fun c => !blank c) = body := by
  induction body generalizing start with
  | nil => rfl
  | cons c rest ih =>
    have dash : blank 45 = true := rfl
    have letter := plain c List.mem_cons_self
    rw [groupedFrom_cons,List.filter_append,ih (start + 1) fun d member => plain d (List.mem_cons_of_mem _ member)]
    split <;> simp [dash,letter]

theorem groupedFrom_four (m : Nat) (a b c d : UInt8) (rest : Str) :
    groupedFrom (4 * m) (a::b::c::d::rest) = (if m = 0 then [] else lit "-") ++ [a,b,c,d] ++ groupedFrom (4 * (m + 1)) rest := by
  have inside : ∀ k, k % 4 ≠ 0 → ∀ x : UInt8, (if 0 < k ∧ k % 4 = 0 then [45,x] else [x]) = [x] := by
    intro k odd x
    exact if_neg fun first => odd first.2
  have dash : lit "-" = [45] := rfl
  rw [groupedFrom_cons,groupedFrom_cons,groupedFrom_cons,groupedFrom_cons,inside (4 * m + 1) (by omega),
    inside (4 * m + 1 + 1) (by omega),inside (4 * m + 1 + 1 + 1) (by omega),dash]
  by_cases first : m = 0
  · rw [if_neg (by omega),if_pos first]
    rfl
  · rw [if_pos (by omega),if_neg first]
    rfl

/-- Twenty symbols are five groups of four, joined by dashes. -/
theorem grouped_groups {body : Str} (sized : body.length = 20) :
    ∃ groups : List Str, groups.length = 5 ∧ (∀ group ∈ groups, group.length = 4 ∧ ∀ c ∈ group, c ∈ body) ∧
      grouped body = List.intercalate (lit "-") groups := by
  have cut : ∀ n (rest : Str), rest.length = 4 * n + 4 → ∃ a b c d more, rest = a::b::c::d::more ∧ more.length = 4 * n := by
    intro n rest length
    match rest, length with
    | a::b::c::d::more,length => exact ⟨a,b,c,d,more,rfl,by simpa using length⟩
  obtain ⟨a₁,b₁,c₁,d₁,rest₁,rfl,length₁⟩ := cut 4 body sized
  obtain ⟨a₂,b₂,c₂,d₂,rest₂,rfl,length₂⟩ := cut 3 rest₁ length₁
  obtain ⟨a₃,b₃,c₃,d₃,rest₃,rfl,length₃⟩ := cut 2 rest₂ length₂
  obtain ⟨a₄,b₄,c₄,d₄,rest₄,rfl,length₄⟩ := cut 1 rest₃ length₃
  obtain ⟨a₅,b₅,c₅,d₅,rest₅,rfl,length₅⟩ := cut 0 rest₄ length₄
  obtain rfl : rest₅ = [] := List.eq_nil_of_length_eq_zero length₅
  refine ⟨[[a₁,b₁,c₁,d₁],[a₂,b₂,c₂,d₂],[a₃,b₃,c₃,d₃],[a₄,b₄,c₄,d₄],[a₅,b₅,c₅,d₅]],rfl,?_,?_⟩
  · simp
  · rw [grouped,← Nat.mul_zero 4,groupedFrom_four,groupedFrom_four,groupedFrom_four,groupedFrom_four,groupedFrom_four]
    rfl

/-! ### Typing a key back -/

theorem upper_of_lower {c d : UInt8} (same : asciiLower c = asciiLower d) : upper c = upper d := by
  have raised : ∀ b : UInt8, upper (asciiLower b) = upper b := forall_byte (by decide +kernel)
  rw [← raised c,same,raised d]

theorem blank_of_lower {c d : UInt8} (same : asciiLower c = asciiLower d) : blank c = blank d := by
  have kept : ∀ b : UInt8, blank (asciiLower b) = blank b := forall_byte (by decide +kernel)
  rw [← kept c,same,kept d]

/-- What is typed has the same letters. -/
theorem Retyped.letters {shown typed : Str} (retyped : Retyped shown typed) :
    (typed.filter (fun c => !blank c)).map upper = (shown.filter (fun c => !blank c)).map upper := by
  induction retyped with
  | nil => rfl
  | @char c d shown typed same rest ih =>
    rw [List.filter_cons,List.filter_cons,blank_of_lower same]
    split
    · rw [List.map_cons,List.map_cons,ih,upper_of_lower same]
    · exact ih
  | space rest ih => exact ih
  | dropped rest ih => exact ih

theorem symbols_plain (raw : Bytes) : ∀ c ∈ raw.map symbol, blank c = false := by
  intro c member
  obtain ⟨b,_,rfl⟩ := List.mem_map.mp member
  exact (symbol_plain b).1

/-- The letters of a key: the prefix and its symbols. -/
theorem key_letters (raw : Draw) :
    (generateRecoveryKey raw).filter (fun c => !blank c) = keyPrefix ++ raw.1.map symbol := by
  have front : (lit "NPSYNC-").filter (fun c => !blank c) = keyPrefix := by decide
  rw [generateRecoveryKey,List.filter_append,front,grouped,filter_groupedFrom 0 (symbols_plain raw.1)]

theorem normalizeRecoveryKey_retyped (raw : Draw) (typed : Str) (retyped : Retyped (generateRecoveryKey raw) typed) :
    normalizeRecoveryKey typed = some (generateRecoveryKey raw) := by
  have raised : (raw.1.map symbol).map upper = raw.1.map symbol := by
    rw [List.map_map]
    exact List.map_congr_left fun b _ => (symbol_plain b).2
  have front : keyPrefix.map upper = keyPrefix := by decide
  have letters : (typed.filter (fun c => !blank c)).map upper = keyPrefix ++ raw.1.map symbol := by
    rw [retyped.letters,key_letters,List.map_append,front,raised]
  have starts : keyPrefix.isPrefixOf (keyPrefix ++ raw.1.map symbol) = true := by
    rw [List.isPrefixOf_iff_prefix]
    exact List.prefix_append _ _
  have length : (raw.1.map symbol).length = 20 := (List.length_map _).trans raw.2
  unfold normalizeRecoveryKey
  simp only [letters]
  rw [if_pos starts,List.drop_left,if_neg (not_not.mpr length)]
  rfl

theorem key_apart (raw other : Draw) (same : generateRecoveryKey other = generateRecoveryKey raw) :
    other.1.map (fun b => b.toNat % 32) = raw.1.map (fun b => b.toNat % 32) := by
  have letters := congrArg (List.filter fun c => !blank c) same
  rw [key_letters,key_letters] at letters
  have symbols : other.1.map symbol = raw.1.map symbol := List.append_cancel_left letters
  have indexed : ∀ raw : Bytes, (raw.map symbol).map alphabet.idxOf = raw.map (fun b => b.toNat % 32) := by
    intro raw
    rw [List.map_map]
    exact List.map_congr_left fun b _ => symbol_index b
  rw [← indexed,symbols,indexed]

theorem no_nul_in_shown {key : Str} (shown : Shown key) : 0 ∉ key := by
  obtain ⟨groups,_,letters,rfl⟩ := shown
  intro nul
  rcases List.mem_append.mp nul with front | inside
  · exact absurd front (by decide)
  · rcases mem_intercalate inside with dash | ⟨group,member,here⟩
    · exact absurd dash (by decide)
    · exact absurd ((letters group member).2 0 here) (by decide)

theorem writable_inside {raw : Draw} (writable : Writable raw) (b : UInt8) (member : b ∈ raw.1) : b.toNat % 32 ≠ 31 := by
  intro last
  have nul : symbol b = 0 := by
    rcases symbol_cases b with ⟨_,nul⟩ | ⟨other,_⟩
    · exact nul
    · exact absurd last other
  apply no_nul_in_shown writable.shown
  rw [← nul]
  exact List.mem_append_right _ (mem_groupedFrom 0 (List.mem_map_of_mem member))

/-- A key can be written down exactly when no byte of its draw falls on the end of
the alphabet, which has one letter less than the 32 it is indexed by. -/
theorem recovery_key_writable_iff (raw : Draw) : Writable raw ↔ ∀ b ∈ raw.1, b.toNat % 32 ≠ 31 := by
  constructor
  · exact writable_inside
  · intro inside
    have letters : ∀ c ∈ raw.1.map symbol, c ∈ alphabet := by
      intro c member
      obtain ⟨b,drawn,rfl⟩ := List.mem_map.mp member
      rcases symbol_cases b with ⟨last,_⟩ | ⟨_,letter⟩
      · exact absurd last (inside b drawn)
      · exact letter
    refine ⟨?_,key_apart raw,normalizeRecoveryKey_retyped raw⟩
    obtain ⟨groups,five,fours,joined⟩ := grouped_groups ((List.length_map symbol).trans raw.2)
    refine ⟨groups,five,?_,?_⟩
    · intro group member
      exact ⟨(fours group member).1,fun c here => letters c ((fours group member).2 c here)⟩
    · rw [generateRecoveryKey,joined]

/-- All bytes are 31. -/
theorem nul_key_not_writable : ¬∀ raw, Writable raw := by
  intro writable
  exact writable_inside (writable ⟨List.replicate 20 31,by decide⟩) 31 (by decide) (by decide)

end NPSync.RecoveryKeys
