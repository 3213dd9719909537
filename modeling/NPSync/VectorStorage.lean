import NPSync.Library.Spacing
import NPSync.VersionVector

/-! Version vectors as the rows of the database hold them: `toJson` and back. The reader
passes over blanks, so it is followed on a text of pieces with blanks around them. -/
namespace NPSync.VersionVector
open Library

/-- A vector that was read from a text: no name has a quote, and the counters are `int64_t`. -/
def Plain (vv : VersionVector) : Prop := ∀ e ∈ vv.entries, 34 ∉ e.1 ∧ -2^63 ≤ e.2 ∧ e.2 < 2^63

theorem wrap64_bounds (n : Int) : -2^63 ≤ wrap64 n ∧ wrap64 n < 2^63 := by
  have low := Int.le_bmod (x := n) (m := 2^64) (by decide)
  have high := Int.bmod_lt (x := n) (m := 2^64) (by decide)
  unfold wrap64
  omega

theorem wrap64_of_bounds {n : Int} (low : -2^63 ≤ n) (high : n < 2^63) : wrap64 n = n := by
  unfold wrap64
  apply Int.bmod_eq_of_le
  · omega
  · omega

theorem wrap64_succ_ne (n : Int) : wrap64 (n + 1) ≠ n := by
  have bounds := wrap64_bounds (n + 1)
  intro same
  rw [same] at bounds
  by_cases high : n + 1 < 2^63
  · rw [wrap64_of_bounds (by omega) high] at same
    omega
  · have last : n + 1 = 2^63 := by omega
    rw [last] at same
    have least : wrap64 (2^63) = -2^63 := by decide
    omega

/-! ### Numbers -/

theorem number_append (digits : Str) (c : UInt8) :
    number (digits ++ [c]) = wrap64 (number digits * 10 + ((c.toNat : Int) - 48)) := by
  unfold number
  rw [List.foldl_append]
  rfl

/-- A prefix of the digits of a number below 2^63 is itself below it. -/
theorem number_reverse (digits : Str) (decimal : ∀ c ∈ digits, 48 ≤ c.toNat)
    (small : Nat.ofDigits 10 (digits.map (fun c => c.toNat - 48)) < 2^63) :
    number digits.reverse = ((Nat.ofDigits 10 (digits.map (fun c => c.toNat - 48)) : Nat) : Int) := by
  induction digits with
  | nil => rfl
  | cons c rest ih =>
    have unit := decimal c List.mem_cons_self
    rw [List.map_cons,Nat.ofDigits_cons] at small ⊢
    rw [List.reverse_cons,number_append,ih (fun c member => decimal c (List.mem_cons_of_mem _ member)) (by omega)]
    rw [wrap64_of_bounds]
    · push_cast [unit]
      omega
    · omega
    · omega

theorem decimalNat_isdigit (n : Nat) : ∀ c ∈ decimalNat n, isdigit c = true := decimalNat_digit n

theorem decimalNat_ne_nil (n : Nat) : decimalNat n ≠ [] := by
  unfold decimalNat
  split
  · exact List.cons_ne_nil _ _
  · rename_i positive
    rw [ne_eq,List.map_eq_nil_iff,List.reverse_eq_nil_iff,Nat.digits_eq_nil_iff_eq_zero]
    exact positive

theorem number_decimalNat {n : Nat} (small : n < 2^63) : number (decimalNat n) = n := by
  have digits := decimalNat_digits n
  have value := number_reverse (decimalNat n).reverse ?_ (by rw [digits]; exact small)
  · rw [List.reverse_reverse,digits] at value
    exact value
  · intro c member
    have digit := decimalNat_isdigit n c (List.mem_reverse.mp member)
    simp only [isdigit,Bool.and_eq_true,decide_eq_true_eq] at digit
    exact UInt8.le_iff_toNat_le.mp digit.1

/-! ### Reading on -/

/-- What may stand between two pieces of the text. -/
abbrev Blank (c : UInt8) : Prop := isspace c = true

theorem skipWs_blanks {blanks : Str} (only : ∀ c ∈ blanks, Blank c) (text : Str) : skipWs (blanks ++ text) = skipWs text :=
  List.dropWhile_append_of_pos only

theorem skipWs_of_head {c : UInt8} {rest : Str} (visible : isspace c = false) : skipWs (c::rest) = c::rest := by
  unfold skipWs
  rw [List.dropWhile_cons_of_neg (by simp [visible])]

theorem takeWhile_append_stop {p : UInt8 → Bool} {front back : Str} (all : ∀ c ∈ front, p c = true)
    (stops : ∀ c ∈ back.head?, p c = false) : (front ++ back).takeWhile p = front ∧ (front ++ back).dropWhile p = back := by
  have ends : back.takeWhile p = [] ∧ back.dropWhile p = back := by
    cases back with
    | nil => exact ⟨rfl,rfl⟩
    | cons c rest =>
      have stop := stops c rfl
      exact ⟨List.takeWhile_cons_of_neg (by simp [stop]),List.dropWhile_cons_of_neg (by simp [stop])⟩
  rw [List.takeWhile_append_of_pos all,List.dropWhile_append_of_pos all,ends.1,ends.2]
  exact ⟨List.append_nil _,rfl⟩

theorem isspace_of_isdigit {c : UInt8} (digit : isdigit c = true) : isspace c = false :=
  forall_byte (P := fun c => isdigit c = true → isspace c = false) (by decide +kernel) c digit

theorem ne_minus_of_isdigit {c : UInt8} (digit : isdigit c = true) : c ≠ 45 := by
  rintro rfl
  contradiction

/-- What the loop reads of a number: its sign, its digits and what follows them. -/
theorem decimal_parts (v : Int) (back : Str) (stops : ∀ c ∈ back.head?, isdigit c = false) :
    skipWs (decimal v ++ back) = decimal v ++ back ∧ ((decimal v ++ back).head? = some 45 ↔ v < 0) ∧
      (skip 45 (decimal v ++ back)).takeWhile isdigit = decimalNat v.natAbs ∧
      (skip 45 (decimal v ++ back)).dropWhile isdigit = back := by
  have digits := decimalNat_isdigit v.natAbs
  obtain ⟨first,second⟩ := takeWhile_append_stop digits stops
  unfold decimal
  split
  · rename_i negative
    have text : lit "-" ++ decimalNat v.natAbs ++ back = 45::(decimalNat v.natAbs ++ back) := rfl
    rw [text]
    exact ⟨skipWs_of_head rfl,⟨fun _ => negative,fun _ => rfl⟩,first,second⟩
  · rename_i positive
    cases number : decimalNat v.natAbs with
    | nil => exact absurd number (decimalNat_ne_nil _)
    | cons c rest =>
      rw [number] at first second digits
      have digit := digits c List.mem_cons_self
      have same : skip 45 (c::rest ++ back) = c::rest ++ back := if_neg (ne_minus_of_isdigit digit)
      rw [same]
      refine ⟨skipWs_of_head (isspace_of_isdigit digit),?_,first,second⟩
      constructor
      · exact fun head => absurd (Option.some.inj head) (ne_minus_of_isdigit digit)
      · exact fun negative => absurd negative positive

/-! ### The text and its pieces -/

def entryPieces (e : Str × Int) : List Str := [lit "\"" ++ e.1 ++ lit "\"",lit ":",decimal e.2]

def entriesPieces : List (Str × Int) → List Str
  | [] => []
  | [e] => entryPieces e
  | e::rest => entryPieces e ++ lit ","::entriesPieces rest

theorem entriesPieces_cons (e second : Str × Int) (others : List (Str × Int)) :
    entriesPieces (e::second::others) = entryPieces e ++ lit ","::entriesPieces (second::others) := rfl

def pieces (vv : VersionVector) : List Str := lit "\x7b"::(entriesPieces vv.entries ++ [lit "\x7d"])

theorem entriesPieces_flatten (entries : List (Str × Int)) : (entriesPieces entries).flatten = entriesJson entries := by
  induction entries with
  | nil => rfl
  | cons e rest ih =>
    obtain ⟨name,v⟩ := e
    cases rest with
    | nil => simp [entriesPieces,entryPieces,entriesJson,lit]
    | cons second others =>
      rw [entriesJson,← ih,entriesPieces_cons]
      · simp [entryPieces,lit]
      · exact nofun

theorem pieces_flatten (vv : VersionVector) : vv.pieces.flatten = vv.toJson := by
  rw [pieces,toJson,← entriesPieces_flatten]
  simp

theorem entriesJson_length (entries : List (Str × Int)) : entries.length ≤ (entriesJson entries).length := by
  induction entries with
  | nil => exact Nat.zero_le _
  | cons e rest ih =>
    obtain ⟨name,v⟩ := e
    cases rest with
    | nil => simp [entriesJson,lit]
    | cons second others =>
      rw [entriesJson]
      · have comma : (lit ",").length = 1 := rfl
        simp only [List.length_append,List.length_cons,comma] at ih ⊢
        omega
      · exact nofun

/-! ### One entry -/

/-- No number goes on into what comes after it. -/
theorem head_not_digit {piece : Str} {pieces : List Str} {text : Str} (spaced : Spaced Blank (piece::pieces) text) {first : UInt8}
    (starts : piece.head? = some first) (stops : isdigit first = false) : ∀ c ∈ text.head?, isdigit c = false := by
  cases spaced with
  | piece blanks only _ _ rest later =>
    intro c head
    cases blanks with
    | nil =>
      rw [List.nil_append,List.head?_append,starts] at head
      rwa [← Option.some.inj head]
    | cons b blanks =>
      have blank := only b List.mem_cons_self
      rw [← Option.some.inj head]
      by_contra digit
      rw [Bool.not_eq_false] at digit
      exact absurd blank (by rw [Blank,isspace_of_isdigit digit]; exact Bool.false_ne_true)

/-- An entry that is not negative is set, and any entry is passed over. -/
theorem fromJsonLoop_entry (fuel : Nat) {name : Str} {v : Int} {more : List Str} {text : Str} (vv : VersionVector)
    (unquoted : 34 ∉ name) (high : v < 2^63) (spaced : Spaced Blank (entryPieces (name,v) ++ more) text) :
    ∃ back, Spaced Blank more back ∧ ((∀ c ∈ back.head?, isdigit c = false) →
      fromJsonLoop (fuel + 1) text vv = fromJsonLoop fuel (skip 44 (skipWs back)) (if 0 ≤ v then vv.set name v else vv)) := by
  obtain _ | ⟨front,blank,_,_,_,later⟩ := spaced
  obtain _ | ⟨middle,blank',_,_,_,later⟩ := later
  obtain _ | ⟨last,blank'',_,_,back,later⟩ := later
  refine ⟨back,later,fun stops => ?_⟩
  have text : front ++ (lit "\"" ++ name ++ lit "\"" ++ (middle ++ (lit ":" ++ (last ++ (decimal v ++ back))))) =
      front ++ 34::(name ++ 34::(middle ++ 58::(last ++ (decimal v ++ back)))) := by simp [lit]
  obtain ⟨key,after⟩ := @takeWhile_append_stop (fun c => decide (c ≠ 34)) name
    (34::(middle ++ 58::(last ++ (decimal v ++ back))))
    (fun c member => by simpa using fun same : c = 34 => unquoted (same ▸ member))
    (fun c head => by cases head; rfl)
  obtain ⟨shown,sign,digits,rest⟩ := decimal_parts v back stops
  have colon : skipWs (skip 58 (skipWs (skip 34 (34::(middle ++ 58::(last ++ (decimal v ++ back))))))) = decimal v ++ back := by
    have first : skip 34 (34::(middle ++ 58::(last ++ (decimal v ++ back)))) = middle ++ 58::(last ++ (decimal v ++ back)) := rfl
    have second : skip 58 (58::(last ++ (decimal v ++ back))) = last ++ (decimal v ++ back) := rfl
    rw [first,skipWs_blanks blank',skipWs_of_head rfl,second,skipWs_blanks blank'',shown]
  rw [text,fromJsonLoop,skipWs_blanks blank,skipWs_of_head rfl]
  simp only [key,after,colon,digits,rest]
  congr 1
  by_cases negative : v < 0
  · rw [if_neg (by simp [sign.mpr negative]),if_neg (by omega)]
  · have value : number (decimalNat v.natAbs) = v := by
      rw [number_decimalNat (by omega)]
      omega
    rw [if_pos ⟨decimalNat_ne_nil _,fun head => negative (sign.mp head)⟩,if_pos (by omega),value]

/-! ### All entries -/

/-- The loop over the text of some entries. -/
theorem fromJsonLoop_entries (entries : List (Str × Int)) {text : Str}
    (spaced : Spaced Blank (entriesPieces entries ++ [lit "\x7d"]) text) (fuel : Nat) (vv : VersionVector)
    (enough : entries.length ≤ fuel) (plain : ∀ e ∈ entries, 34 ∉ e.1 ∧ e.2 < 2^63) :
    fromJsonLoop fuel text vv = entries.foldl (fun vv e => if 0 ≤ e.2 then vv.set e.1 e.2 else vv) vv := by
  induction entries generalizing text fuel vv with
  | nil =>
    obtain _ | ⟨front,blank,_,_,_,later⟩ := spaced
    cases fuel with
    | zero => rfl
    | succ fuel =>
      rw [fromJsonLoop,skipWs_blanks blank]
      rfl
  | cons e rest ih =>
    obtain ⟨name,v⟩ := e
    obtain ⟨unquoted,high⟩ := plain _ List.mem_cons_self
    cases fuel with
    | zero => contradiction
    | succ fuel =>
      have later := fun {back : Str} (spaced : Spaced Blank (entriesPieces rest ++ [lit "\x7d"]) back) =>
        ih spaced fuel (if 0 ≤ v then vv.set name v else vv) (by simpa using enough)
          fun e member => plain e (List.mem_cons_of_mem _ member)
      rw [List.foldl_cons]
      cases rest with
      | nil =>
        obtain ⟨back,closes,round⟩ := fromJsonLoop_entry fuel vv unquoted high spaced
        rw [round (head_not_digit closes rfl (by decide))]
        obtain _ | ⟨front,blank,_,_,tail,ended⟩ := closes
        rw [skipWs_blanks blank]
        exact later (.piece [] nofun _ _ _ ended)
      | cons second others =>
        have cut : entriesPieces ((name,v)::second::others) ++ [lit "\x7d"] =
            entryPieces (name,v) ++ lit ","::(entriesPieces (second::others) ++ [lit "\x7d"]) := by
          rw [entriesPieces_cons,List.append_assoc]
          rfl
        rw [cut] at spaced
        obtain ⟨back,goesOn,round⟩ := fromJsonLoop_entry fuel vv unquoted high spaced
        rw [round (head_not_digit goesOn rfl (by decide))]
        obtain _ | ⟨front,blank,_,_,tail,others⟩ := goesOn
        rw [skipWs_blanks blank]
        exact later others

theorem setEntry_last (name : Str) (v : Int) (entries : List (Str × Int)) (last : ∀ e ∈ entries, e.1 < name) :
    setEntry name v entries = entries ++ [(name,v)] := by
  induction entries with
  | nil => rfl
  | cons e rest ih =>
    have before := last e List.mem_cons_self
    have later := ih fun other member => last other (List.mem_cons_of_mem _ member)
    rw [setEntry,if_neg fun same => List.lt_irrefl _ (same ▸ before),if_neg (List.lt_asymm before),later]
    rfl

/-- Setting sorted entries one after the other leaves those that were set. -/
theorem foldl_set (entries : List (Str × Int)) (sorted : (entries.map Prod.fst).Pairwise (· < ·)) (vv : VersionVector)
    (before : ∀ old ∈ vv.entries, ∀ e ∈ entries, old.1 < e.1) :
    (entries.foldl (fun vv e => if 0 ≤ e.2 then vv.set e.1 e.2 else vv) vv).entries =
      vv.entries ++ entries.filter (fun e => 0 ≤ e.2) := by
  induction entries generalizing vv with
  | nil => exact (List.append_nil _).symm
  | cons e rest ih =>
    obtain ⟨least,tail⟩ := List.pairwise_cons.mp sorted
    rw [List.foldl_cons]
    by_cases kept : 0 ≤ e.2
    · have set : (vv.set e.1 e.2).entries = vv.entries ++ [e] :=
        setEntry_last e.1 e.2 vv.entries fun old member => before old member e List.mem_cons_self
      rw [if_pos kept,ih tail (vv.set e.1 e.2),set,List.filter_cons_of_pos (by simpa using kept),List.append_assoc]
      · rfl
      · intro old member other later
        rw [set] at member
        rcases List.mem_append.mp member with inside | here
        · exact before old inside other (List.mem_cons_of_mem _ later)
        · rw [List.mem_singleton.mp here]
          exact least _ (List.mem_map_of_mem later)
    · rw [if_neg kept,ih tail vv,List.filter_cons_of_neg (by simpa using kept)]
      exact fun old member other later => before old member other (List.mem_cons_of_mem _ later)

/-- A vector that is written with blanks and read again loses its negative counters, and nothing else. -/
theorem fromJson_spaced {vv : VersionVector} (plain : vv.Plain) {text : Str} (spaced : Spaced Blank vv.pieces text) :
    (fromJson text).entries = vv.entries.filter (fun e => 0 ≤ e.2) := by
  obtain _ | ⟨front,blank,_,_,rest,later⟩ := spaced
  have enough : vv.entries.length ≤ rest.length := by
    have whole := later.length_le
    have entries := entriesJson_length vv.entries
    rw [List.flatten_append,List.length_append,entriesPieces_flatten] at whole
    omega
  have loop := fromJsonLoop_entries vv.entries later rest.length empty enough
    fun e member => ⟨(plain e member).1,(plain e member).2.2⟩
  have opened : skipWs (front ++ (lit "\x7b" ++ rest)) = 123::rest := by
    rw [skipWs_blanks blank]
    exact skipWs_of_head rfl
  rw [fromJson,opened]
  simp only [loop]
  exact foldl_set vv.entries vv.sorted empty nofun

theorem fromJson_toJson {vv : VersionVector} (plain : vv.Plain) :
    (fromJson vv.toJson).entries = vv.entries.filter (fun e => 0 ≤ e.2) :=
  fromJson_spaced plain (vv.pieces_flatten ▸ Spaced.flatten vv.pieces)

/-- What the row of a file holds of a vector. -/
def stored (vv : VersionVector) : VersionVector := fromJson vv.toJson

theorem eq_of_entries {a b : VersionVector} (same : a.entries = b.entries) : a = b := by
  cases a
  cases b
  cases same
  rfl

theorem stored_iff {vv : VersionVector} (plain : vv.Plain) : vv.stored = vv ↔ ∀ e ∈ vv.entries, 0 ≤ e.2 := by
  have entries := fromJson_toJson plain
  constructor
  · intro same e member
    rw [stored] at same
    rw [same] at entries
    rw [entries] at member
    simpa using (List.mem_filter.mp member).2
  · intro kept
    have all : vv.entries.filter (fun e => 0 ≤ e.2) = vv.entries := by
      rw [List.filter_eq_self]
      simpa using kept
    rw [all] at entries
    exact eq_of_entries entries

/-! ### What a text gives -/

theorem mem_setEntry_cases {name : Str} {v : Int} {entries : List (Str × Int)} {e : Str × Int}
    (member : e ∈ setEntry name v entries) : e = (name,v) ∨ e ∈ entries := by
  induction entries with
  | nil => exact .inl (List.mem_singleton.mp member)
  | cons first rest ih =>
    obtain ⟨other,w⟩ := first
    unfold setEntry at member
    split at member
    · rename_i same
      rcases List.mem_cons.mp member with rfl | inside
      · exact .inl (by rw [same])
      · exact .inr (List.mem_cons_of_mem _ inside)
    split at member
    · exact List.mem_cons.mp member
    · rcases List.mem_cons.mp member with rfl | inside
      · exact .inr List.mem_cons_self
      · exact (ih inside).imp_right (List.mem_cons_of_mem _)

theorem number_bounds (digits : Str) : -2^63 ≤ number digits ∧ number digits < 2^63 := by
  rcases List.eq_nil_or_concat digits with rfl | ⟨front,c,rfl⟩
  · decide
  · rw [List.concat_eq_append,number_append]
    exact wrap64_bounds _

theorem Plain.set {vv : VersionVector} (plain : vv.Plain) {name : Str} (unquoted : 34 ∉ name) (digits : Str) :
    (vv.set name (number digits)).Plain := by
  intro e member
  rcases mem_setEntry_cases member with rfl | old
  · exact ⟨unquoted,number_bounds digits⟩
  · exact plain e old

theorem fromJsonLoop_plain (fuel : Nat) (text : Str) {vv : VersionVector} (plain : vv.Plain) :
    (fromJsonLoop fuel text vv).Plain := by
  induction fuel generalizing text vv with
  | zero => exact plain
  | succ fuel ih =>
    unfold fromJsonLoop
    split
    · apply ih
      split
      · exact plain.set (fun quoted => by simpa using List.all_eq_true.mp List.all_takeWhile _ quoted) _
      · exact plain
    · exact plain

theorem fromJson_plain (text : Str) : (fromJson text).Plain := by
  unfold fromJson
  split
  · exact fromJsonLoop_plain _ _ nofun
  · exact nofun

end NPSync.VersionVector
