import Mathlib.Data.List.Basic
import NPSync.Library.HttpHeader

/-! The raw text of a response head and the search for a text in it. Lines hold no
line break and names no colon, so a name between a line break and a colon is found
only where the field of that name begins. -/
namespace NPSync.Library.HttpHeader

/-- `std::string::find`. -/
def find (needle : List UInt8) : List UInt8 → Option Nat
  | [] => if needle = [] then some 0 else none
  | c::rest => if needle.isPrefixOf (c::rest) then some 0 else (find needle rest).map (· + 1)

/-- The white space that may stand around a value. -/
def isBlank (c : UInt8) : Bool := c = 32 || c = 9

def isBreak (c : UInt8) : Bool := c = 13 || c = 10

/-- `name:before value after`, without the line break. -/
structure FieldLine where
  name : List UInt8
  before : List UInt8
  value : List UInt8
  after : List UInt8
  token : name ≠ [] ∧ name.all isToken = true
  blanks : (before ++ after).all isBlank = true
  unbroken : value.all (fun c => !isBreak c) = true
  trimmed : value.head?.all (fun c => !isBlank c) = true ∧ value.getLast?.all (fun c => !isBlank c) = true

def FieldLine.content (line : FieldLine) : List UInt8 := line.before ++ line.value ++ line.after

def FieldLine.text (line : FieldLine) : List UInt8 := line.name ++ 58::line.content

/-- The fields after the status line, up to the empty line. -/
def fieldsText : List FieldLine → List UInt8
  | [] => [13,10,13,10]
  | line::rest => 13::10::(line.text ++ fieldsText rest)

/-- A response head; `version` is what follows `HTTP/` in the status line. -/
structure Head where
  version : List UInt8
  fields : List FieldLine
  unbroken : version.all (fun c => !isBreak c) = true

def Head.statusLine (head : Head) : List UInt8 := [72,84,84,80,47] ++ head.version

def Head.text (head : Head) : List UInt8 := head.statusLine ++ fieldsText head.fields

/-- The letter case of a name does not matter. -/
def sameName (a b : List UInt8) : Bool := a.map lower = b.map lower

/-! ### Lines -/

theorem token_ne {c d : UInt8} (token : isToken c = true) (other : isToken d = false) : c ≠ d := by
  intro same
  rw [same,other] at token
  contradiction

theorem mem_token {name : List UInt8} (tokens : name.all isToken = true) {d : UInt8} (other : isToken d = false) :
    d ∉ name := fun member => token_ne (List.all_eq_true.mp tokens d member) other rfl

theorem FieldLine.mem_text {line : FieldLine} {c : UInt8} (member : c ∈ line.text) : c ≠ 13 ∧ c ≠ 10 := by
  have blank : ∀ c, isBlank c = true → c ≠ 13 ∧ c ≠ 10 := by
    intro c white
    simp only [isBlank,Bool.or_eq_true,decide_eq_true_eq] at white
    rcases white with rfl | rfl <;> decide
  have blanks : ∀ c ∈ line.before ++ line.after, c ≠ 13 ∧ c ≠ 10 :=
    fun c member => blank c (List.all_eq_true.mp line.blanks c member)
  have value : ∀ c ∈ line.value, c ≠ 13 ∧ c ≠ 10 := by
    intro c member
    simpa [isBreak] using List.all_eq_true.mp line.unbroken c member
  simp only [FieldLine.text,FieldLine.content,List.mem_append,List.mem_cons] at member
  rcases member with name | rfl | (before | here) | after
  · have token := List.all_eq_true.mp line.token.2 c name
    exact ⟨token_ne token (by decide),token_ne token (by decide)⟩
  · decide
  · exact blanks c (List.mem_append_left _ before)
  · exact value c here
  · exact blanks c (List.mem_append_right _ after)

theorem FieldLine.content_unbroken (line : FieldLine) : (13 : UInt8) ∉ line.content := by
  intro member
  have inside : (13 : UInt8) ∈ line.text := List.mem_append_right _ (List.mem_cons_of_mem 58 member)
  exact (FieldLine.mem_text inside).1 rfl

theorem takeWhile_name {name : List UInt8} (tokens : name.all isToken = true) {d : UInt8} (other : isToken d = false)
    (rest : List UInt8) : (name ++ d::rest).takeWhile isToken = name := by
  rw [List.takeWhile_append_of_pos (List.all_eq_true.mp tokens),List.takeWhile_cons_of_neg (by simp [other]),List.append_nil]

/-- A line begins with a name and a colon only if that is its name. -/
theorem FieldLine.isPrefixOf_text (line : FieldLine) {name : List UInt8} (tokens : name.all isToken = true)
    (rest : List UInt8) : (name ++ [58]).isPrefixOf (line.text ++ rest) = decide (line.name = name) := by
  rw [FieldLine.text,List.append_assoc,List.cons_append]
  by_cases same : line.name = name
  · rw [decide_eq_true same,List.isPrefixOf_iff_prefix,same]
    exact ⟨line.content ++ rest,by simp⟩
  · rw [decide_eq_false same,Bool.eq_false_iff]
    intro starts
    obtain ⟨back,equal⟩ := List.isPrefixOf_iff_prefix.mp starts
    have names := congrArg (List.takeWhile isToken) equal
    rw [List.append_assoc,List.singleton_append,takeWhile_name tokens (by decide),
      takeWhile_name line.token.2 (by decide)] at names
    exact same names.symm

/-- The status line is no field. -/
theorem Head.no_leading (head : Head) {name : List UInt8} (tokens : name.all isToken = true) :
    (name ++ [58]).isPrefixOf head.text = false := by
  rw [Bool.eq_false_iff]
  intro starts
  obtain ⟨back,equal⟩ := List.isPrefixOf_iff_prefix.mp starts
  have slash : head.text = [72,84,84,80] ++ 47::(head.version ++ fieldsText head.fields) := by
    rw [Head.text,Head.statusLine]
    rfl
  rw [slash,List.append_assoc,List.singleton_append] at equal
  have names := congrArg (List.takeWhile isToken) equal
  rw [takeWhile_name tokens (by decide),takeWhile_name (by decide) (by decide)] at names
  rw [names] at equal
  have colon := List.append_cancel_left equal
  injection colon with clash
  contradiction

/-! ### The search -/

/-- A text without a carriage return holds no beginning of a line. -/
theorem find_skip (key rest : List UInt8) {front : List UInt8} (unbroken : (13 : UInt8) ∉ front) :
    find (13::key) (front ++ rest) = (find (13::key) rest).map (· + front.length) := by
  induction front with
  | nil => simp
  | cons c front ih =>
    have first : (13::key).isPrefixOf (c::(front ++ rest)) = false := by
      have differs : (13 : UInt8) ≠ c := fun same => unbroken (List.mem_cons.mpr (.inl same))
      simp [List.isPrefixOf,differs]
    rw [List.cons_append,find,first,if_neg Bool.false_ne_true,ih (fun later => unbroken (List.mem_cons_of_mem c later)),
      Option.map_map]
    simp only [List.length_cons,Function.comp_def]
    rfl

/-- Where a line ends. -/
theorem find_break (fields : List FieldLine) {front : List UInt8} (unbroken : (13 : UInt8) ∉ front) :
    find [13,10] (front ++ fieldsText fields) = some front.length := by
  rw [find_skip [10] _ unbroken]
  cases fields with
  | nil => simp [fieldsText,find,List.isPrefixOf]
  | cons line rest => simp [fieldsText,find,List.isPrefixOf]

theorem find_cons (key : List UInt8) (c : UInt8) (rest : List UInt8) :
    find key (c::rest) = if key.isPrefixOf (c::rest) then some 0 else (find key rest).map (· + 1) := rfl

/-- At the beginning of a line the search ends, or it goes on after that line. -/
theorem find_line {name : List UInt8} (tokens : name.all isToken = true) (line : FieldLine) (fields : List FieldLine) :
    find (13::10::(name ++ [58])) (fieldsText (line::fields)) =
      if line.name = name then some 0
      else (find (13::10::(name ++ [58])) (fieldsText fields)).map (· + (line.text.length + 2)) := by
  have here : (13::10::(name ++ [58])).isPrefixOf (fieldsText (line::fields)) = decide (line.name = name) := by
    simpa [fieldsText,List.isPrefixOf] using line.isPrefixOf_text tokens (fieldsText fields)
  have unbroken : (13 : UInt8) ∉ 10::line.text := by
    intro member
    rcases List.mem_cons.mp member with feed | inside
    · exact absurd feed (by decide)
    · exact (FieldLine.mem_text inside).1 rfl
  rw [fieldsText] at here ⊢
  rw [find_cons,here]
  by_cases same : line.name = name
  · simp [same]
  · have later := find_skip (10::(name ++ [58])) (fieldsText fields) unbroken
    rw [List.cons_append] at later
    rw [if_neg (by simp [same]),if_neg same,later,Option.map_map]
    rfl

theorem find_absent {name : List UInt8} (tokens : name.all isToken = true) {fields : List FieldLine}
    (absent : fields.find? (fun line => line.name = name) = none) :
    find (13::10::(name ++ [58])) (fieldsText fields) = none := by
  induction fields with
  | nil =>
    cases name with
    | nil => rfl
    | cons c name =>
      have first : c ≠ 13 := token_ne (List.all_eq_true.mp tokens c List.mem_cons_self) (by decide)
      simp [fieldsText,find,List.isPrefixOf,first]
  | cons line fields ih =>
    have other : line.name ≠ name := by
      intro same
      rw [List.find?_cons_of_pos (by simpa using same)] at absent
      contradiction
    rw [List.find?_cons_of_neg (by simpa using other)] at absent
    rw [find_line tokens,if_neg other,ih absent]
    rfl

/-- The search for a name finds the first field of that spelling, and its content
follows. -/
theorem find_present {name : List UInt8} (tokens : name.all isToken = true) {fields : List FieldLine} {line : FieldLine}
    (present : fields.find? (fun line => line.name = name) = some line) :
    ∃ pos later, find (13::10::(name ++ [58])) (fieldsText fields) = some pos ∧
      (fieldsText fields).drop (pos + (name.length + 3)) = line.content ++ fieldsText later := by
  induction fields with
  | nil => contradiction
  | cons first fields ih =>
    rw [find_line tokens]
    by_cases same : first.name = name
    · rw [List.find?_cons_of_pos (by simpa using same)] at present
      obtain rfl := Option.some.inj present
      refine ⟨0,fields,by rw [if_pos same],?_⟩
      have text : fieldsText (first::fields) = (13::10::(name ++ [58])) ++ (first.content ++ fieldsText fields) := by
        simp [fieldsText,FieldLine.text,same]
      have size : 0 + (name.length + 3) = (13::10::(name ++ [58])).length := by simp
      rw [text,size,List.drop_left]
    · rw [List.find?_cons_of_neg (by simpa using same)] at present
      obtain ⟨pos,later,found,content⟩ := ih present
      refine ⟨pos + (first.text.length + 2),later,by rw [if_neg same,found]; rfl,?_⟩
      have text : fieldsText (first::fields) = (13::10::first.text) ++ fieldsText fields := by
        simp [fieldsText]
      have size : pos + (first.text.length + 2) + (name.length + 3) = (13::10::first.text).length + (pos + (name.length + 3)) := by
        simp only [List.length_cons]
        omega
      rw [text,size,List.drop_length_add_append,content]

end NPSync.Library.HttpHeader
