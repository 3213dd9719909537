import NPSync.Text

/-! JSON values as nlohmann's `json` holds them, its compact `dump`, and its
`value(key, default)` reads. A read that throws in the plugin is `none`; so is a
`dump` of text that is not UTF-8. -/
namespace NPSync

inductive Json where
  | null
  | bool (value : Bool)
  | num (value : Int)
  | str (value : Str)
  | arr (items : List Json)
  | obj (fields : List (Str × Json))

namespace Json

/-- One byte of a dumped string. -/
def escape (c : UInt8) : Str :=
  if c = 34 then lit "\\\""
  else if c = 92 then lit "\\\\"
  else if c = 8 then lit "\\b"
  else if c = 9 then lit "\\t"
  else if c = 10 then lit "\\n"
  else if c = 12 then lit "\\f"
  else if c = 13 then lit "\\r"
  else if c < 32 then lit "\\u00" ++ hexByte c
  else [c]

def quoted (text : Str) : Str := lit "\"" ++ text.flatMap escape ++ lit "\""

def continuation (c : UInt8) : Bool := 128 ≤ c && c ≤ 191

/-- Well-formed UTF-8: no overlong form, no surrogate, nothing above U+10FFFF. -/
def validUtf8 : Bytes → Bool
  | [] => true
  | a::rest =>
    if a < 128 then validUtf8 rest
    else match rest with
      | b::rest =>
        if 194 ≤ a && a ≤ 223 then continuation b && validUtf8 rest
        else match rest with
          | c::rest =>
            if 224 ≤ a && a ≤ 239 then
              (if a = 224 then 160 ≤ b && b ≤ 191 else if a = 237 then 128 ≤ b && b ≤ 159 else continuation b) &&
                continuation c && validUtf8 rest
            else match rest with
              | d::rest =>
                240 ≤ a && a ≤ 244 &&
                  (if a = 240 then 144 ≤ b && b ≤ 191 else if a = 244 then 128 ≤ b && b ≤ 143 else continuation b) &&
                  continuation c && continuation d && validUtf8 rest
              | [] => false
          | [] => false
      | [] => false

mutual
def valid : Json → Bool
  | .null | .bool _ | .num _ => true
  | .str value => validUtf8 value
  | .arr items => validItems items
  | .obj fields => validFields fields

def validItems : List Json → Bool
  | [] => true
  | item::rest => valid item && validItems rest

def validFields : List (Str × Json) → Bool
  | [] => true
  | (key,item)::rest => validUtf8 key && valid item && validFields rest
end

mutual
def dumpText : Json → Str
  | .null => lit "null"
  | .bool value => if value then lit "true" else lit "false"
  | .num value => decimal value
  | .str value => quoted value
  | .arr items => lit "[" ++ dumpItems items ++ lit "]"
  | .obj fields => lit "\x7b" ++ dumpFields fields ++ lit "\x7d"

def dumpItems : List Json → Str
  | [] => []
  | [item] => dumpText item
  | item::rest => dumpText item ++ lit "," ++ dumpItems rest

def dumpFields : List (Str × Json) → Str
  | [] => []
  | [(key,item)] => quoted key ++ lit ":" ++ dumpText item
  | (key,item)::rest => quoted key ++ lit ":" ++ dumpText item ++ lit "," ++ dumpFields rest
end

def dump (json : Json) : Option Str := if json.valid then some json.dumpText else none

def field (key : Str) : List (Str × Json) → Option Json
  | [] => none
  | (name,item)::rest => if name = key then some item else field key rest

/-- `value` with a `json` default: no conversion, but the receiver has to be an
object. -/
def value (json : Json) (key : Str) (default : Json) : Option Json :=
  match json with
  | .obj fields => some ((field key fields).getD default)
  | _ => none

/-- `value` with a string default. -/
def valueStr (json : Json) (key : Str) (default : Str) : Option Str :=
  match json.value key (.str default) with
  | some (.str text) => some text
  | _ => none

/-- `value` with an `int64_t` default. -/
def valueInt (json : Json) (key : Str) (default : Int) : Option Int :=
  match json.value key (.num default) with
  | some (.num n) => some n
  | _ => none

/-- `value` with a `bool` default. -/
def valueBool (json : Json) (key : Str) (default : Bool) : Option Bool :=
  match json.value key (.bool default) with
  | some (.bool b) => some b
  | _ => none

theorem validUtf8_of_ascii (text : Str) (ascii : ∀ c ∈ text, c < 128) : validUtf8 text = true := by
  induction text with
  | nil => rfl
  | cons c rest ih =>
    have small := ascii c List.mem_cons_self
    unfold validUtf8
    rw [if_pos small]
    exact ih fun d member => ascii d (List.mem_cons_of_mem _ member)

end Json
end NPSync
