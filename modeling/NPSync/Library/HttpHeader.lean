import Mathlib.Data.List.Basic

/-! Header fields as Go's `net/http` holds them: a name in any letter case stands for
its canonical form, and a repeated field keeps the values of its lines in order. -/
namespace NPSync.Library.HttpHeader

/-- The characters of a token. -/
def isToken (c : UInt8) : Bool :=
  (48 ≤ c && c ≤ 57) || (65 ≤ c && c ≤ 90) || (94 ≤ c && c ≤ 122) || [33,35,36,37,38,39,42,43,45,46,124,126].contains c

def lower (c : UInt8) : UInt8 := if 65 ≤ c && c ≤ 90 then c + 32 else c

def upper (c : UInt8) : UInt8 := if 97 ≤ c && c ≤ 122 then c - 32 else c

/-- The first letter and the letters after a hyphen in upper case, the others in lower. -/
def capitalize : (start : Bool) → List UInt8 → List UInt8
  | _,[] => []
  | start,c::rest => (if start then upper c else lower c)::capitalize (c = 45) rest

def canonicalMIMEHeaderKey (name : List UInt8) : List UInt8 := if name.all isToken then capitalize true name else name

/-- The lines of a header, in order. -/
abbrev Header := List (List UInt8 × List UInt8)

/-- `Header.Values`. -/
def values (header : Header) (key : List UInt8) : List (List UInt8) :=
  (header.filter fun line => canonicalMIMEHeaderKey line.1 = canonicalMIMEHeaderKey key).map Prod.snd

/-- `Header.Get`: the value of the first line, or nothing. -/
def get (header : Header) (key : List UInt8) : List UInt8 := (values header key).headD []

end NPSync.Library.HttpHeader
