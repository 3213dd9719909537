import Mathlib.Data.List.Basic
import Mathlib.Data.List.SplitOn

/-! What Go's `strings`, `net` and `net/netip` do with the addresses in a request.
Texts are UTF-8 bytes; an error is `none`. -/
namespace NPSync.Library.NetAddr

/-! ### Strings -/

/-- The encodings of the characters that `unicode.IsSpace` accepts. -/
def spaces : List (List UInt8) :=
  [[9],[10],[11],[12],[13],[32],[194,133],[194,160],[225,154,128],[226,128,168],[226,128,169],[226,128,175],
    [226,129,159],[227,128,128]] ++ (List.range 11).map fun i => [226,128,UInt8.ofNat (128 + i)]

/-- Without the leading pieces. Every round drops a byte, so the length is fuel enough. -/
def dropPieces (pieces : List (List UInt8)) : (fuel : Nat) → List UInt8 → List UInt8
  | 0,text => text
  | fuel + 1,text =>
    match pieces.find? (fun piece => piece.isPrefixOf text) with
    | some piece => dropPieces pieces fuel (text.drop piece.length)
    | none => text

def trimSpace (text : List UInt8) : List UInt8 :=
  let front := dropPieces spaces text.length text
  (dropPieces (spaces.map List.reverse) front.length front.reverse).reverse

/-- `strings.Trim` with a set of ASCII characters. -/
def trim (cutset text : List UInt8) : List UInt8 :=
  ((text.dropWhile cutset.contains).reverse.dropWhile cutset.contains).reverse

/-- `strings.Split` at a single byte. -/
def split (text : List UInt8) (sep : UInt8) : List (List UInt8) := text.splitOn sep

def lastIndexByte (text : List UInt8) (c : UInt8) : Option Nat :=
  if c ∈ text then some (text.length - 1 - text.reverse.idxOf c) else none

/-! ### `net.SplitHostPort` -/

/-- The host; the port is not read. -/
def splitHost (hostport : List UInt8) : Option (List UInt8) :=
  match lastIndexByte hostport 58 with
  | none => none
  | some i =>
    if hostport.head? = some 91 then
      if 93 ∈ hostport then
        let last := hostport.idxOf 93
        if last + 1 = i ∧ 91 ∉ hostport.drop 1 ∧ 93 ∉ hostport.drop (last + 1) then
          some ((hostport.take last).drop 1)
        else none
      else none
    else
      let host := hostport.take i
      if 58 ∈ host ∨ 91 ∈ hostport ∨ 93 ∈ hostport then none else some host

/-! ### `netip.Addr` and `netip.Prefix` -/

/-- An address with its bits as a number; an IPv4 address has no zone. -/
structure Addr where
  is6 : Bool
  bits : Nat
  zone : List UInt8
  deriving DecidableEq

def Addr.bitLen (a : Addr) : Nat := if a.is6 then 128 else 32

def digit (c : UInt8) : Option Nat := if 48 ≤ c ∧ c ≤ 57 then some (c.toNat - 48) else none

def hexDigit (c : UInt8) : Option Nat :=
  if 48 ≤ c ∧ c ≤ 57 then some (c.toNat - 48)
  else if 97 ≤ c ∧ c ≤ 102 then some (c.toNat - 87)
  else if 65 ≤ c ∧ c ≤ 70 then some (c.toNat - 55)
  else none

def number (base : Nat) (digits : List Nat) : Nat := digits.foldl (fun acc d => acc * base + d) 0

/-- One field of `parseIPv4Fields`. -/
def octet (field : List UInt8) : Option Nat := do
  let digits ← field.mapM digit
  if digits = [] ∨ (digits.head? = some 0 ∧ digits.length ≠ 1) ∨ 255 < number 10 digits then none
  else return number 10 digits

def parseIPv4Fields (text : List UInt8) : Option (List Nat) := do
  let octets ← (split text 46).mapM octet
  if octets.length = 4 then return octets else none

/-- The loop of `parseIPv6`: the 16-bit fields so far and the place of the ellipsis.
There is room for `fuel` more fields. -/
def parseIPv6Loop : (fuel : Nat) → List Nat → Option Nat → List UInt8 → Option (List Nat × Option Nat)
  | 0,fields,ellipsis,text => if text = [] then some (fields,ellipsis) else none
  | fuel + 1,fields,ellipsis,text =>
    let digits := text.takeWhile (fun c => (hexDigit c).isSome)
    let rest := text.dropWhile (fun c => (hexDigit c).isSome)
    if digits = [] ∨ 4 < digits.length then none
    else if rest.head? = some 46 then
      if (ellipsis = none ∧ fields.length ≠ 6) ∨ 6 < fields.length then none
      else match parseIPv4Fields text with
        | some [a,b,c,d] => some (fields ++ [a * 256 + b,c * 256 + d],ellipsis)
        | _ => none
    else
      let fields := fields ++ [number 16 (digits.filterMap hexDigit)]
      match rest with
      | [] => some (fields,ellipsis)
      | [_] => none
      | colon::next::more =>
        if colon ≠ 58 then none
        else if next = 58 then
          if ellipsis.isSome then none
          else if more = [] then some (fields,some fields.length)
          else parseIPv6Loop fuel fields (some fields.length) more
        else parseIPv6Loop fuel fields ellipsis (next::more)

/-- The eight fields once the ellipsis is filled with zeros. -/
def expand : List Nat × Option Nat → Option (List Nat)
  | (fields,none) => if fields.length = 8 then some fields else none
  | (fields,some at_) =>
    if fields.length < 8 then some (fields.take at_ ++ List.replicate (8 - fields.length) 0 ++ fields.drop at_) else none

def parseIPv6 (text : List UInt8) : Option Addr := do
  let address := text.takeWhile (· ≠ 37)
  let zone := (text.dropWhile (· ≠ 37)).drop 1
  if 37 ∈ text ∧ zone = [] then none
  else if address = [58,58] then return ⟨true,0,zone⟩
  else
    let parsed ← if [58,58].isPrefixOf address then parseIPv6Loop 8 [] (some 0) (address.drop 2)
      else parseIPv6Loop 8 [] none address
    let fields ← expand parsed
    return ⟨true,number 65536 fields,zone⟩

/-- The first dot, colon or percent sign decides. -/
def parseAddr (text : List UInt8) : Option Addr :=
  match text.find? (fun c => c = 46 || c = 58 || c = 37) with
  | some 46 => (parseIPv4Fields text).map fun octets => ⟨false,number 256 octets,[]⟩
  | some 58 => parseIPv6 text
  | _ => none

/-- A valid prefix; it has no zone. -/
structure Prefix where
  is6 : Bool
  ip : Nat
  bits : Nat
  valid : bits ≤ if is6 then 128 else 32

/-- The first bits of both addresses agree. -/
def Prefix.contains (p : Prefix) (a : Addr) : Bool :=
  a.zone = [] && p.is6 = a.is6 && p.ip >>> (a.bitLen - p.bits) = a.bits >>> (a.bitLen - p.bits)

example : (parseAddr "2001:db8::1.2.3.4".toUTF8.toList).map Addr.bits = some 0x20010db8000000000000000001020304 := by
  decide +kernel

end NPSync.Library.NetAddr
