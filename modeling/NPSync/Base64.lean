import NPSync.Library.BitText
import NPSync.Text

/-! The two base64url codecs of the wire: `Crypto::base64UrlEncode` and
`Crypto::base64UrlDecode` of the plugin, and Go's `base64.RawURLEncoding` as the
server uses it. -/
namespace NPSync.Base64
open Library.BitText

def alphabet : Str := lit "ABCDEFGHIJKLMNOPQRSTUVWXYZabcdefghijklmnopqrstuvwxyz0123456789-_"

def tbl (n : Nat) : UInt8 := alphabet.getD n 0

def base64UrlEncode : Bytes → Str
  | a::b::c::rest =>
    let v := a.toNat * 65536 + b.toNat * 256 + c.toNat
    tbl (v / 262144 % 64)::tbl (v / 4096 % 64)::tbl (v / 64 % 64)::tbl (v % 64)::base64UrlEncode rest
  | [a,b] =>
    let v := a.toNat * 65536 + b.toNat * 256
    [tbl (v / 262144 % 64),tbl (v / 4096 % 64),tbl (v / 64 % 64)]
  | [a] =>
    let v := a.toNat * 65536
    [tbl (v / 262144 % 64),tbl (v / 4096 % 64)]
  | [] => []

/-- The `val` lambda of `Crypto::base64UrlDecode`; -1 is `none`. -/
def val (c : UInt8) : Option Nat :=
  if 65 ≤ c && c ≤ 90 then some (c.toNat - 65)
  else if 97 ≤ c && c ≤ 122 then some (c.toNat - 97 + 26)
  else if 48 ≤ c && c ≤ 57 then some (c.toNat - 48 + 52)
  else if c = 45 then some 62
  else if c = 95 then some 63
  else none

/-- Loop of `Crypto::base64UrlDecode`: `acc` is the 32-bit accumulator. -/
def decodeLoop : Str → (acc bits : Nat) → Bytes → Option Bytes
  | [],_,_,out => some out
  | c::rest,acc,bits,out =>
    match val c with
    | none => none
    | some v =>
      let acc := (acc * 64 + v) % 2^32
      let bits := bits + 6
      if 8 ≤ bits then
        decodeLoop rest acc (bits - 8) (out ++ [UInt8.ofNat (acc / 2^(bits - 8) % 256)])
      else decodeLoop rest acc bits out

def base64UrlDecode (input : Str) : Option Bytes := decodeLoop input 0 0 []

/-- `encodeBase64URL`: `RawURLEncoding.EncodeToString`, the unpadded RFC 4648
text, which is also what the plugin writes. -/
def encodeBase64URL (data : Bytes) : Str := base64UrlEncode data

/-- Quanta of `RawURLEncoding.DecodeString`; unused trailing bits are not
checked, a single left-over character is an error. -/
def decodeQuanta : Str → Option Bytes
  | a::b::c::d::rest => do
    let w ← val a
    let x ← val b
    let y ← val c
    let z ← val d
    let tail ← decodeQuanta rest
    let v := w * 262144 + x * 4096 + y * 64 + z
    some (UInt8.ofNat (v / 65536 % 256)::UInt8.ofNat (v / 256 % 256)::UInt8.ofNat (v % 256)::tail)
  | [a,b,c] => do
    let w ← val a
    let x ← val b
    let y ← val c
    let v := w * 262144 + x * 4096 + y * 64
    some [UInt8.ofNat (v / 65536 % 256),UInt8.ofNat (v / 256 % 256)]
  | [a,b] => do
    let w ← val a
    let x ← val b
    some [UInt8.ofNat ((w * 262144 + x * 4096) / 65536 % 256)]
  | [_] => none
  | [] => some []

/-- Go skips carriage returns and newlines in the input. -/
def decodeBase64URL (input : Str) : Option Bytes :=
  decodeQuanta (input.filter (fun c => c != 13 && c != 10))

/-! ### The alphabet -/

/-- The URL and filename safe alphabet. -/
def urlSymbol (n : Nat) : UInt8 :=
  if n < 26 then UInt8.ofNat (65 + n)
  else if n < 52 then UInt8.ofNat (97 + (n - 26))
  else if n < 62 then UInt8.ofNat (48 + (n - 52))
  else if n = 62 then 45
  else 95

theorem alphabet_eq : alphabet = (List.range 64).map urlSymbol := by
  decide

theorem tbl_eq {n : Nat} (small : n < 64) : tbl n = urlSymbol n := by
  rw [tbl,alphabet_eq,List.getD_eq_getElem?_getD,List.getElem?_map,List.getElem?_range small]
  rfl

theorem mem_alphabet_iff (c : UInt8) : c ∈ alphabet ↔ ∃ n < 64, urlSymbol n = c := by
  rw [alphabet_eq,List.mem_map]
  exact exists_congr fun n => and_congr_left' List.mem_range

theorem val_symbol : ∀ n < 64, val (urlSymbol n) = some n := by
  decide

theorem symbol_val {c : UInt8} {v : Nat} (read : val c = some v) : v < 64 ∧ urlSymbol v = c := by
  have all : ∀ c : UInt8, ∀ v ∈ val c, v < 64 ∧ urlSymbol v = c := forall_byte (by decide +kernel)
  exact all c v read

theorem val_isSome_iff (c : UInt8) : (val c).isSome = true ↔ c ∈ alphabet := by
  rw [mem_alphabet_iff,Option.isSome_iff_exists]
  constructor
  · rintro ⟨v,read⟩
    exact ⟨v,symbol_val read⟩
  · rintro ⟨n,small,rfl⟩
    exact ⟨n,val_symbol n small⟩

theorem all_symbols_iff (text : Str) : (text.all fun c => (val c).isSome) = true ↔ ∀ c ∈ text, c ∈ alphabet := by
  rw [List.all_eq_true]
  exact forall₂_congr fun c _ => val_isSome_iff c

/-! ### The text of RFC 4648 -/

def byteBits (data : Bytes) : List Bool := data.flatMap fun b => bits 8 b.toNat

def symbols (text : List Bool) : Str := (groups 6 (filled 6 text)).map fun group => urlSymbol (value group)

/-- The bits of the bytes in groups of six, zero bits added to the last group, and no padding characters. -/
def rfc4648 (data : Bytes) : Str := symbols (byteBits data)

theorem symbols_bits (n : Nat) (text : List Bool) : symbols (bits 6 n ++ text) = tbl (n % 64)::symbols text := by
  unfold symbols
  rw [filled_append (by rw [length_bits]),groups_append (length_bits 6 n) (by decide),List.map_cons,value_bits,
    tbl_eq (Nat.mod_lt _ (by decide))]
  rfl

theorem symbols_nil : symbols [] = [] := rfl

/-- The symbols of a number, as the encoder takes them from it. -/
def sextets : (count : Nat) → Nat → Str
  | 0,_ => []
  | count + 1,v => tbl (v / 64^count % 64)::sextets count v

theorem symbols_sextets (count v : Nat) (text : List Bool) :
    symbols (bits (6 * count) v ++ text) = sextets count v ++ symbols text := by
  induction count with
  | zero => rfl
  | succ count ih =>
    have width : 6 * (count + 1) = 6 + 6 * count := by omega
    rw [width,bits_add,List.append_assoc,symbols_bits,ih,Nat.pow_mul]
    rfl

/-- The last group may be filled up beforehand. -/
theorem symbols_filled (count v : Nat) {text : List Bool} (same : filled 6 text = bits (6 * count) v) :
    symbols text = sextets count v := by
  have closed := symbols_sextets count v []
  rw [List.append_nil,← same,symbols_nil,List.append_nil] at closed
  rw [← closed]
  unfold symbols
  rw [filled_filled (by decide)]

theorem byteBits_cons (a : UInt8) (rest : Bytes) : byteBits (a::rest) = bits 8 a.toNat ++ byteBits rest := List.flatMap_cons

theorem bits_bytes (a : Nat) (b : UInt8) (n : Nat) :
    bits (8 * n) a ++ bits 8 b.toNat = bits (8 * n + 8) (a * 256 + b.toNat) :=
  (bits_shift (8 * n) 8 a b.toNat b.toNat_lt).symm

/-- The encoder writes the text of the RFC. -/
theorem base64UrlEncode_eq (data : Bytes) : base64UrlEncode data = rfc4648 data := by
  induction data using base64UrlEncode.induct with
  | case1 a b c rest ih =>
    have number : bits 8 a.toNat ++ bits 8 b.toNat ++ bits 8 c.toNat =
        bits 24 (a.toNat * 65536 + b.toNat * 256 + c.toNat) := by
      rw [bits_bytes a.toNat b 1,bits_bytes _ c 2,Nat.add_mul,Nat.mul_assoc]
    rw [rfc4648,byteBits_cons,byteBits_cons,byteBits_cons,← List.append_assoc,← List.append_assoc,number,
      symbols_sextets 4,← rfc4648,← ih,base64UrlEncode]
    simp [sextets]
  | case2 a b =>
    have number : filled 6 (byteBits [a,b]) = bits 18 ((a.toNat * 256 + b.toNat) * 4) := by
      have joined : byteBits [a,b] = bits 16 (a.toNat * 256 + b.toNat) := bits_bytes a.toNat b 1
      rw [joined]
      exact filled_bits 6 16 2 _ rfl
    rw [rfc4648,symbols_filled 3 _ number,base64UrlEncode]
    simp only [sextets,List.cons.injEq,and_true]
    refine ⟨congrArg tbl ?_,congrArg tbl ?_,congrArg tbl ?_⟩ <;> omega
  | case3 a =>
    have number : filled 6 (byteBits [a]) = bits 12 (a.toNat * 16) := filled_bits 6 8 4 _ rfl
    rw [rfc4648,symbols_filled 2 _ number,base64UrlEncode]
    simp only [sextets,List.cons.injEq,and_true]
    refine ⟨congrArg tbl ?_,congrArg tbl ?_⟩ <;> omega
  | case4 => rfl

theorem symbols_alphabet (text : List Bool) : ∀ c ∈ symbols text, c ∈ alphabet := by
  intro c member
  obtain ⟨group,inside,rfl⟩ := List.mem_map.mp member
  have small := value_lt group
  rw [length_of_mem_groups inside] at small
  exact (mem_alphabet_iff _).mpr ⟨value group,small,rfl⟩

theorem encode_alphabet (data : Bytes) : ∀ c ∈ base64UrlEncode data, c ∈ alphabet := by
  rw [base64UrlEncode_eq]
  exact symbols_alphabet (byteBits data)

theorem encode_ascii (data : Bytes) : ∀ c ∈ base64UrlEncode data, c < 128 := by
  have all : ∀ c ∈ alphabet, c < 128 := by decide +kernel
  intro c member
  exact all c (encode_alphabet data c member)

theorem encode_length (data : Bytes) : (base64UrlEncode data).length = (data.length * 4 + 2) / 3 := by
  induction data using base64UrlEncode.induct with
  | case1 a b c rest ih =>
    rw [base64UrlEncode]
    simp only [List.length_cons,ih]
    omega
  | case2 a b => simp [base64UrlEncode]
  | case3 a => simp [base64UrlEncode]
  | case4 => rfl

/-! ### The server's decoder -/

theorem val_tbl (n : Nat) (small : n < 64) : val (tbl n) = some n := by
  rw [tbl_eq small,val_symbol n small]

private theorem ofNat_eq (byte : UInt8) (n : Nat) (same : n = byte.toNat) : UInt8.ofNat n = byte := by
  rw [same]
  exact UInt8.ofNat_toNat

private theorem quantum_three (a b c : UInt8) (tail : Str) (rest : Bytes)
    (decoded : decodeQuanta tail = some rest) (w x y z : Nat) (hw : w < 64) (hx : x < 64)
    (hy : y < 64) (hz : z < 64)
    (value : w * 262144 + x * 4096 + y * 64 + z = a.toNat * 65536 + b.toNat * 256 + c.toNat) :
    decodeQuanta (tbl w::tbl x::tbl y::tbl z::tail) = some (a::b::c::rest) := by
  have ha := a.toNat_lt
  have hb := b.toNat_lt
  have hc := c.toNat_lt
  simp only [decodeQuanta,val_tbl w hw,val_tbl x hx,val_tbl y hy,val_tbl z hz,decoded,
    bind,Option.bind,value]
  rw [ofNat_eq a _ (by omega),ofNat_eq b _ (by omega),ofNat_eq c _ (by omega)]

private theorem quantum_two (a b : UInt8) (w x y : Nat) (hw : w < 64) (hx : x < 64) (hy : y < 64)
    (value : w * 262144 + x * 4096 + y * 64 = a.toNat * 65536 + b.toNat * 256) :
    decodeQuanta [tbl w,tbl x,tbl y] = some [a,b] := by
  have ha := a.toNat_lt
  have hb := b.toNat_lt
  simp only [decodeQuanta,val_tbl w hw,val_tbl x hx,val_tbl y hy,bind,Option.bind,value]
  rw [ofNat_eq a _ (by omega),ofNat_eq b _ (by omega)]

private theorem quantum_one (a : UInt8) (w x : Nat) (hw : w < 64) (hx : x < 64)
    (value : w * 262144 + x * 4096 = a.toNat * 65536) : decodeQuanta [tbl w,tbl x] = some [a] := by
  have ha := a.toNat_lt
  simp only [decodeQuanta,val_tbl w hw,val_tbl x hx,bind,Option.bind,value]
  rw [ofNat_eq a _ (by omega)]

private theorem sextet (n : Nat) : n % 64 < 64 := Nat.mod_lt _ (by decide)

private theorem quanta_encode (data : Bytes) : decodeQuanta (base64UrlEncode data) = some data := by
  induction data using base64UrlEncode.induct with
  | case1 a b c rest ih =>
    have ha := a.toNat_lt
    have hb := b.toNat_lt
    have hc := c.toNat_lt
    rw [base64UrlEncode]
    exact quantum_three a b c _ rest ih _ _ _ _ (sextet _) (sextet _) (sextet _) (sextet _) (by omega)
  | case2 a b =>
    have ha := a.toNat_lt
    have hb := b.toNat_lt
    rw [base64UrlEncode]
    exact quantum_two a b _ _ _ (sextet _) (sextet _) (sextet _) (by omega)
  | case3 a =>
    have ha := a.toNat_lt
    rw [base64UrlEncode]
    exact quantum_one a _ _ (sextet _) (sextet _) (by omega)
  | case4 => rfl

theorem encode_kept (data : Bytes) :
    (base64UrlEncode data).filter (fun c => c != 13 && c != 10) = base64UrlEncode data := by
  have kept : ∀ n < 64, (urlSymbol n != 13 && urlSymbol n != 10) = true := by decide
  rw [List.filter_eq_self]
  intro c member
  obtain ⟨n,small,rfl⟩ := (mem_alphabet_iff c).mp (encode_alphabet data c member)
  exact kept n small

/-- The server decodes what the plugin encodes. -/
@[simp] theorem decodeBase64URL_encode (data : Bytes) :
    decodeBase64URL (base64UrlEncode data) = some data := by
  rw [decodeBase64URL,encode_kept,quanta_encode]

/-! ### The plugin's decoder -/

/-- What the characters of a text stand for, up to the first that stands for nothing. -/
def symbolBits : Str → List Bool
  | [] => []
  | c::rest =>
    match val c with
    | none => []
    | some v => bits 6 v ++ symbolBits rest

def readBytes (text : List Bool) : Bytes := (groups 8 text).map fun group => UInt8.ofNat (value group)

theorem readBytes_short {text : List Bool} (short : text.length < 8) : readBytes text = [] := by
  rw [readBytes,groups_short short]
  rfl

theorem readBytes_bits (n : Nat) (text : List Bool) : readBytes (bits 8 n ++ text) = UInt8.ofNat (n % 256)::readBytes text := by
  rw [readBytes,groups_append (length_bits 8 n) (by decide),List.map_cons,value_bits]
  rfl

/-- `base64UrlDecode` with its out-parameter, which a rejected text leaves half filled;
`wrap` is what the accumulator keeps of a number. -/
def decodeInto (wrap : Nat → Nat) : Str → (acc pending : Nat) → Bytes → Bool × Bytes
  | [],_,_,out => (true,out)
  | c::rest,acc,pending,out =>
    match val c with
    | none => (false,out)
    | some v =>
      let acc := wrap (acc * 64 + v)
      let pending := pending + 6
      if 8 ≤ pending then
        decodeInto wrap rest acc (pending - 8) (out ++ [UInt8.ofNat (acc / 2^(pending - 8) % 256)])
      else decodeInto wrap rest acc pending out

/-- The bytes of the output, if the text is accepted. -/
def accepted (result : Bool × Bytes) : Option Bytes := if result.1 then some result.2 else none

theorem decodeLoop_eq (text : Str) (acc pending : Nat) (out : Bytes) :
    decodeLoop text acc pending out = accepted (decodeInto (· % 2^32) text acc pending out) := by
  induction text generalizing acc pending out with
  | nil => rfl
  | cons c rest ih =>
    rw [decodeLoop,decodeInto]
    cases val c with
    | none => rfl
    | some v =>
      dsimp only
      split
      · exact ih _ _ _
      · exact ih _ _ _

/-- Every register that keeps the low 14 bits does: only the pending bits and the six
that come in are ever read again. -/
theorem decodeInto_eq (wrap : Nat → Nat) (keeps : ∀ n, wrap n % 2^14 = n % 2^14) (text : Str) (acc pending : Nat)
    (live : pending < 8) (out : Bytes) : decodeInto wrap text acc pending out =
      (text.all fun c => (val c).isSome,out ++ readBytes (bits pending acc ++ symbolBits text)) := by
  induction text generalizing acc pending out with
  | nil =>
    rw [decodeInto,symbolBits,List.append_nil,readBytes_short (by rw [length_bits]; exact live),List.append_nil]
    rfl
  | cons c rest ih =>
    rw [decodeInto,symbolBits,List.all_cons]
    cases read : val c with
    | none =>
      dsimp only
      rw [List.append_nil,readBytes_short (by rw [length_bits]; exact live),List.append_nil]
      rfl
    | some v =>
      have low : wrap (acc * 64 + v) % 2^(pending + 6) = (acc * 64 + v) % 2^(pending + 6) := by
        have divides : 2^(pending + 6) ∣ 2^14 := Nat.pow_dvd_pow 2 (by omega)
        rw [← Nat.mod_mod_of_dvd _ divides,keeps,Nat.mod_mod_of_dvd _ divides]
      have more : bits (pending + 6) (wrap (acc * 64 + v)) = bits pending acc ++ bits 6 v :=
        (bits_congr low).trans (bits_shift pending 6 acc v (symbol_val read).1)
      dsimp only
      rw [← List.append_assoc,← more]
      split
      · rename_i whole
        obtain ⟨left,size⟩ := Nat.exists_eq_add_of_le whole
        rw [size,Nat.add_sub_cancel_left,ih _ left (by omega),bits_add 8 left,List.append_assoc,List.append_assoc,
          readBytes_bits]
        rfl
      · rw [ih _ _ (by omega)]
        rfl

theorem base64UrlDecode_eq (text : Str) : base64UrlDecode text =
    if text.all fun c => (val c).isSome then some (readBytes (symbolBits text)) else none := by
  have keeps : ∀ n : Nat, n % 2^32 % 2^14 = n % 2^14 := fun n => Nat.mod_mod_of_dvd n (by decide)
  rw [base64UrlDecode,decodeLoop_eq,decodeInto_eq _ keeps text 0 0 (by decide) []]
  rfl

theorem length_symbolBits {text : Str} (symbols : ∀ c ∈ text, c ∈ alphabet) : (symbolBits text).length = 6 * text.length := by
  induction text with
  | nil => rfl
  | cons c rest ih =>
    obtain ⟨v,read⟩ := Option.isSome_iff_exists.mp ((val_isSome_iff c).mpr (symbols c List.mem_cons_self))
    rw [symbolBits,read]
    dsimp only
    rw [List.length_append,length_bits,ih fun c member => symbols c (List.mem_cons_of_mem _ member),List.length_cons]
    omega

theorem symbolBits_groups (parts : List (List Bool)) (sized : ∀ group ∈ parts, group.length = 6) :
    symbolBits (parts.map fun group => urlSymbol (value group)) = parts.flatten := by
  induction parts with
  | nil => rfl
  | cons group parts ih =>
    have six := sized group List.mem_cons_self
    have back := bits_value group
    have small := value_lt group
    rw [six] at back small
    rw [List.map_cons,symbolBits,val_symbol _ small,List.flatten_cons,← ih fun other member => sized other (List.mem_cons_of_mem _ member)]
    dsimp only
    rw [back]

theorem symbolBits_symbols (text : List Bool) : symbolBits (symbols text) = filled 6 text := by
  rw [symbols,symbolBits_groups _ fun group member => length_of_mem_groups member,
    flatten_groups (by decide) _ (length_filled (by decide) text)]

theorem readBytes_byteBits (data : Bytes) {rest : List Bool} (short : rest.length < 8) : readBytes (byteBits data ++ rest) = data := by
  have byte : ∀ b : UInt8, UInt8.ofNat (value (bits 8 b.toNat)) = b := by
    intro b
    rw [value_bits,Nat.mod_eq_of_lt b.toNat_lt,UInt8.ofNat_toNat]
  have cut := groups_flatMap (by decide : 0 < 8) (fun b : UInt8 => bits 8 b.toNat) (fun b => length_bits 8 b.toNat) data short
  rw [readBytes,byteBits,cut,List.map_map]
  exact (List.map_congr_left fun b _ => byte b).trans (List.map_id data)

theorem base64UrlDecode_rfc4648 (data : Bytes) : base64UrlDecode (rfc4648 data) = some data := by
  have all := (all_symbols_iff _).mpr (symbols_alphabet (byteBits data))
  have short : (List.replicate (missing 6 (byteBits data)) false).length < 8 := by
    rw [List.length_replicate]
    exact (missing_lt (by decide) _).trans (by decide)
  rw [base64UrlDecode_eq,rfc4648,if_pos all,symbolBits_symbols,filled,readBytes_byteBits data short]

/-- The plugin decodes what it encodes. -/
@[simp] theorem base64UrlDecode_encode (data : Bytes) :
    base64UrlDecode (base64UrlEncode data) = some data := by
  rw [base64UrlEncode_eq,base64UrlDecode_rfc4648]

theorem base64UrlDecode_isSome_iff (text : Str) : (base64UrlDecode text).isSome = true ↔ ∀ c ∈ text, c ∈ alphabet := by
  rw [base64UrlDecode_eq,← all_symbols_iff]
  split
  · rename_i accepts
    exact iff_of_true rfl accepts
  · rename_i rejects
    exact iff_of_false Bool.false_ne_true rejects

theorem base64UrlDecode_length {text : Str} {out : Bytes} (decoded : base64UrlDecode text = some out) :
    out.length = 6 * text.length / 8 := by
  have letters := (base64UrlDecode_isSome_iff text).mp (by rw [decoded]; rfl)
  rw [base64UrlDecode_eq] at decoded
  split at decoded
  · rw [← Option.some.inj decoded,readBytes,List.length_map,length_groups,length_symbolBits letters]
  · contradiction

/-- The encoder writes the unpadded text of the RFC, as the server does, and both decoders
give the bytes back; the plugin's accepts exactly the texts over the alphabet, and is
what it would be with an accumulator that never wraps around. -/
theorem base64url_codec :
    (∀ data, base64UrlEncode data = rfc4648 data ∧ encodeBase64URL data = rfc4648 data ∧
      decodeBase64URL (base64UrlEncode data) = some data ∧ base64UrlDecode (base64UrlEncode data) = some data ∧
      base64UrlDecode (rfc4648 data) = some data) ∧
    (∀ text, (base64UrlDecode text).isSome = true ↔ ∀ c ∈ text, c ∈ alphabet) ∧
    (∀ text, ∀ out ∈ base64UrlDecode text, out.length = 6 * text.length / 8) ∧
    ∀ text, base64UrlDecode text = accepted (decodeInto (· % 2^32) text 0 0 []) ∧
      decodeInto (· % 2^32) text 0 0 [] = decodeInto id text 0 0 [] := by
  refine ⟨fun data => ⟨base64UrlEncode_eq data,base64UrlEncode_eq data,decodeBase64URL_encode data,
    base64UrlDecode_encode data,base64UrlDecode_rfc4648 data⟩,base64UrlDecode_isSome_iff,
    fun _ _ decoded => base64UrlDecode_length decoded,?_⟩
  intro text
  have wraps : ∀ n : Nat, n % 2^32 % 2^14 = n % 2^14 := fun n => Nat.mod_mod_of_dvd n (by decide)
  have plain : ∀ n : Nat, id n % 2^14 = n % 2^14 := fun _ => rfl
  refine ⟨decodeLoop_eq text 0 0 [],?_⟩
  rw [decodeInto_eq (· % 2^32) wraps text 0 0 (by decide),decodeInto_eq id plain text 0 0 (by decide)]

end NPSync.Base64
