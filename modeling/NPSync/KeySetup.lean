import NPSync.Crypto
import NPSync.Json

/-! `core/KeySetup.cpp` and the key wrap of `core/Crypto.cpp`: the master key
travels to another computer under a key derived from the pairing code. -/
namespace NPSync

/-- What a wrap takes from its platform. `pbkdf2` is PBKDF2 with HMAC-SHA-256,
`parse` is `json::parse`; `none` throws. -/
structure KeyPlatform where
  prim : Primitives
  parse : Str → Option Json
  pbkdf2 : (password salt : Bytes) → (iterations : Nat) → {key : Bytes // key.length = kMasterKeyLen}

/-- The random bytes of one wrap. -/
structure WrapDraws where
  salt : {salt : Bytes // salt.length = 16}
  nonce : Nonce

namespace KeySetup

def pairingAlphabet : Str := lit "ABCDEFGHJKMNPQRSTUVWXYZ23456789"

def separator (ch : UInt8) : Bool := ch = 32 || ch = 45 || ch = 9

def upper (ch : UInt8) : UInt8 := if 97 ≤ ch && ch ≤ 122 then ch - 97 + 65 else ch

/-- The loop of `normalizePairingCode`. -/
def rawCode : Str → Option Str
  | [] => some []
  | ch::rest =>
    if separator ch then rawCode rest
    else if 127 < upper ch ∨ upper ch ∉ pairingAlphabet then none
    else (rawCode rest).map (upper ch::·)

def dashed (raw : Str) : Str := raw.take 4 ++ lit "-" ++ raw.drop 4

def normalizePairingCode (code : Str) : Option Str :=
  match rawCode code with
  | none => none
  | some raw => if raw.length ≠ 8 then none else some (dashed raw)

section
variable (plat : KeyPlatform)

def deriveKeyFromCode (code : Str) (salt : Bytes) : Bytes := (plat.pbkdf2 code salt 200000).1

def wrapMasterKey (masterKey wrappingKey : Bytes) (nonce : Nonce) : Option Bytes :=
  Crypto.encrypt plat.prim wrappingKey nonce masterKey (lit "npsync-keywrap")

def unwrapMasterKey (wrapped wrappingKey : Bytes) : Opened :=
  match Crypto.decrypt plat.prim wrappingKey wrapped (lit "npsync-keywrap") with
  | .plain masterKey => if masterKey.length = kMasterKeyLen then .plain masterKey else .rejected
  | other => other

def wrapPayload (salt wrapped : Bytes) : Json := .obj [
  (lit "salt",.str (Base64.base64UrlEncode salt)),(lit "wrapped",.str (Base64.base64UrlEncode wrapped))]

/-- `wrapMasterKeyForPairing`: empty on failure, `none` is an exception. -/
def wrapMasterKeyForPairing (masterKey : Bytes) (code : Str) (draws : WrapDraws) : Option Str :=
  if masterKey.length ≠ kMasterKeyLen then some []
  else match normalizePairingCode code with
    | none => some []
    | some normalized => do
      let wrapped ← wrapMasterKey plat masterKey (deriveKeyFromCode plat normalized draws.salt.1) draws.nonce
      let dumped ← (wrapPayload draws.salt.1 wrapped).dump
      return Base64.base64UrlEncode dumped

/-- `value(key, "")` of the payload, decoded; a payload that is no object throws. -/
def payloadBytes (payload : Json) (key : String) (next : Bytes → Opened) : Opened :=
  match payload.valueStr (lit key) [] with
  | none => .threw
  | some text =>
    match Base64.base64UrlDecode text with
    | none => .rejected
    | some bytes => next bytes

def installWrappedMasterKey (wrappedPayloadB64 code : Str) : Opened :=
  match normalizePairingCode code with
  | none => .rejected
  | some normalized =>
    match Base64.base64UrlDecode wrappedPayloadB64 with
    | none | some [] => .rejected
    | some blob =>
      match plat.parse blob with
      | none => .rejected
      | some payload =>
        payloadBytes payload "salt" fun salt => payloadBytes payload "wrapped" fun wrapped =>
          unwrapMasterKey plat wrapped (deriveKeyFromCode plat normalized salt)

end

/-! ### Codes -/

theorem rawCode_kept {raw : Str} (letters : ∀ c ∈ raw, c ∈ pairingAlphabet) : rawCode raw = some raw := by
  have plain : ∀ c ∈ pairingAlphabet, separator c = false ∧ upper c = c ∧ ¬127 < c := by decide +kernel
  induction raw with
  | nil => rfl
  | cons c rest ih =>
    have inside := letters c List.mem_cons_self
    obtain ⟨apart,same,small⟩ := plain c inside
    unfold rawCode
    rw [if_neg (by simp [apart]),same,if_neg (by simp [small,inside]),ih fun d member => letters d (List.mem_cons_of_mem _ member)]
    rfl

theorem rawCode_append (first second : Str) :
    rawCode (first ++ second) = (rawCode first).bind fun a => (rawCode second).map (a ++ ·) := by
  induction first with
  | nil => simp [rawCode]
  | cons ch rest ih =>
    rw [List.cons_append,rawCode,rawCode,ih]
    split
    · rfl
    split
    · rfl
    · cases rawCode rest <;> cases rawCode second <;> rfl

/-- A code in its normal form is left as it is. -/
theorem normalizePairingCode_dashed {raw : Str} (sized : raw.length = 8) (letters : ∀ c ∈ raw, c ∈ pairingAlphabet) :
    normalizePairingCode (dashed raw) = some (dashed raw) := by
  have first := rawCode_kept fun c member => letters c (List.mem_of_mem_take (i := 4) member)
  have second := rawCode_kept fun c member => letters c (List.mem_of_mem_drop (i := 4) member)
  have dash : rawCode (lit "-") = some [] := rfl
  have kept : rawCode (dashed raw) = some raw := by
    rw [dashed,rawCode_append,rawCode_append,first,dash,second]
    simp
  rw [normalizePairingCode,kept]
  simp [sized]

theorem dashed_inj {a b : Str} (first : a.length = 8) (second : b.length = 8) (same : dashed a = dashed b) : a = b := by
  unfold dashed at same
  rw [List.append_assoc,List.append_assoc] at same
  obtain ⟨front,back⟩ := List.append_inj same (by simp [first,second])
  rw [← List.take_append_drop 4 a,front,List.append_cancel_left back,List.take_append_drop]

/-- What is typed counts without its separators and in upper case. -/
theorem rawCode_typed {code raw : Str} (letters : ∀ c ∈ raw, c ∈ pairingAlphabet) :
    rawCode code = some raw ↔ (code.filter (fun ch => !separator ch)).map upper = raw := by
  induction code generalizing raw with
  | nil => simp [rawCode]
  | cons ch rest ih =>
    unfold rawCode
    cases apart : separator ch with
    | true => simpa [apart] using ih letters
    | false =>
      rw [if_neg (by simp),List.filter_cons_of_pos (by simp [apart]),List.map_cons]
      cases raw with
      | nil =>
        simp only [List.cons_ne_nil,iff_false]
        split
        · nofun
        · cases rawCode rest <;> simp
      | cons c more =>
        have plain : ∀ c ∈ pairingAlphabet, ¬127 < c := by decide +kernel
        have others := ih fun d member => letters d (List.mem_cons_of_mem _ member)
        constructor
        · intro read
          split at read
          · cases read
          · obtain ⟨tail,same,cons⟩ := Option.map_eq_some_iff.mp read
            injection cons with head rests
            rw [head,others.mp (rests ▸ same)]
        · intro typed
          injection typed with head rests
          have inside := letters c List.mem_cons_self
          rw [head,if_neg (by simp [plain c inside,inside]),others.mpr rests]
          rfl

/-! ### The wrapped key -/

theorem quoted_encode (data : Bytes) : Json.quoted (Base64.base64UrlEncode data) = 34::Base64.base64UrlEncode data ++ [34] := by
  have plain : ∀ c ∈ Base64.alphabet, Json.escape c = [c] := by decide +kernel
  have same : ∀ text : Str, (∀ c ∈ text, c ∈ Base64.alphabet) → text.flatMap Json.escape = text := by
    intro text inside
    induction text with
    | nil => rfl
    | cons c rest ih =>
      rw [List.flatMap_cons,plain c (inside c List.mem_cons_self),ih fun d member => inside d (List.mem_cons_of_mem _ member)]
      rfl
  rw [Json.quoted,same _ (Base64.encode_alphabet data)]
  rfl

theorem quoted_encode_length (data : Bytes) :
    (Json.quoted (Base64.base64UrlEncode data)).length = (Base64.base64UrlEncode data).length + 2 := by
  rw [quoted_encode]
  simp

theorem wrapPayload_dump (salt wrapped : Bytes) : (wrapPayload salt wrapped).dump = some (wrapPayload salt wrapped).dumpText := by
  have first := Json.validUtf8_of_ascii _ (Base64.encode_ascii salt)
  have second := Json.validUtf8_of_ascii _ (Base64.encode_ascii wrapped)
  have saltKey : Json.validUtf8 (lit "salt") = true := Json.validUtf8_of_ascii _ (by decide +kernel)
  have wrappedKey : Json.validUtf8 (lit "wrapped") = true := Json.validUtf8_of_ascii _ (by decide +kernel)
  rw [Json.dump,if_pos]
  simp only [wrapPayload,Json.valid,Json.validFields,first,second,saltKey,wrappedKey,Bool.true_and]

theorem wrapPayload_length (salt wrapped : Bytes) :
    (wrapPayload salt wrapped).dumpText.length = (salt.length * 4 + 2) / 3 + (wrapped.length * 4 + 2) / 3 + 24 := by
  have saltKey : (Json.quoted (lit "salt")).length = 6 := by decide
  have wrappedKey : (Json.quoted (lit "wrapped")).length = 9 := by decide
  simp only [wrapPayload,Json.dumpText,Json.dumpFields,List.length_append,quoted_encode_length,saltKey,wrappedKey,
    Base64.encode_length]
  simp [lit]
  omega

section
variable (plat : KeyPlatform)

/-- A wrapped master key unwraps under the same wrapping key. -/
theorem unwrap_wrap {masterKey wrappingKey : Bytes} (sized : masterKey.length = kMasterKeyLen)
    (keyed : wrappingKey.length = kMasterKeyLen) (nonce : Nonce) :
    ∃ wrapped, wrapMasterKey plat masterKey wrappingKey nonce = some wrapped ∧ wrapped.length = 65 ∧
      unwrapMasterKey plat wrapped wrappingKey = .plain masterKey := by
  obtain ⟨wrapped,sealed⟩ : ∃ wrapped, wrapMasterKey plat masterKey wrappingKey nonce = some wrapped := by
    unfold wrapMasterKey Crypto.encrypt
    rw [if_neg (by simp [keyed])]
    exact ⟨_,rfl⟩
  have size := Crypto.encrypt_length _ _ _ _ _ _ sealed
  refine ⟨wrapped,sealed,?_,?_⟩
  · rw [size,sized]
    rfl
  · rw [unwrapMasterKey,Crypto.decrypt_encrypt _ _ _ _ _ _ sealed]
    simp [sized]

/-- The plugin's JSON library reads back the payload of this wrap. -/
def ReadsWrap (masterKey : Bytes) (code : Str) (draws : WrapDraws) : Prop :=
  ∀ wrapped text, wrapMasterKey plat masterKey (deriveKeyFromCode plat code draws.salt.1) draws.nonce = some wrapped →
    (wrapPayload draws.salt.1 wrapped).dump = some text → plat.parse text = some (wrapPayload draws.salt.1 wrapped)

/-- A key that is wrapped for a code is installed with the same code, however each is typed. -/
theorem install_wrap {masterKey : Bytes} {code typed shown : Str} {draws : WrapDraws}
    (sized : masterKey.length = kMasterKeyLen) (reads : ReadsWrap plat masterKey code draws)
    (wraps : normalizePairingCode typed = some code) (opens : normalizePairingCode shown = some code) :
    ∃ blob, wrapMasterKeyForPairing plat masterKey typed draws = some (Base64.base64UrlEncode blob) ∧ blob.length = 133 ∧
      installWrappedMasterKey plat (Base64.base64UrlEncode blob) shown = .plain masterKey := by
  have keyed : (deriveKeyFromCode plat code draws.salt.1).length = kMasterKeyLen := (plat.pbkdf2 _ _ _).2
  obtain ⟨wrapped,sealed,size,unwraps⟩ := unwrap_wrap plat sized keyed draws.nonce
  have dumped := wrapPayload_dump draws.salt.1 wrapped
  have parsed := reads wrapped _ sealed dumped
  have long := wrapPayload_length draws.salt.1 wrapped
  rw [draws.salt.2,size] at long
  refine ⟨_,?_,long,?_⟩
  · unfold wrapMasterKeyForPairing
    rw [if_neg (by simp [sized]),wraps]
    simp only [sealed,dumped,Option.bind_eq_bind,Option.bind_some,Option.pure_def]
  · unfold installWrappedMasterKey
    rw [opens]
    dsimp only
    rw [Base64.base64UrlDecode_encode]
    generalize (wrapPayload draws.salt.1 wrapped).dumpText = text at parsed long
    cases text with
    | nil => contradiction
    | cons first rest =>
      dsimp only
      rw [parsed]
      have salt : (wrapPayload draws.salt.1 wrapped).valueStr (lit "salt") [] = some (Base64.base64UrlEncode draws.salt.1) := by
        rfl
      have key : (wrapPayload draws.salt.1 wrapped).valueStr (lit "wrapped") [] = some (Base64.base64UrlEncode wrapped) := by
        rfl
      simp only [payloadBytes,salt,key,Base64.base64UrlDecode_encode]
      exact unwraps

end

end KeySetup
end NPSync
