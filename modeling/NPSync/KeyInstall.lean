import NPSync.KeySetup
import NPSync.KnownAnswers

/-! `installWrappedMasterKey` with the variable it writes. `Crypto::decrypt` fills
its output before `unwrapMasterKey` looks at the length, and the two `value` reads
stand outside of the `try` around the parser. -/
namespace NPSync.KeySetup

/-- What a call returns, `none` if it throws, and what its output variable holds then. -/
abbrev OutCall := Option Bool × Bytes

variable (plat : KeyPlatform)

def decryptInto (key envelope : Bytes) (aad : Str) (plaintextOut : Bytes) : OutCall :=
  match Crypto.decrypt plat.prim key envelope aad with
  | .threw => (none,plaintextOut)
  | .rejected => (some false,plaintextOut)
  | .plain text => (some true,text)

def unwrapMasterKeyInto (wrapped wrappingKey masterKeyOut : Bytes) : OutCall :=
  match decryptInto plat wrappingKey wrapped (lit "npsync-keywrap") masterKeyOut with
  | (some true,out) => (some (out.length = kMasterKeyLen),out)
  | other => other

/-- `payloadBytes` of a call that leaves the output alone when it fails. -/
def payloadBytesInto (payload : Json) (key : String) (masterKeyOut : Bytes) (next : Bytes → OutCall) : OutCall :=
  match payload.valueStr (lit key) [] with
  | none => (none,masterKeyOut)
  | some text =>
    match Base64.base64UrlDecode text with
    | none => (some false,masterKeyOut)
    | some bytes => next bytes

def installWrappedMasterKeyInto (wrappedPayloadB64 code : Str) (masterKeyOut : Bytes) : OutCall :=
  match normalizePairingCode code with
  | none => (some false,masterKeyOut)
  | some normalized =>
    match Base64.base64UrlDecode wrappedPayloadB64 with
    | none | some [] => (some false,masterKeyOut)
    | some blob =>
      match plat.parse blob with
      | none => (some false,masterKeyOut)
      | some payload =>
        payloadBytesInto payload "salt" masterKeyOut fun salt =>
        payloadBytesInto payload "wrapped" masterKeyOut fun wrapped =>
          unwrapMasterKeyInto plat wrapped (deriveKeyFromCode plat normalized salt) masterKeyOut

/-- The outcome without the variable. -/
def OutCall.opened : OutCall → Opened
  | (none,_) => .threw
  | (some false,_) => .rejected
  | (some true,out) => .plain out

theorem unwrapMasterKeyInto_opened (wrapped wrappingKey masterKeyOut : Bytes) :
    (unwrapMasterKeyInto plat wrapped wrappingKey masterKeyOut).opened = unwrapMasterKey plat wrapped wrappingKey := by
  unfold unwrapMasterKeyInto decryptInto unwrapMasterKey
  cases Crypto.decrypt plat.prim wrappingKey wrapped (lit "npsync-keywrap") with
  | threw => rfl
  | rejected => rfl
  | plain text =>
    dsimp only
    split
    · rename_i sized
      simp [OutCall.opened,sized]
    · rename_i other
      simp [OutCall.opened,other]

theorem payloadBytesInto_opened {payload : Json} {key : String} {masterKeyOut : Bytes} {next : Bytes → OutCall}
    {plain : Bytes → Opened} (same : ∀ bytes, (next bytes).opened = plain bytes) :
    (payloadBytesInto payload key masterKeyOut next).opened = payloadBytes payload key plain := by
  unfold payloadBytesInto payloadBytes
  cases payload.valueStr (lit key) [] with
  | none => rfl
  | some text =>
    dsimp only
    cases Base64.base64UrlDecode text with
    | none => rfl
    | some bytes => exact same bytes

theorem installWrappedMasterKeyInto_opened (wrappedPayloadB64 code : Str) (masterKeyOut : Bytes) :
    (installWrappedMasterKeyInto plat wrappedPayloadB64 code masterKeyOut).opened =
      installWrappedMasterKey plat wrappedPayloadB64 code := by
  unfold installWrappedMasterKeyInto installWrappedMasterKey
  cases normalizePairingCode code with
  | none => rfl
  | some normalized =>
    rcases Base64.base64UrlDecode wrappedPayloadB64 with _ | _ | ⟨first,rest⟩
    · rfl
    · rfl
    · dsimp only
      cases plat.parse (first::rest) with
      | none => rfl
      | some payload =>
        exact payloadBytesInto_opened fun salt => payloadBytesInto_opened fun wrapped =>
          unwrapMasterKeyInto_opened plat wrapped _ masterKeyOut

/-! ### What is installed -/

/-- The field of the payload, a string if it is there, holds the bytes. -/
def HoldsField (payload : Json) (key : String) (bytes : Bytes) : Prop :=
  ∃ text, payload.valueStr (lit key) [] = some text ∧ Base64.base64UrlDecode text = some bytes

/-- The envelope a payload embeds, and the key its salt and the code lead to. -/
def Embeds (wrappedPayloadB64 code : Str) (wrapped wrappingKey : Bytes) : Prop :=
  ∃ normalized blob payload salt, normalizePairingCode code = some normalized ∧
    Base64.base64UrlDecode wrappedPayloadB64 = some blob ∧ plat.parse blob = some payload ∧ HoldsField payload "salt" salt ∧
    HoldsField payload "wrapped" wrapped ∧ wrappingKey = deriveKeyFromCode plat normalized salt

theorem payloadBytes_plain {payload : Json} {key : String} {next : Bytes → Opened} {text : Bytes}
    (opens : payloadBytes payload key next = .plain text) : ∃ bytes, HoldsField payload key bytes ∧ next bytes = .plain text := by
  unfold payloadBytes at opens
  split at opens
  · contradiction
  rename_i found
  split at opens
  · contradiction
  rename_i bytes decoded
  exact ⟨bytes,⟨_,found,decoded⟩,opens⟩

theorem unwrapMasterKey_plain {wrapped wrappingKey masterKey : Bytes}
    (opens : unwrapMasterKey plat wrapped wrappingKey = .plain masterKey) :
    Crypto.decrypt plat.prim wrappingKey wrapped (lit "npsync-keywrap") = .plain masterKey ∧ masterKey.length = kMasterKeyLen := by
  unfold unwrapMasterKey at opens
  split at opens
  · rename_i text decrypted
    split at opens
    · rename_i sized
      cases opens
      exact ⟨decrypted,sized⟩
    · contradiction
  · rename_i other
    exact absurd opens (other masterKey)

theorem installWrappedMasterKey_plain {wrappedPayloadB64 code : Str} {masterKey : Bytes}
    (opens : installWrappedMasterKey plat wrappedPayloadB64 code = .plain masterKey) :
    ∃ wrapped wrappingKey, Embeds plat wrappedPayloadB64 code wrapped wrappingKey ∧
      Crypto.decrypt plat.prim wrappingKey wrapped (lit "npsync-keywrap") = .plain masterKey ∧
      masterKey.length = kMasterKeyLen := by
  unfold installWrappedMasterKey at opens
  split at opens
  · contradiction
  rename_i normalized normal
  split at opens
  · contradiction
  · contradiction
  rename_i blob _ decoded
  split at opens
  · contradiction
  rename_i payload parsed
  obtain ⟨salt,salted,opens⟩ := payloadBytes_plain opens
  obtain ⟨wrapped,held,opens⟩ := payloadBytes_plain opens
  exact ⟨wrapped,_,⟨normalized,blob,payload,salt,normal,decoded,parsed,salted,held,rfl⟩,unwrapMasterKey_plain plat opens⟩

/-! ### What fails -/

/-- The call does not throw, and if it returns false the variable is as before. -/
def OutCall.Safe (masterKeyOut : Bytes) (call : OutCall) : Prop := call.1 ≠ none ∧ (call.1 = some false → call.2 = masterKeyOut)

/-- The payload is an object whose field is absent or a string, and if the string is
base64 its bytes are good. -/
def Readable (payload : Json) (key : String) (good : Bytes → Prop) : Prop :=
  ∃ text, payload.valueStr (lit key) [] = some text ∧ ∀ bytes, Base64.base64UrlDecode text = some bytes → good bytes

/-- If the code and the text are read to the end, every field has the type that is
read, and an envelope that opens holds 32 bytes or what the variable holds already. -/
def WellShaped (wrappedPayloadB64 code : Str) (masterKeyOut : Bytes) : Prop :=
  ∀ normalized, normalizePairingCode code = some normalized →
    ∀ blob, Base64.base64UrlDecode wrappedPayloadB64 = some blob → blob ≠ [] → ∀ payload, plat.parse blob = some payload →
    Readable payload "salt" fun salt => Readable payload "wrapped" fun wrapped => ∀ text,
      Crypto.decrypt plat.prim (deriveKeyFromCode plat normalized salt) wrapped (lit "npsync-keywrap") = .plain text →
        text.length = kMasterKeyLen ∨ text = masterKeyOut

theorem OutCall.rejected_safe (masterKeyOut : Bytes) : OutCall.Safe masterKeyOut (some false,masterKeyOut) :=
  ⟨nofun,fun _ => rfl⟩

theorem decrypt_not_threw {key : Bytes} (keyed : key.length = kMasterKeyLen) (envelope : Bytes) (aad : Str) :
    Crypto.decrypt plat.prim key envelope aad ≠ .threw := by
  unfold Crypto.decrypt
  rw [if_neg (c := key.length ≠ kMasterKeyLen) (by simp [keyed])]
  intro threw
  split at threw
  · contradiction
  split at threw
  · contradiction
  split at threw
  · contradiction
  dsimp only at threw
  split at threw <;> contradiction

theorem unwrapMasterKeyInto_safe {wrappingKey : Bytes} (keyed : wrappingKey.length = kMasterKeyLen) (wrapped masterKeyOut : Bytes) :
    (unwrapMasterKeyInto plat wrapped wrappingKey masterKeyOut).Safe masterKeyOut ↔ ∀ text,
      Crypto.decrypt plat.prim wrappingKey wrapped (lit "npsync-keywrap") = .plain text →
        text.length = kMasterKeyLen ∨ text = masterKeyOut := by
  have returns := decrypt_not_threw plat keyed wrapped (lit "npsync-keywrap")
  unfold unwrapMasterKeyInto decryptInto
  cases opens : Crypto.decrypt plat.prim wrappingKey wrapped (lit "npsync-keywrap") with
  | threw => contradiction
  | rejected => exact ⟨fun _ => nofun,fun _ => OutCall.rejected_safe masterKeyOut⟩
  | plain text =>
    simp only [OutCall.Safe,ne_eq,reduceCtorEq,not_false_eq_true,true_and,Option.some.injEq,decide_eq_false_iff_not,
      Opened.plain.injEq,forall_eq']
    exact or_iff_not_imp_left.symm

theorem payloadBytesInto_safe (payload : Json) (key : String) (masterKeyOut : Bytes) (next : Bytes → OutCall) :
    (payloadBytesInto payload key masterKeyOut next).Safe masterKeyOut ↔
      Readable payload key fun bytes => (next bytes).Safe masterKeyOut := by
  unfold payloadBytesInto Readable
  cases payload.valueStr (lit key) [] with
  | none => exact ⟨fun safe => absurd rfl safe.1,nofun⟩
  | some text =>
    simp only [Option.some.injEq,exists_eq_left']
    cases Base64.base64UrlDecode text with
    | none => exact ⟨fun _ => nofun,fun _ => OutCall.rejected_safe masterKeyOut⟩
    | some bytes => simp only [Option.some.injEq,forall_eq']

theorem install_safe_iff (wrappedPayloadB64 code : Str) (masterKeyOut : Bytes) :
    (installWrappedMasterKeyInto plat wrappedPayloadB64 code masterKeyOut).Safe masterKeyOut ↔
      WellShaped plat wrappedPayloadB64 code masterKeyOut := by
  have rejected := OutCall.rejected_safe masterKeyOut
  unfold installWrappedMasterKeyInto WellShaped
  cases normalizePairingCode code with
  | none => exact ⟨fun _ => nofun,fun _ => rejected⟩
  | some normalized =>
    simp only [Option.some.injEq,forall_eq']
    rcases Base64.base64UrlDecode wrappedPayloadB64 with _ | _ | ⟨first,rest⟩
    · exact ⟨fun _ => nofun,fun _ => rejected⟩
    · exact ⟨fun _ blob empty some_ => absurd (Option.some.inj empty).symm some_,fun _ => rejected⟩
    · simp only [Option.some.injEq,forall_eq',ne_eq,reduceCtorEq,not_false_eq_true,forall_const]
      cases plat.parse (first::rest) with
      | none => exact ⟨fun _ => nofun,fun _ => rejected⟩
      | some payload =>
        have keyed : ∀ salt, (deriveKeyFromCode plat normalized salt).length = kMasterKeyLen := fun salt => (plat.pbkdf2 _ _ _).2
        simp only [payloadBytesInto_safe,Option.some.injEq,forall_eq',unwrapMasterKeyInto_safe plat (keyed _)]

/-- The call returns; if it returns true the variable holds the 32-byte key of the
embedded envelope, and if it returns false what it held before. -/
structure FailsClosed (wrappedPayloadB64 code : Str) (masterKeyOut : Bytes) : Prop where
  returns : (installWrappedMasterKeyInto plat wrappedPayloadB64 code masterKeyOut).1 ≠ none
  installed : (installWrappedMasterKeyInto plat wrappedPayloadB64 code masterKeyOut).1 = some true →
    (installWrappedMasterKeyInto plat wrappedPayloadB64 code masterKeyOut).2.length = kMasterKeyLen ∧
    ∃ wrapped wrappingKey, Embeds plat wrappedPayloadB64 code wrapped wrappingKey ∧
      Crypto.decrypt plat.prim wrappingKey wrapped (lit "npsync-keywrap") =
        .plain (installWrappedMasterKeyInto plat wrappedPayloadB64 code masterKeyOut).2
  untouched : (installWrappedMasterKeyInto plat wrappedPayloadB64 code masterKeyOut).1 = some false →
    (installWrappedMasterKeyInto plat wrappedPayloadB64 code masterKeyOut).2 = masterKeyOut

/-- Unwrapping fails closed exactly on the payloads whose fields have the types that
are read and whose envelope, if it opens, holds a key of the right length. -/
theorem install_failsClosed_iff (wrappedPayloadB64 code : Str) (masterKeyOut : Bytes) :
    FailsClosed plat wrappedPayloadB64 code masterKeyOut ↔ WellShaped plat wrappedPayloadB64 code masterKeyOut := by
  rw [← install_safe_iff]
  constructor
  · exact fun closed => ⟨closed.returns,closed.untouched⟩
  · intro safe
    refine ⟨safe.1,fun accepted => ?_,safe.2⟩
    have opened := installWrappedMasterKeyInto_opened plat wrappedPayloadB64 code masterKeyOut
    generalize installWrappedMasterKeyInto plat wrappedPayloadB64 code masterKeyOut = call at accepted opened ⊢
    obtain ⟨_,key⟩ := call
    cases accepted
    obtain ⟨wrapped,wrappingKey,embedded,opens,sized⟩ := installWrappedMasterKey_plain plat opened.symm
    exact ⟨sized,wrapped,wrappingKey,embedded,opens⟩

/-- A platform whose parser knows the text of an empty array. -/
def arrayPlatform : KeyPlatform where
  prim := KnownAnswers.sample
  parse text := if text = lit "[]" then some (.arr []) else none
  pbkdf2 _ _ _ := KnownAnswers.zeroKey

/-- The payload is the base64url form of `[]`. -/
theorem array_payload_throws : ¬FailsClosed arrayPlatform (lit "W10") (lit "ABCD-EFGH") [] := by
  intro closed
  apply closed.returns
  decide

end NPSync.KeySetup
