import NPSync.Base64

/-! `core/Crypto.cpp`. AES-256-GCM and SHA-256 are the operating system's; the
envelope around them and the hex digest are the plugin's. A call that throws in
the plugin is `none`. -/
namespace NPSync

def kMasterKeyLen : Nat := 32
def kGcmNonceLen : Nat := 12
def kGcmTagLen : Nat := 16

abbrev Nonce := {nonce : Bytes // nonce.length = kGcmNonceLen}
abbrev Tag := {tag : Bytes // tag.length = kGcmTagLen}
abbrev Digest := {digest : Bytes // digest.length = 32}

/-- The primitives both sides take from their platforms. -/
structure Primitives where
  sha256 : Bytes → Digest
  gcmSeal : (key : Bytes) → Nonce → (plaintext : Bytes) → (aad : Str) → Bytes × Tag
  gcmOpen : (key : Bytes) → (nonce ciphertext : Bytes) → (aad : Str) → (tag : Bytes) → Option Bytes
  gcmSeal_length : ∀ key nonce plaintext aad, (gcmSeal key nonce plaintext aad).1.length = plaintext.length
  gcmOpen_seal : ∀ key nonce plaintext aad,
    gcmOpen key nonce.1 (gcmSeal key nonce plaintext aad).1 aad (gcmSeal key nonce plaintext aad).2.1 =
      some plaintext

/-- Outcome of `Crypto::decrypt`: it throws on a key of the wrong size and
returns false on everything else it rejects. -/
inductive Opened where
  | threw
  | rejected
  | plain (text : Bytes)
  deriving DecidableEq

namespace Crypto

def kEnvelopeMagic : Bytes := lit "NPS1"
def kAlgAes256Gcm : UInt8 := 1
def headerLen : Nat := 4 + 1 + kGcmNonceLen + kGcmTagLen

variable (prim : Primitives)

def sha256Hex (data : Bytes) : Str := hex (prim.sha256 data).1

def encrypt (key : Bytes) (nonce : Nonce) (plaintext : Bytes) (aad : Str) : Option Bytes :=
  if key.length ≠ kMasterKeyLen then none
  else
    let out := prim.gcmSeal key nonce plaintext aad
    some (kEnvelopeMagic ++ [kAlgAes256Gcm] ++ nonce.1 ++ out.2.1 ++ out.1)

def decrypt (key envelope : Bytes) (aad : Str) : Opened :=
  if envelope.length < headerLen then .rejected
  else if envelope.take 4 ≠ kEnvelopeMagic then .rejected
  else if envelope.getD 4 0 ≠ kAlgAes256Gcm then .rejected
  else if key.length ≠ kMasterKeyLen then .threw
  else
    let nonce := (envelope.drop 5).take kGcmNonceLen
    let tag := (envelope.drop (5 + kGcmNonceLen)).take kGcmTagLen
    match prim.gcmOpen key nonce (envelope.drop headerLen) aad tag with
    | some text => .plain text
    | none => .rejected

theorem sha256Hex_length (data : Bytes) : (sha256Hex prim data).length = 64 := by
  rw [sha256Hex,hex_length,(prim.sha256 data).2]

theorem sha256Hex_isLowerHex (data : Bytes) : (sha256Hex prim data).all isLowerHex = true :=
  hex_isLowerHex _

theorem encrypt_length (key : Bytes) (nonce : Nonce) (plaintext : Bytes) (aad : Str) (envelope : Bytes)
    (sealed : encrypt prim key nonce plaintext aad = some envelope) :
    envelope.length = headerLen + plaintext.length := by
  unfold encrypt at sealed
  split at sealed
  · contradiction
  · have tag := (prim.gcmSeal key nonce plaintext aad).2.2
    have text := prim.gcmSeal_length key nonce plaintext aad
    rw [← Option.some.inj sealed]
    simp only [List.length_append,nonce.2,tag,text]
    simp [kEnvelopeMagic,headerLen,lit]

/-- What `decrypt` makes of an envelope of `encrypt`, under any key. -/
theorem decrypt_sealed {key envelope plaintext : Bytes} {nonce : Nonce} {aad : Str}
    (sealed : encrypt prim key nonce plaintext aad = some envelope) (other : Bytes) :
    decrypt prim other envelope aad = if other.length ≠ kMasterKeyLen then .threw
      else match prim.gcmOpen other nonce.1 (prim.gcmSeal key nonce plaintext aad).1 aad (prim.gcmSeal key nonce plaintext aad).2.1 with
        | some text => .plain text
        | none => .rejected := by
  have size := encrypt_length prim key nonce plaintext aad envelope sealed
  unfold encrypt at sealed
  split at sealed
  · contradiction
  · obtain ⟨nonce,hn⟩ := nonce
    have hs := Option.some.inj sealed
    generalize prim.gcmSeal key ⟨nonce,hn⟩ plaintext aad = out at hs ⊢
    obtain ⟨text,tag,ht⟩ := out
    dsimp only at hs ⊢
    have prefixed : envelope = [78,80,83,49,1] ++ (nonce ++ (tag ++ text)) := by
      rw [← hs]
      simp only [List.append_assoc]
      rfl
    have dropFive : envelope.drop 5 = nonce ++ (tag ++ text) := by rw [prefixed]; rfl
    have first : (envelope.drop 5).take kGcmNonceLen = nonce := by
      rw [dropFive,← hn,List.take_left]
    have dropNonce : envelope.drop (5 + kGcmNonceLen) = tag ++ text := by
      rw [← List.drop_drop,dropFive,← hn,List.drop_left]
    have second : (envelope.drop (5 + kGcmNonceLen)).take kGcmTagLen = tag := by
      rw [dropNonce,← ht,List.take_left]
    have third : envelope.drop headerLen = text := by
      change envelope.drop (5 + kGcmNonceLen + kGcmTagLen) = text
      rw [← List.drop_drop,dropNonce,← ht,List.drop_left]
    have magic : envelope.take 4 = kEnvelopeMagic := by rw [prefixed]; rfl
    have alg : envelope.getD 4 0 = kAlgAes256Gcm := by rw [prefixed]; rfl
    have long : ¬ envelope.length < headerLen := by omega
    simp only [decrypt,long,magic,alg,first,second,third,if_false,ne_eq,not_true]

/-- `decrypt` inverts `encrypt` under the same key and associated data. -/
theorem decrypt_encrypt (key : Bytes) (nonce : Nonce) (plaintext : Bytes) (aad : Str) (envelope : Bytes)
    (sealed : encrypt prim key nonce plaintext aad = some envelope) :
    decrypt prim key envelope aad = .plain plaintext := by
  have sized : key.length = kMasterKeyLen := by
    unfold encrypt at sealed
    split at sealed
    · contradiction
    · rename_i sized
      exact not_not.mp sized
  rw [decrypt_sealed prim sealed key,if_neg (not_not.mpr sized),prim.gcmOpen_seal]

end Crypto
end NPSync
