import Mathlib
import NPSync.Engine.PairingInstall
import NPSync.RecoveryKeys

/-! The master key over the life of a computer (`applyWizardKeyStep`, `finishFirstRunKeys`,
`writeLocalRecoveryWrap`, `unlockWithRecoveryKey`, `approvePairing`, `completePairing` and the
start), for all computers of an account. -/
namespace NPSync.Engine
open Library KeySetup RecoveryKeys

/-- What a new key draws. -/
structure MintDraws where
  masterKey : {key : Bytes // key.length = kMasterKeyLen}
  recovery : Draw
  wrap : WrapDraws

structure MintIo where
  saveKey : SaveFate
  saveWrap : SaveFate
  saveDisplay : SaveFate

/-- Also `FirstRunKeyStep`. -/
inductive WizardKeyOutcome where
  | keptExisting
  | createdNew
  | refusedToMint
  deriving DecidableEq

def applyWizardKeyStep (masterKey : Bytes) (createIfMissing : Bool) (minted : Bytes) : WizardKeyOutcome × Bytes :=
  if masterKey.length = kMasterKeyLen then (.keptExisting,masterKey)
  else if !createIfMissing then (.refusedToMint,masterKey)
  else (.createdNew,minted)

section
variable (plat : KeyPlatform)

/-- `none` is an exception. -/
def writeLocalRecoveryWrap (masterKey : Bytes) (secrets : Secrets) (draws : MintDraws) (io : MintIo) : Option Bool × Secrets :=
  let recovery := generateRecoveryKey draws.recovery
  let salt := draws.wrap.salt.1
  match (wrapMasterKey plat masterKey (deriveKeyFromCode plat recovery salt) draws.wrap.nonce).bind
      fun wrapped => (wrapPayload salt wrapped).dump with
  | none => (none,secrets)
  | some text =>
    let out := saveSecret secrets .recoveryWrapped text io.saveWrap
    if !out.1 then (some false,out.2)
    else
      let shown := saveSecret out.2 .recoveryKeyDisplay recovery io.saveDisplay
      (some shown.1,shown.2)

def finishFirstRunKeys (s : KeyState) (createIfMissing : Bool) (draws : MintDraws) (io : MintIo) :
    Option WizardKeyOutcome × KeyState :=
  let step := applyWizardKeyStep s.masterKey createIfMissing draws.masterKey.1
  match step.1 with
  | .keptExisting => (some .keptExisting,s)
  | .refusedToMint => (some .refusedToMint,s)
  | .createdNew =>
    match s.store with
    | none => (some .refusedToMint,{s with masterKey := []})
    | some secrets =>
      let saved := saveSecret secrets .masterKey (Base64.base64UrlEncode step.2) io.saveKey
      if !saved.1 then (some .refusedToMint,⟨[],some saved.2⟩)
      else
        let wrote := writeLocalRecoveryWrap plat step.2 saved.2 draws io
        (wrote.1.map fun _ => .createdNew,⟨step.2,some wrote.2⟩)

/-- `none` is an exception; without a store the plugin does not live to return. -/
def unlockWithRecoveryKey (s : KeyState) (recoveryKey : Str) (save : SaveFate) : Option Bool × KeyState :=
  match normalizeRecoveryKey recoveryKey with
  | none => (some false,s)
  | some normalized =>
    match s.store with
    | none => (none,s)
    | some secrets =>
      match secrets.get .recoveryWrapped with
      | none => (some false,s)
      | some blobJson =>
        match plat.parse blobJson with
        | none => (some false,s)
        | some rec =>
          match payloadBytes rec "salt" fun salt => payloadBytes rec "wrapped" fun wrapped =>
              unwrapMasterKey plat wrapped (deriveKeyFromCode plat normalized salt) with
          | .threw => (none,s)
          | .rejected => (some false,s)
          | .plain mk =>
            let out := saveSecret secrets .masterKey (Base64.base64UrlEncode mk) save
            (some out.1,⟨mk,some out.2⟩)

/-- The recovery key as the setup shows it. -/
def exportRecoveryKeyWrapped (s : KeyState) : Str := (s.secret .recoveryKeyDisplay).getD []

/-- What `approvePairing` sends to the server, if it comes to that. -/
def approvePairing (s : KeyState) (code : Str) (draws : WrapDraws) : Option (Str × Str) :=
  if s.masterKey.length ≠ kMasterKeyLen then none
  else match normalizePairingCode code with
    | none => none
    | some normalized =>
      match wrapMasterKeyForPairing plat s.masterKey normalized draws with
      | none | some [] => none
      | some wrapped => some (normalized,wrapped)

end

/-- `base64UrlDecode` into the key: up to the first character that is none of base64. -/
def loadMasterKey (mkB64 : Str) : Bytes := (Base64.base64UrlDecode (mkB64.takeWhile fun c => (Base64.val c).isSome)).getD []

/-- A new process, after `init`. -/
def KeyState.restart (s : KeyState) : KeyState := {s with masterKey := (s.secret .masterKey).elim [] loadMasterKey}

/-! ### All computers of an account -/

/-- The computers, what they have sent for pairing codes, and the keys that were made. -/
structure Fleet where
  devices : List KeyState
  offers : List (Str × Str)
  minted : List Bytes

inductive KeyMove where
  | restart (device : Nat)
  | finishFirstRun (device : Nat) (createIfMissing : Bool) (draws : MintDraws) (io : MintIo)
  | approve (device : Nat) (code : Str) (draws : WrapDraws)
  | complete (device : Nat) (code : Str) (answer : Option PollAnswer) (io : InstallIo)
  | unlock (device : Nat) (recoveryKey : Str) (save : SaveFate)

def Fleet.fresh (computers : Nat) : Fleet := ⟨List.replicate computers ⟨[],some .empty⟩,[],[]⟩

def Fleet.change (f : Fleet) (device : Nat) (next : KeyState → KeyState) : Fleet := {f with devices := f.devices.modify device next}

/-- The key that the wizard makes on a computer. -/
def mintedKey (createIfMissing : Bool) (draws : MintDraws) (s : KeyState) : Option Bytes :=
  if (applyWizardKeyStep s.masterKey createIfMissing draws.masterKey.1).1 = .createdNew then some draws.masterKey.1 else none

def Fleet.step (plat : KeyPlatform) (f : Fleet) : KeyMove → Fleet
  | .restart device => f.change device KeyState.restart
  | .finishFirstRun device createIfMissing draws io =>
    {f.change device (fun s => (finishFirstRunKeys plat s createIfMissing draws io).2) with
      minted := f.minted ++ ((f.devices[device]?).bind (mintedKey createIfMissing draws)).toList}
  | .approve device code draws =>
    {f with offers := f.offers ++ ((f.devices[device]?).bind fun s => approvePairing plat s code draws).toList}
  | .complete device code answer io => f.change device fun s => (completePairing plat s code answer io).2
  | .unlock device recoveryKey save => f.change device fun s => (unlockWithRecoveryKey plat s recoveryKey save).2

/-- The code and the wrapped key of a poll that hands one out. -/
def handedKey (code : Str) (answer : Option PollAnswer) : Option (Str × Str) := do
  let normalized ← normalizePairingCode code
  let reply ← answer
  let status ← reply.response.body.valueStr (lit "status") []
  let wrapped ← reply.response.body.valueStr (lit "wrapped_master_key") []
  if reply.response.status = 200 ∧ status = lit "approved" then some (normalized,wrapped) else none

/-- The server hands out for a code what a computer has sent for it. -/
def Relayed (f : Fleet) : KeyMove → Prop
  | .complete _ code answer _ => ∀ offer ∈ handedKey code answer, offer ∈ f.offers
  | _ => True

instance decidableRelayed (f : Fleet) : (first : KeyMove) → Decidable (Relayed f first)
  | .complete _ _ _ _ => inferInstanceAs (Decidable (∀ _ ∈ _,_))
  | .restart _ | .finishFirstRun _ _ _ _ | .approve _ _ _ | .unlock _ _ _ => .isTrue trivial

/-- What the plugin relies on: its JSON library reads back what it wrote, and what
AES-256-GCM has sealed opens as itself or, under another key, not at all. -/
structure Sound (plat : KeyPlatform) : Prop where
  reads : ∀ salt wrapped, plat.parse (wrapPayload salt wrapped).dumpText = some (wrapPayload salt wrapped)
  binds : ∀ key (nonce : Nonce) plaintext aad other opened,
    plat.prim.gcmOpen other nonce.1 (plat.prim.gcmSeal key nonce plaintext aad).1 aad (plat.prim.gcmSeal key nonce plaintext aad).2.1 =
      some opened → opened = plaintext

/-- The key is in use, stored, or opens with some recovery key. -/
inductive Holds (plat : KeyPlatform) (s : KeyState) (mk : Bytes) : Prop
  | memory (held : s.masterKey = mk) (full : mk.length = kMasterKeyLen)
  | stored (loads : s.restart.masterKey = mk) (full : mk.length = kMasterKeyLen)
  | wrapped (recoveryKey : Str) (save : SaveFate) (unlocked : (unlockWithRecoveryKey plat s recoveryKey save).2.masterKey = mk)
      (full : mk.length = kMasterKeyLen)

/-! ### Secrets -/

theorem saveSecret_get {secrets : Secrets} {name other : SecretName} {value text : Str} {fate : SaveFate}
    (held : (saveSecret secrets name value fate).2.get other = some text) :
    (other = name ∧ fate = .saved ∧ text = value) ∨ ((other = name → fate = .refused) ∧ secrets.get other = some text) := by
  cases fate with
  | refused => exact .inr ⟨fun _ => rfl,held⟩
  | torn =>
    rw [saveSecret,Table.get_remove] at held
    split at held
    · contradiction
    · rename_i different
      exact .inr ⟨fun same => absurd same different,held⟩
  | saved =>
    rw [saveSecret,Table.get_upsert] at held
    split at held
    · rename_i same
      exact .inl ⟨same,rfl,(Option.some.inj held).symm⟩
    · rename_i different
      exact .inr ⟨fun same => absurd same different,held⟩

theorem deleteSecret_get {secrets : Secrets} {name other : SecretName} {deletes : Bool} {text : Str}
    (held : (deleteSecret secrets name deletes).get other = some text) : secrets.get other = some text := by
  rw [secret_deleteSecret] at held
  split at held
  · contradiction
  · exact held

/-- The text is a payload of the key, wrapped for the code. -/
def Wraps (plat : KeyPlatform) (mk : Bytes) (code text : Str) : Prop := ∃ salt nonce wrapped,
  wrapMasterKey plat mk (deriveKeyFromCode plat code salt) nonce = some wrapped ∧ text = (wrapPayload salt wrapped).dumpText

/-- The text is a payload that opens with the code. -/
def OpensWith (plat : KeyPlatform) (text code : Str) (mk : Bytes) : Prop := ∃ payload, plat.parse text = some payload ∧
  (payloadBytes payload "salt" fun salt => payloadBytes payload "wrapped" fun wrapped =>
    unwrapMasterKey plat wrapped (deriveKeyFromCode plat code salt)) = .plain mk

section
variable {plat : KeyPlatform}

theorem payloadBytes_wrapPayload (salt wrapped : Bytes) (next : Bytes → Bytes → Opened) :
    (payloadBytes (wrapPayload salt wrapped) "salt" fun a => payloadBytes (wrapPayload salt wrapped) "wrapped" fun b => next a b) =
      next salt wrapped := by
  have first : (wrapPayload salt wrapped).valueStr (lit "salt") [] = some (Base64.base64UrlEncode salt) := rfl
  have second : (wrapPayload salt wrapped).valueStr (lit "wrapped") [] = some (Base64.base64UrlEncode wrapped) := rfl
  simp only [payloadBytes,first,second,Base64.base64UrlDecode_encode]

/-- A wrapped key opens with its code. -/
theorem Wraps.opens (sound : Sound plat) {mk : Bytes} (full : mk.length = kMasterKeyLen) {code text : Str}
    (wraps : Wraps plat mk code text) : OpensWith plat text code mk := by
  obtain ⟨salt,nonce,wrapped,seals,rfl⟩ := wraps
  refine ⟨_,sound.reads salt wrapped,?_⟩
  rw [payloadBytes_wrapPayload,unwrapMasterKey,Crypto.decrypt_encrypt _ _ _ _ _ _ seals]
  exact if_pos full

/-- Whatever opens it, it is the key that was wrapped. -/
theorem Wraps.opens_only (sound : Sound plat) {mk other : Bytes} {code typed text : Str} (wraps : Wraps plat mk code text)
    (opens : OpensWith plat text typed other) : other = mk := by
  obtain ⟨salt,nonce,wrapped,seals,rfl⟩ := wraps
  obtain ⟨payload,parsed,opened⟩ := opens
  obtain rfl : wrapPayload salt wrapped = payload := Option.some.inj ((sound.reads salt wrapped).symm.trans parsed)
  rw [payloadBytes_wrapPayload,unwrapMasterKey,Crypto.decrypt_sealed _ seals] at opened
  split at opened
  · rename_i text decrypted
    split at decrypted
    · contradiction
    split at decrypted
    · rename_i plain unsealed
      obtain rfl := Opened.plain.inj decrypted
      split at opened
      · exact Opened.plain.inj opened ▸ sound.binds _ _ _ _ _ _ unsealed
      · contradiction
    · contradiction
  · rename_i rejected
    exact absurd opened (rejected other)

/-- Unlocking opens the recovery wrap, or changes nothing. -/
theorem unlock_cases (plat : KeyPlatform) (s : KeyState) (recoveryKey : Str) (save : SaveFate) :
    ((unlockWithRecoveryKey plat s recoveryKey save).1 ≠ some true ∧ (unlockWithRecoveryKey plat s recoveryKey save).2 = s) ∨
    ∃ normalized secrets text mk, normalizeRecoveryKey recoveryKey = some normalized ∧ s.store = some secrets ∧
      secrets.get .recoveryWrapped = some text ∧ OpensWith plat text normalized mk ∧
      unlockWithRecoveryKey plat s recoveryKey save =
        (some (saveSecret secrets .masterKey (Base64.base64UrlEncode mk) save).1,
          ⟨mk,some (saveSecret secrets .masterKey (Base64.base64UrlEncode mk) save).2⟩) := by
  unfold unlockWithRecoveryKey
  cases normal : normalizeRecoveryKey recoveryKey with
  | none => exact .inl ⟨by simp,rfl⟩
  | some normalized =>
    cases stored : s.store with
    | none => exact .inl ⟨by simp,rfl⟩
    | some secrets =>
      dsimp only
      cases held : secrets.get .recoveryWrapped with
      | none => exact .inl ⟨by simp,rfl⟩
      | some text =>
        dsimp only
        cases parsed : plat.parse text with
        | none => exact .inl ⟨by simp,rfl⟩
        | some payload =>
          dsimp only
          cases opened : payloadBytes payload "salt" fun salt => payloadBytes payload "wrapped" fun wrapped =>
              unwrapMasterKey plat wrapped (deriveKeyFromCode plat normalized salt) with
          | threw => exact .inl ⟨by simp,rfl⟩
          | rejected => exact .inl ⟨by simp,rfl⟩
          | plain mk => exact .inr ⟨normalized,secrets,text,mk,rfl,rfl,held,⟨payload,parsed,opened⟩,rfl⟩

theorem unlock_opens {s : KeyState} {recoveryKey normalized text : Str} {secrets : Secrets} {mk : Bytes} (save : SaveFate)
    (normal : normalizeRecoveryKey recoveryKey = some normalized) (stored : s.store = some secrets)
    (held : secrets.get .recoveryWrapped = some text) (opens : OpensWith plat text normalized mk) :
    unlockWithRecoveryKey plat s recoveryKey save =
      (some (saveSecret secrets .masterKey (Base64.base64UrlEncode mk) save).1,
        ⟨mk,some (saveSecret secrets .masterKey (Base64.base64UrlEncode mk) save).2⟩) := by
  obtain ⟨payload,parsed,opened⟩ := opens
  simp only [unlockWithRecoveryKey,normal,stored,held,parsed,opened]

/-- A stored key is the key that is loaded. -/
theorem loadMasterKey_encode (mk : Bytes) : loadMasterKey (Base64.base64UrlEncode mk) = mk := by
  have all : (Base64.base64UrlEncode mk).takeWhile (fun c => (Base64.val c).isSome) = Base64.base64UrlEncode mk :=
    List.takeWhile_eq_self_iff.mpr fun c member => (Base64.val_isSome_iff c).mpr (Base64.encode_alphabet mk c member)
  rw [loadMasterKey,all,Base64.base64UrlDecode_encode]
  rfl

end

/-! ### Keys that were made -/

/-- The secrets hold keys of the list. -/
structure SecretsKnown (plat : KeyPlatform) (keys : List Bytes) (secrets : Secrets) : Prop where
  stored : ∀ text, secrets.get .masterKey = some text → ∃ mk ∈ keys, text = Base64.base64UrlEncode mk
  wrapped : ∀ text, secrets.get .recoveryWrapped = some text → ∃ mk ∈ keys, ∃ recovery, Wraps plat mk recovery text

structure KeysKnown (plat : KeyPlatform) (keys : List Bytes) (s : KeyState) : Prop where
  memory : s.masterKey = [] ∨ s.masterKey ∈ keys
  secrets : ∀ secrets, s.store = some secrets → SecretsKnown plat keys secrets

structure FleetKnown (plat : KeyPlatform) (f : Fleet) : Prop where
  full : ∀ mk ∈ f.minted, mk.length = kMasterKeyLen
  devices : ∀ s ∈ f.devices, KeysKnown plat f.minted s
  offers : ∀ code text, (code,text) ∈ f.offers → normalizePairingCode code = some code ∧
    ∃ mk ∈ f.minted, ∃ draws, wrapMasterKeyForPairing plat mk code draws = some text

section
variable {plat : KeyPlatform} {keys : List Bytes}

theorem SecretsKnown.save {secrets : Secrets} (known : SecretsKnown plat keys secrets) {name : SecretName} {value : Str}
    (fate : SaveFate) (key : name = .masterKey → ∃ mk ∈ keys, value = Base64.base64UrlEncode mk)
    (wrap : name = .recoveryWrapped → ∃ mk ∈ keys, ∃ recovery, Wraps plat mk recovery value) :
    SecretsKnown plat keys (saveSecret secrets name value fate).2 := by
  constructor
  · intro text held
    rcases saveSecret_get held with ⟨same,-,rfl⟩ | ⟨-,old⟩
    · exact key same.symm
    · exact known.stored text old
  · intro text held
    rcases saveSecret_get held with ⟨same,-,rfl⟩ | ⟨-,old⟩
    · exact wrap same.symm
    · exact known.wrapped text old

theorem SecretsKnown.save_key {secrets : Secrets} (known : SecretsKnown plat keys secrets) {mk : Bytes} (member : mk ∈ keys)
    (fate : SaveFate) : SecretsKnown plat keys (saveSecret secrets .masterKey (Base64.base64UrlEncode mk) fate).2 :=
  known.save fate (fun _ => ⟨mk,member,rfl⟩) (fun other => SecretName.noConfusion other)

theorem SecretsKnown.delete {secrets : Secrets} (known : SecretsKnown plat keys secrets) (name : SecretName) (deletes : Bool) :
    SecretsKnown plat keys (deleteSecret secrets name deletes) :=
  ⟨fun text held => known.stored text (deleteSecret_get held),fun text held => known.wrapped text (deleteSecret_get held)⟩

theorem SecretsKnown.mono {secrets : Secrets} (known : SecretsKnown plat keys secrets) {more : List Bytes} (grows : keys ⊆ more) :
    SecretsKnown plat more secrets := by
  constructor
  · intro text held
    obtain ⟨mk,member,same⟩ := known.stored text held
    exact ⟨mk,grows member,same⟩
  · intro text held
    obtain ⟨mk,member,wraps⟩ := known.wrapped text held
    exact ⟨mk,grows member,wraps⟩

theorem KeysKnown.mono {s : KeyState} (known : KeysKnown plat keys s) {more : List Bytes} (grows : keys ⊆ more) :
    KeysKnown plat more s :=
  ⟨known.memory.imp_right fun member => grows member,fun secrets stored => (known.secrets secrets stored).mono grows⟩

theorem KeysKnown.restart {s : KeyState} (known : KeysKnown plat keys s) : KeysKnown plat keys s.restart := by
  refine ⟨?_,known.secrets⟩
  unfold KeyState.restart KeyState.secret
  cases stored : s.store with
  | none => exact .inl rfl
  | some secrets =>
    cases held : secrets.get .masterKey with
    | none => exact .inl (by simp [held])
    | some text =>
      obtain ⟨mk,member,rfl⟩ := (known.secrets secrets stored).stored text held
      refine .inr ?_
      simp only [Option.bind_some,held,Option.elim_some,loadMasterKey_encode]
      exact member

theorem writeLocalRecoveryWrap_known {secrets : Secrets} (known : SecretsKnown plat keys secrets) {mk : Bytes} (member : mk ∈ keys)
    (draws : MintDraws) (io : MintIo) : SecretsKnown plat keys (writeLocalRecoveryWrap plat mk secrets draws io).2 := by
  unfold writeLocalRecoveryWrap
  dsimp only
  split
  · exact known
  · rename_i text dumped
    obtain ⟨wrapped,seals,dump⟩ := Option.bind_eq_some_iff.mp dumped
    rw [wrapPayload_dump] at dump
    have wrap : Wraps plat mk (generateRecoveryKey draws.recovery) text := ⟨_,_,wrapped,seals,(Option.some.inj dump).symm⟩
    have saved : SecretsKnown plat keys (saveSecret secrets .recoveryWrapped text io.saveWrap).2 :=
      known.save _ (fun other => SecretName.noConfusion other) (fun _ => ⟨mk,member,_,wrap⟩)
    split
    · exact saved
    · exact saved.save _ (fun other => SecretName.noConfusion other) (fun other => SecretName.noConfusion other)

theorem applyWizardKeyStep_created {masterKey minted : Bytes} {createIfMissing : Bool}
    (created : (applyWizardKeyStep masterKey createIfMissing minted).1 = .createdNew) :
    (applyWizardKeyStep masterKey createIfMissing minted).2 = minted := by
  unfold applyWizardKeyStep at created ⊢
  split at created
  · contradiction
  · split at created
    · contradiction
    · rename_i missing create
      rw [if_neg missing,if_neg create]

theorem finishFirstRunKeys_known {s : KeyState} (known : KeysKnown plat keys s) (createIfMissing : Bool) (draws : MintDraws)
    (io : MintIo) : KeysKnown plat (keys ++ (mintedKey createIfMissing draws s).toList)
      (finishFirstRunKeys plat s createIfMissing draws io).2 := by
  have grown := known.mono (List.subset_append_left keys (mintedKey createIfMissing draws s).toList)
  unfold finishFirstRunKeys
  dsimp only
  cases outcome : (applyWizardKeyStep s.masterKey createIfMissing draws.masterKey.1).1 with
  | keptExisting => exact grown
  | refusedToMint => exact grown
  | createdNew =>
    rw [applyWizardKeyStep_created outcome]
    have member : draws.masterKey.1 ∈ keys ++ (mintedKey createIfMissing draws s).toList := by simp [mintedKey,outcome]
    dsimp only
    cases stored : s.store with
    | none =>
      refine ⟨.inl rfl,?_⟩
      intro secrets held
      cases held
    | some secrets =>
      have saved := (grown.secrets secrets stored).save_key member io.saveKey
      dsimp only
      split
      · exact ⟨.inl rfl,fun _ held => Option.some.inj held ▸ saved⟩
      · exact ⟨.inr member,fun _ held => Option.some.inj held ▸ writeLocalRecoveryWrap_known saved member draws io⟩

theorem unlock_known (sound : Sound plat) {s : KeyState} (known : KeysKnown plat keys s) (recoveryKey : Str) (save : SaveFate) :
    KeysKnown plat keys (unlockWithRecoveryKey plat s recoveryKey save).2 := by
  rcases unlock_cases plat s recoveryKey save with ⟨-,same⟩ | ⟨normalized,secrets,text,mk,-,stored,held,opens,out⟩
  · rw [same]
    exact known
  · have there := known.secrets secrets stored
    obtain ⟨other,member,recovery,wraps⟩ := there.wrapped text held
    obtain rfl : mk = other := wraps.opens_only sound opens
    rw [out]
    exact ⟨.inr member,fun _ same => Option.some.inj same ▸ there.save_key member save⟩

theorem installKey_known {s : KeyState} (known : KeysKnown plat keys s) {mk : Bytes} (member : mk ∈ keys) (io : InstallIo) :
    KeysKnown plat keys (installKey s mk io).2 := by
  unfold installKey
  dsimp only
  cases stored : s.store with
  | none =>
    refine ⟨.inl rfl,?_⟩
    intro secrets held
    cases held
  | some secrets =>
    have saved := (known.secrets secrets stored).save_key member io.save
    dsimp only
    split
    · exact ⟨.inl rfl,fun _ held => Option.some.inj held ▸ saved⟩
    · exact ⟨.inr member,fun _ held => Option.some.inj held ▸ (saved.delete _ _).delete _ _⟩

/-- A poll that transfers a key has handed out its wrap. -/
theorem Transferred.handed_key {code : Str} {answer : Option PollAnswer} {mk : Bytes} (transferred : Transferred plat code answer mk) :
    ∃ normalized wrapped, handedKey code answer = some (normalized,wrapped) ∧ installWrappedMasterKey plat wrapped normalized = .plain mk := by
  obtain ⟨normalized,reply,wrapped,typed,rfl,-,served,approved,handed,opens⟩ := transferred.handed
  exact ⟨normalized,wrapped,by simp [handedKey,typed,served,approved,handed],opens⟩

/-- What was sent for a code installs the key that was sent. -/
theorem offer_installs (sound : Sound plat) {mk other : Bytes} (full : mk.length = kMasterKeyLen) {code text : Str} {draws : WrapDraws}
    (normal : normalizePairingCode code = some code) (wraps : wrapMasterKeyForPairing plat mk code draws = some text)
    (installs : installWrappedMasterKey plat text code = .plain other) : other = mk := by
  have reads : ReadsWrap plat mk code draws := by
    intro wrapped dumped _ dump
    rw [wrapPayload_dump] at dump
    rw [← Option.some.inj dump]
    exact sound.reads _ _
  obtain ⟨blob,sent,-,opens⟩ := install_wrap plat full reads normal normal
  obtain rfl : Base64.base64UrlEncode blob = text := Option.some.inj (sent.symm.trans wraps)
  exact Opened.plain.inj (installs.symm.trans opens)

end

section
variable {plat : KeyPlatform}

theorem rawCode_letters {code raw : Str} (typed : rawCode code = some raw) : ∀ c ∈ raw, c ∈ pairingAlphabet := by
  induction code generalizing raw with
  | nil =>
    obtain rfl := Option.some.inj typed
    intro c member
    contradiction
  | cons ch rest ih =>
    rw [rawCode] at typed
    split at typed
    · exact ih typed
    · split at typed
      · contradiction
      · rename_i letter
        obtain ⟨tail,more,rfl⟩ := Option.map_eq_some_iff.mp typed
        intro c member
        rcases List.mem_cons.mp member with rfl | inside
        · exact Decidable.not_not.mp (not_or.mp letter).2
        · exact ih more c inside

theorem normalizePairingCode_again {code normalized : Str} (normal : normalizePairingCode code = some normalized) :
    normalizePairingCode normalized = some normalized := by
  unfold normalizePairingCode at normal
  split at normal
  · contradiction
  · rename_i raw typed
    split at normal
    · contradiction
    · rename_i sized
      obtain rfl := Option.some.inj normal
      exact normalizePairingCode_dashed (Decidable.not_not.mp sized) (rawCode_letters typed)

theorem approvePairing_sends {s : KeyState} {code sent text : Str} {draws : WrapDraws}
    (sends : approvePairing plat s code draws = some (sent,text)) : normalizePairingCode sent = some sent ∧
      s.masterKey.length = kMasterKeyLen ∧ wrapMasterKeyForPairing plat s.masterKey sent draws = some text := by
  unfold approvePairing at sends
  split at sends
  · contradiction
  · rename_i full
    split at sends
    · contradiction
    · rename_i normalized normal
      split at sends
      · contradiction
      · contradiction
      · rename_i wrapped _ wraps
        obtain ⟨rfl,rfl⟩ := Prod.mk.inj (Option.some.inj sends)
        exact ⟨normalizePairingCode_again normal,Decidable.not_not.mp full,wraps⟩

theorem mem_change {f : Fleet} {device : Nat} {next : KeyState → KeyState} {t : KeyState} (member : t ∈ (f.change device next).devices) :
    t ∈ f.devices ∨ ∃ s, f.devices[device]? = some s ∧ t = next s := by
  obtain ⟨index,there⟩ := List.getElem?_of_mem member
  rw [Fleet.change,List.getElem?_modify] at there
  obtain ⟨s,old,same⟩ := Option.map_eq_some_iff.mp there
  split at same
  · rename_i here
    subst here
    exact .inr ⟨s,old,same.symm⟩
  · exact .inl (same ▸ List.mem_of_getElem? old)

/-- A change of one computer that keeps to the keys. -/
theorem FleetKnown.change {f : Fleet} (known : FleetKnown plat f) (device : Nat) {next : KeyState → KeyState}
    (keeps : ∀ s ∈ f.devices, KeysKnown plat f.minted (next s)) : FleetKnown plat (f.change device next) := by
  refine ⟨known.full,?_,known.offers⟩
  intro t member
  rcases mem_change member with old | ⟨s,there,rfl⟩
  · exact known.devices t old
  · exact keeps s (List.mem_of_getElem? there)

theorem FleetKnown.step (sound : Sound plat) {f : Fleet} (known : FleetKnown plat f) (first : KeyMove) (relayed : Relayed f first) :
    FleetKnown plat (f.step plat first) := by
  cases first with
  | restart device => exact known.change device fun s member => (known.devices s member).restart
  | unlock device recoveryKey save =>
    exact known.change device fun s member => unlock_known sound (known.devices s member) recoveryKey save
  | complete device code answer io =>
    refine known.change device fun s member => ?_
    rcases completePairing_cases plat s code answer io with ⟨mk,transferred,out⟩ | ⟨-,same,-⟩
    · obtain ⟨normalized,wrapped,handed,installs⟩ := transferred.handed_key
      obtain ⟨normal,other,made,draws,wraps⟩ := known.offers normalized wrapped (relayed _ handed)
      obtain rfl : mk = other := offer_installs sound (known.full other made) normal wraps installs
      rw [out]
      exact installKey_known (known.devices s member) made io
    · rw [same]
      exact known.devices s member
  | approve device code draws =>
    refine ⟨known.full,known.devices,?_⟩
    intro sent text member
    rcases List.mem_append.mp member with old | new
    · exact known.offers sent text old
    · obtain ⟨s,there,sends⟩ := Option.bind_eq_some_iff.mp (Option.mem_toList.mp new)
      obtain ⟨normal,full,wraps⟩ := approvePairing_sends sends
      refine ⟨normal,s.masterKey,?_,draws,wraps⟩
      rcases (known.devices s (List.mem_of_getElem? there)).memory with empty | made
      · rw [empty] at full
        contradiction
      · exact made
  | finishFirstRun device createIfMissing draws io =>
    have minted : ∀ s, f.devices[device]? = some s → (f.devices[device]?).bind (mintedKey createIfMissing draws) =
        mintedKey createIfMissing draws s := by
      intro s there
      rw [there,Option.bind_some]
    refine ⟨?_,?_,?_⟩
    · intro mk member
      rcases List.mem_append.mp member with old | new
      · exact known.full mk old
      · obtain ⟨s,-,made⟩ := Option.bind_eq_some_iff.mp (Option.mem_toList.mp new)
        unfold mintedKey at made
        split at made
        · exact Option.some.inj made ▸ draws.masterKey.2
        · contradiction
    · intro t member
      rcases mem_change member with old | ⟨s,there,rfl⟩
      · exact (known.devices t old).mono (List.subset_append_left _ _)
      · have keeps := finishFirstRunKeys_known (known.devices s (List.mem_of_getElem? there)) createIfMissing draws io
        rw [← minted s there] at keeps
        exact keeps
    · intro code text member
      obtain ⟨normal,mk,made,draws,wraps⟩ := known.offers code text member
      exact ⟨normal,mk,List.mem_append_left _ made,draws,wraps⟩

theorem fresh_known (computers : Nat) : FleetKnown plat (.fresh computers) := by
  refine ⟨fun mk member => absurd member List.not_mem_nil,?_,fun _ _ member => absurd member List.not_mem_nil⟩
  intro s member
  obtain rfl := List.eq_of_mem_replicate member
  refine ⟨.inl rfl,?_⟩
  intro secrets stored
  obtain rfl := Option.some.inj stored
  exact ⟨fun text held => absurd held (by simp),fun text held => absurd held (by simp)⟩

theorem fleet_known (sound : Sound plat) (computers : Nat) (moves : List KeyMove)
    (relayed : Guarded (Fleet.step plat) Relayed (.fresh computers) moves) :
    FleetKnown plat (run (Fleet.step plat) (.fresh computers) moves) :=
  run_invariant (Fleet.step plat) Relayed (FleetKnown plat) (fun _ first known relayed => known.step sound first relayed)
    (.fresh computers) moves (fresh_known computers) relayed

theorem only_member {X : Type} {xs : List X} (once : xs.length ≤ 1) {x y : X} (first : x ∈ xs) (second : y ∈ xs) : x = y := by
  cases xs with
  | nil => contradiction
  | cons z rest =>
    have single : rest = [] := List.eq_nil_of_length_eq_zero (by simpa using once)
    subst single
    rw [List.mem_singleton.mp first,List.mem_singleton.mp second]

theorem KeysKnown.holds (sound : Sound plat) {keys : List Bytes} {s : KeyState} (known : KeysKnown plat keys s) {mk : Bytes} (holds : Holds plat s mk) : mk ∈ keys := by
  have filled : ∀ {other : Bytes}, other.length = kMasterKeyLen → other ≠ [] := by
    rintro other sized rfl
    contradiction
  cases holds with
  | memory held sized =>
    rcases known.memory with empty | made
    · exact absurd (held.symm.trans empty) (filled sized)
    · exact held ▸ made
  | stored loads sized =>
    rcases known.restart.memory with empty | made
    · exact absurd (loads.symm.trans empty) (filled sized)
    · exact loads ▸ made
  | wrapped recoveryKey save unlocked sized =>
    rcases (unlock_known sound known recoveryKey save).memory with empty | made
    · exact absurd (unlocked.symm.trans empty) (filled sized)
    · exact unlocked ▸ made

end

/-! ### The recovery key -/

/-- The recovery key that is shown opens the recovery wrap. -/
def SecretsMatch (plat : KeyPlatform) (keys : List Bytes) (secrets : Secrets) : Prop :=
  ∀ text display, secrets.get .recoveryWrapped = some text → secrets.get .recoveryKeyDisplay = some display →
    ∃ raw, display = generateRecoveryKey raw ∧ ∃ mk ∈ keys, Wraps plat mk display text

def FleetMatches (plat : KeyPlatform) (f : Fleet) : Prop :=
  ∀ s ∈ f.devices, ∀ secrets, s.store = some secrets → SecretsMatch plat f.minted secrets

/-- A new recovery wrap is not left with an older recovery key. -/
def SavesDisplay : KeyMove → Prop
  | .finishFirstRun _ _ _ io => io.saveWrap = .saved → io.saveDisplay ≠ .refused
  | _ => True

instance decidableSavesDisplay : (first : KeyMove) → Decidable (SavesDisplay first)
  | .finishFirstRun _ _ _ _ => inferInstanceAs (Decidable (_ → _))
  | .restart _ | .approve _ _ _ | .complete _ _ _ _ | .unlock _ _ _ => .isTrue trivial

section
variable {plat : KeyPlatform} {keys : List Bytes} {secrets : Secrets}

theorem SecretsMatch.save_key (matching : SecretsMatch plat keys secrets) (value : Str) (fate : SaveFate) :
    SecretsMatch plat keys (saveSecret secrets .masterKey value fate).2 := by
  intro text display wrapped shown
  rcases saveSecret_get wrapped with ⟨same,-,-⟩ | ⟨-,wrapped⟩
  · contradiction
  rcases saveSecret_get shown with ⟨same,-,-⟩ | ⟨-,shown⟩
  · contradiction
  exact matching text display wrapped shown

theorem SecretsMatch.delete (matching : SecretsMatch plat keys secrets) (name : SecretName) (deletes : Bool) :
    SecretsMatch plat keys (deleteSecret secrets name deletes) :=
  fun text display wrapped shown => matching text display (deleteSecret_get wrapped) (deleteSecret_get shown)

theorem SecretsMatch.mono (matching : SecretsMatch plat keys secrets) {more : List Bytes} (grows : keys ⊆ more) :
    SecretsMatch plat more secrets := by
  intro text display wrapped shown
  obtain ⟨raw,same,mk,member,wraps⟩ := matching text display wrapped shown
  exact ⟨raw,same,mk,grows member,wraps⟩

theorem writeLocalRecoveryWrap_matches (matching : SecretsMatch plat keys secrets) {mk : Bytes} (member : mk ∈ keys)
    (draws : MintDraws) {io : MintIo} (both : io.saveWrap = .saved → io.saveDisplay ≠ .refused) :
    SecretsMatch plat keys (writeLocalRecoveryWrap plat mk secrets draws io).2 := by
  unfold writeLocalRecoveryWrap
  dsimp only
  split
  · exact matching
  rename_i text dumped
  obtain ⟨wrapped,seals,dump⟩ := Option.bind_eq_some_iff.mp dumped
  rw [wrapPayload_dump] at dump
  have wraps : Wraps plat mk (generateRecoveryKey draws.recovery) text := ⟨_,_,wrapped,seals,(Option.some.inj dump).symm⟩
  cases fate : io.saveWrap with
  | refused => exact matching
  | torn =>
    intro held display there _
    rcases saveSecret_get there with ⟨same,-,-⟩ | ⟨-,gone⟩
    · contradiction
    · simp [saveSecret] at gone
  | saved =>
    intro held display there shown
    rcases saveSecret_get there with ⟨same,-,-⟩ | ⟨-,new⟩
    · contradiction
    have same : held = text := by
      rw [saveSecret,Table.get_upsert_same] at new
      exact (Option.some.inj new).symm
    rcases saveSecret_get shown with ⟨-,-,rfl⟩ | ⟨refused,-⟩
    · exact ⟨draws.recovery,rfl,mk,member,same ▸ wraps⟩
    · exact absurd (refused rfl) (both fate)

theorem FleetMatches.change {f : Fleet} (matching : FleetMatches plat f) (device : Nat) {next : KeyState → KeyState}
    (keeps : ∀ s, (∀ secrets, s.store = some secrets → SecretsMatch plat f.minted secrets) →
      ∀ secrets, (next s).store = some secrets → SecretsMatch plat f.minted secrets) : FleetMatches plat (f.change device next) := by
  intro t member secrets stored
  rcases mem_change member with old | ⟨s,there,rfl⟩
  · exact matching t old secrets stored
  · exact keeps s (matching s (List.mem_of_getElem? there)) secrets stored

theorem FleetMatches.step {f : Fleet} (matching : FleetMatches plat f) (first : KeyMove) (saves : SavesDisplay first) :
    FleetMatches plat (f.step plat first) := by
  cases first with
  | restart device => exact matching.change device fun s holds => holds
  | approve device code draws => exact matching
  | unlock device recoveryKey save =>
    refine matching.change device fun s holds => ?_
    rcases unlock_cases plat s recoveryKey save with ⟨-,same⟩ | ⟨normalized,secrets,text,mk,-,stored,-,-,out⟩
    · rw [same]
      exact holds
    · rw [out]
      intro after saved
      obtain rfl := Option.some.inj saved
      exact (holds secrets stored).save_key _ save
  | complete device code answer io =>
    refine matching.change device fun s holds => ?_
    rcases completePairing_cases plat s code answer io with ⟨mk,-,out⟩ | ⟨-,same,-⟩
    · rw [out]
      unfold installKey
      dsimp only
      cases stored : s.store with
      | none =>
        intro after saved
        cases saved
      | some secrets =>
        dsimp only
        split
        · intro after saved
          obtain rfl := Option.some.inj saved
          exact (holds secrets stored).save_key _ io.save
        · intro after saved
          obtain rfl := Option.some.inj saved
          exact (((holds secrets stored).save_key _ io.save).delete _ _).delete _ _
    · rw [same]
      exact holds
  | finishFirstRun device createIfMissing draws io =>
    intro t member secrets stored
    rcases mem_change member with old | ⟨s,there,rfl⟩
    · exact (matching t old secrets stored).mono (List.subset_append_left _ _)
    · have holds := matching s (List.mem_of_getElem? there)
      have grows : f.minted ⊆ (f.step plat (.finishFirstRun device createIfMissing draws io)).minted := List.subset_append_left _ _
      have made : mintedKey createIfMissing draws s = some draws.masterKey.1 →
          draws.masterKey.1 ∈ (f.step plat (.finishFirstRun device createIfMissing draws io)).minted := by
        intro minted
        refine List.mem_append_right _ (Option.mem_toList.mpr ?_)
        rw [there,Option.bind_some]
        exact minted
      unfold finishFirstRunKeys at stored
      dsimp only at stored
      cases outcome : (applyWizardKeyStep s.masterKey createIfMissing draws.masterKey.1).1 with
      | keptExisting =>
        rw [outcome] at stored
        exact (holds secrets stored).mono grows
      | refusedToMint =>
        rw [outcome] at stored
        exact (holds secrets stored).mono grows
      | createdNew =>
        rw [outcome,applyWizardKeyStep_created outcome] at stored
        dsimp only at stored
        have key := made (by rw [mintedKey,outcome]; rfl)
        cases before : s.store with
        | none =>
          rw [before] at stored
          cases stored
        | some old =>
          rw [before] at stored
          dsimp only at stored
          have saved := ((holds old before).mono grows).save_key (Base64.base64UrlEncode draws.masterKey.1) io.saveKey
          split at stored
          · exact Option.some.inj stored ▸ saved
          · exact Option.some.inj stored ▸ writeLocalRecoveryWrap_matches saved key draws saves

end

/-! ### Two computers with known keys -/

section
open KnownAnswers

theorem payload_dumpText (salt wrapped : Bytes) : (wrapPayload salt wrapped).dumpText =
    lit "\x7b\"salt\":\"" ++ (Base64.base64UrlEncode salt ++ 34::(lit ",\"wrapped\":\"" ++ (Base64.base64UrlEncode wrapped ++ 34::lit "\x7d"))) := by
  have first : lit "\x7b" ++ Json.quoted (lit "salt") ++ lit ":" ++ [34] = lit "\x7b\"salt\":\"" := by decide
  have second : lit "," ++ Json.quoted (lit "wrapped") ++ lit ":" ++ [34] = lit ",\"wrapped\":\"" := by decide
  simp only [wrapPayload,Json.dumpText,Json.dumpFields,quoted_encode,← first,← second,List.append_assoc,List.cons_append,List.nil_append]

/-- `json::parse` of a wrap, and of nothing else. -/
def parseWrap (text : Str) : Option Json :=
  let salt := (text.drop 9).takeWhile (fun c => decide (c ≠ 34))
  let wrapped := (text.drop (9 + (salt.length + 13))).takeWhile (fun c => decide (c ≠ 34))
  let json := Json.obj [(lit "salt",.str salt),(lit "wrapped",.str wrapped)]
  if json.dumpText = text then some json else none

theorem takeWhile_quoted (data : Bytes) (rest : Str) :
    (Base64.base64UrlEncode data ++ 34::rest).takeWhile (fun c => decide (c ≠ 34)) = Base64.base64UrlEncode data := by
  have plain : ∀ c ∈ Base64.base64UrlEncode data, decide (c ≠ 34) = true := by
    intro c member
    have symbol := (Base64.val_isSome_iff c).mpr (Base64.encode_alphabet data c member)
    refine decide_eq_true ?_
    rintro rfl
    contradiction
  rw [List.takeWhile_append_of_pos plain]
  simp

theorem parseWrap_dumpText (salt wrapped : Bytes) : parseWrap (wrapPayload salt wrapped).dumpText = some (wrapPayload salt wrapped) := by
  have front : (lit "\x7b\"salt\":\"").length = 9 := by decide
  have middle : (lit ",\"wrapped\":\"").length = 12 := by decide
  have first : (((wrapPayload salt wrapped).dumpText).drop 9).takeWhile (fun c => decide (c ≠ 34)) = Base64.base64UrlEncode salt := by
    rw [payload_dumpText,← front,List.drop_left,takeWhile_quoted]
  have rest : ((wrapPayload salt wrapped).dumpText).drop (9 + ((Base64.base64UrlEncode salt).length + 13)) =
      Base64.base64UrlEncode wrapped ++ 34::lit "\x7d" := by
    rw [payload_dumpText,← List.drop_drop,← front,List.drop_left,← List.drop_drop,List.drop_left,show 13 = 1 + 12 from rfl,
      ← List.drop_drop,List.drop_one,List.tail_cons,← middle,List.drop_left]
  have second : (((wrapPayload salt wrapped).dumpText).drop (9 + ((Base64.base64UrlEncode salt).length + 13))).takeWhile
      (fun c => decide (c ≠ 34)) = Base64.base64UrlEncode wrapped := by
    rw [rest,takeWhile_quoted]
  unfold parseWrap
  simp only [first,second]
  exact if_pos rfl

def recoveryKey : {key : Bytes // key.length = kMasterKeyLen} :=
  ⟨unhex "b061a687c6ed66b1a4289732d83e0b29ab9c96567fff187f454caab8c5add44e",by decide⟩

def fleetSeals : List KnownSeal := Server.keyWraps ++ [⟨recoveryKey.1,(nonceOf 2).1,masterKey,lit "npsync-keywrap",
  unhex "a7c63cd1affffcd91ea390004a4a02c3a698e6b95e3de3c9355a9a8ef1479166",
  ⟨unhex "59ae92cfe836845ed08b9f6643217d49",by decide⟩⟩]

theorem fleetSeals_consistent : Consistent fleetSeals := ⟨by decide,by decide,by decide⟩

/-- PBKDF2 of a pairing code and of a recovery key. -/
def fleetPlatform : KeyPlatform where
  prim := primitives [] fleetSeals fleetSeals_consistent
  parse := parseWrap
  pbkdf2 password salt iterations :=
    if salt = Server.wrapDraws.salt.1 ∧ iterations = 200000 then
      if password = lit "ABCD-EFGH" then Server.codeKey
      else if password = lit "NPSYNC-AAAA-AAAA-AAAA-AAAA-AAAA" then recoveryKey
      else KnownAnswers.zeroKey
    else KnownAnswers.zeroKey

theorem fleetSeals_committing : ∀ k ∈ fleetSeals, ∀ l ∈ fleetSeals, k.nonce = l.nonce → k.ciphertext = l.ciphertext →
    k.aad = l.aad → k.tag.1 = l.tag.1 → k.plaintext = l.plaintext := by
  decide +kernel

theorem fleetPlatform_sound : Sound fleetPlatform := by
  have parses : fleetPlatform.parse = parseWrap := rfl
  constructor
  · intro salt wrapped
    rw [parses]
    exact parseWrap_dumpText salt wrapped
  · intro key nonce plaintext aad other opened opens
    exact gcmOpen_other fleetSeals_consistent fleetSeals_committing opens

/-- The first computer makes a key and allows the second; then one starts again and the
other is unlocked. -/
def fleetMoves : List KeyMove :=
  let draws : MintDraws := ⟨⟨masterKey,by decide⟩,⟨List.replicate 20 0,List.length_replicate⟩,⟨Server.wrapDraws.salt,nonceOf 2⟩⟩
  let reply : PollAnswer := ⟨⟨true,200,.obj [(lit "status",.str (lit "approved")),(lit "wrapped_master_key",
    .str (Base64.base64UrlEncode (wrapPayload Server.wrapDraws.salt.1 Server.wrappedKey).dumpText))]⟩,[]⟩
  [.finishFirstRun 0 true draws ⟨.saved,.saved,.saved⟩,.approve 0 (lit "abcd efgh") Server.wrapDraws,
    .complete 1 (lit "ABCD-EFGH") (some reply) ⟨.saved,true,true⟩,.restart 1,
    .unlock 0 (lit "npsync aaaa aaaa aaaa aaaa aaaa") .torn]

theorem fleetMoves_guarded :
    Guarded (Fleet.step fleetPlatform) (fun f first => Relayed f first ∧ SavesDisplay first) (.fresh 2) fleetMoves := by
  decide +kernel

/-- In the end both computers have the key, the first also its recovery wrap. -/
example : (run (Fleet.step fleetPlatform) (.fresh 2) fleetMoves).devices.map
    (fun s => (s.masterKey,(s.secret .recoveryWrapped).isSome,s.secret .recoveryKeyDisplay)) =
      [(masterKey,true,some (lit "NPSYNC-AAAA-AAAA-AAAA-AAAA-AAAA")),(masterKey,false,none)] := by
  decide +kernel

end

end NPSync.Engine
