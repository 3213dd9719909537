import NPSync.Engine.Device
import NPSync.Server.KeyTransfer

/-! `SyncEngine::completePairing` and the secrets it writes: the new key is in memory
before it is known to be stored. -/
namespace NPSync.Engine
open Library KeySetup

inductive SecretName where
  | masterKey
  | recoveryWrapped
  | recoveryKeyDisplay
  deriving DecidableEq

/-- What `loadSecret` gives for each name. -/
abbrev Secrets := Table SecretName Str

/-- How one `saveSecret` ends: with false, or with true. The stream is flushed by its
destructor, so a write that is lost there still returns true. -/
inductive SaveFate where
  | refused
  | torn
  | saved
  deriving DecidableEq

def saveSecret (secrets : Secrets) (name : SecretName) (value : Str) : SaveFate → Bool × Secrets
  | .refused => (false,secrets)
  | .torn => (true,secrets.remove name)
  | .saved => (true,secrets.upsert name value)

def deleteSecret (secrets : Secrets) (name : SecretName) (deletes : Bool) : Secrets :=
  if deletes then secrets.remove name else secrets

/-- The key in memory and the secret store, if there is one. -/
structure KeyState where
  masterKey : Bytes
  store : Option Secrets

def KeyState.secret (s : KeyState) (name : SecretName) : Option Str := s.store.bind (·.get name)

inductive PairingStatus where
  | pending
  | installed
  | failed
  deriving DecidableEq

/-- The answer of `pairPoll` with its transport error. -/
structure PollAnswer where
  response : ApiResponse
  transportError : Str

/-- How the save and the two deletions end. -/
structure InstallIo where
  save : SaveFate
  deletesWrapped : Bool
  deletesDisplay : Bool

/-- The end of `completePairing`, once the key is open. -/
def installKey (s : KeyState) (mk : Bytes) (io : InstallIo) : (PairingStatus × Str) × KeyState :=
  let lost := (PairingStatus.failed,lit "The key arrived but could not be saved on this computer.")
  match s.store with
  | none => (lost,{s with masterKey := []})
  | some secrets =>
    let out := saveSecret secrets .masterKey (Base64.base64UrlEncode mk) io.save
    if !out.1 then (lost,⟨[],some out.2⟩)
    else
      let secrets := deleteSecret out.2 .recoveryWrapped io.deletesWrapped
      ((.installed,[]),⟨mk,some (deleteSecret secrets .recoveryKeyDisplay io.deletesDisplay)⟩)

/-- `completePairing`: status, error text and the new state; `none` is an exception,
also one of the request itself. -/
def completePairing (plat : KeyPlatform) (s : KeyState) (code : Str) (answer : Option PollAnswer) (io : InstallIo) :
    Option (PairingStatus × Str) × KeyState :=
  match normalizePairingCode code with
  | none => (some (.failed,lit "That code does not look right. It is 8 letters, like ABCD-EFGH."),s)
  | some normalized =>
    match answer with
    | none => (none,s)
    | some answer =>
      let r := answer.response
      if !r.transportOk then (some (.pending,lit "Cannot reach server: " ++ answer.transportError),s)
      else if r.status = 410 then (some (.failed,lit "That code expired. Choose Get my notes again."),s)
      else if r.status ≠ 200 then
        ((r.body.valueStr (lit "message") (lit "Could not check the other computer.")).map (PairingStatus.failed,·),s)
      else match r.body.valueStr (lit "status") [] with
        | none => (none,s)
        | some status =>
          if status ≠ lit "approved" then (some (.pending,[]),s)
          else match r.body.valueStr (lit "wrapped_master_key") [] with
            | none => (none,s)
            | some wrapped =>
              match installWrappedMasterKey plat wrapped normalized with
              | .threw => (none,s)
              | .rejected => (some (.failed,lit "The other computer sent a key this computer could not open."),s)
              | .plain mk =>
                let out := installKey s mk io
                (some out.1,out.2)

section
variable (plat : KeyPlatform)

/-- The poll hands out a key that opens. -/
structure Transferred (code : Str) (answer : Option PollAnswer) (mk : Bytes) : Prop where
  handed : ∃ normalized reply wrapped, normalizePairingCode code = some normalized ∧ answer = some reply ∧
    reply.response.transportOk = true ∧ reply.response.status = 200 ∧
    reply.response.body.valueStr (lit "status") [] = some (lit "approved") ∧
    reply.response.body.valueStr (lit "wrapped_master_key") [] = some wrapped ∧
    installWrappedMasterKey plat wrapped normalized = .plain mk

/-- Nothing changed. -/
structure Kept (before after : KeyState) : Prop where
  masterKey : after.masterKey = before.masterKey
  secrets : ∀ name, after.secret name = before.secret name

/-- The transferred key is in memory and stored, and the recovery secrets are gone. -/
structure HoldsOnly (after : KeyState) (mk : Bytes) : Prop where
  masterKey : after.masterKey = mk
  stored : after.secret .masterKey = some (Base64.base64UrlEncode mk)
  unwrapped : after.secret .recoveryWrapped = none
  undisplayed : after.secret .recoveryKeyDisplay = none

/-- What a call of `completePairing` has to give. -/
structure Atomic (s : KeyState) (code : Str) (answer : Option PollAnswer) (io : InstallIo) : Prop where
  failed : (∀ error, (completePairing plat s code answer io).1 ≠ some (.installed,error)) →
    Kept s (completePairing plat s code answer io).2
  installed : ∀ error, (completePairing plat s code answer io).1 = some (.installed,error) →
    ∃ mk, Transferred plat code answer mk ∧ HoldsOnly (completePairing plat s code answer io).2 mk

/-- Where the key and the secrets come out right, once a key has been opened: it is
saved and what there is of recovery secrets can be deleted, or it is refused on a
computer that had no key. -/
def KeepsKeys (s : KeyState) (io : InstallIo) : Prop :=
  match s.store,io.save with
  | some secrets,.saved => (secrets.get .recoveryWrapped ≠ none → io.deletesWrapped = true) ∧
      (secrets.get .recoveryKeyDisplay ≠ none → io.deletesDisplay = true)
  | some _,.torn => False
  | some _,.refused | none,_ => s.masterKey = []

/-- Either a key is opened and installed, or nothing is. -/
theorem completePairing_cases (s : KeyState) (code : Str) (answer : Option PollAnswer) (io : InstallIo) :
    (∃ mk, Transferred plat code answer mk ∧
      completePairing plat s code answer io = (some (installKey s mk io).1,(installKey s mk io).2)) ∨
    ((∀ mk, ¬Transferred plat code answer mk) ∧ (completePairing plat s code answer io).2 = s ∧
      ∀ error, (completePairing plat s code answer io).1 ≠ some (.installed,error)) := by
  by_cases opened : ∃ mk, Transferred plat code answer mk
  · obtain ⟨mk,transferred⟩ := opened
    refine .inl ⟨mk,transferred,?_⟩
    obtain ⟨normalized,reply,wrapped,typed,rfl,reached,served,approved,handed,opens⟩ := transferred.handed
    simp [completePairing,typed,reached,served,approved,handed,opens]
  · refine .inr ⟨fun mk transferred => opened ⟨mk,transferred⟩,?_⟩
    unfold completePairing
    cases typed : normalizePairingCode code with
    | none => exact ⟨rfl,nofun⟩
    | some normalized =>
      cases answer with
      | none => exact ⟨rfl,nofun⟩
      | some reply =>
        dsimp only
        cases reached : reply.response.transportOk with
        | false => exact ⟨rfl,nofun⟩
        | true =>
          by_cases expired : reply.response.status = 410
          · rw [if_neg (by simp),if_pos expired]
            exact ⟨rfl,nofun⟩
          · by_cases served : reply.response.status = 200
            · rw [if_neg (by simp),if_neg expired,if_neg (not_not.mpr served)]
              cases approved : reply.response.body.valueStr (lit "status") [] with
              | none => exact ⟨rfl,nofun⟩
              | some status =>
                by_cases same : status = lit "approved"
                · subst same
                  dsimp only
                  rw [if_neg (by simp)]
                  cases handed : reply.response.body.valueStr (lit "wrapped_master_key") [] with
                  | none => exact ⟨rfl,nofun⟩
                  | some wrapped =>
                    dsimp only
                    cases opens : installWrappedMasterKey plat wrapped normalized with
                    | threw => exact ⟨rfl,nofun⟩
                    | rejected => exact ⟨rfl,nofun⟩
                    | plain mk =>
                      have transferred : Transferred plat code (some reply) mk :=
                        ⟨normalized,reply,wrapped,typed,rfl,reached,served,approved,handed,opens⟩
                      exact absurd ⟨mk,transferred⟩ opened
                · dsimp only
                  rw [if_pos same]
                  exact ⟨rfl,nofun⟩
            · rw [if_neg (by simp),if_neg expired,if_pos served]
              refine ⟨rfl,?_⟩
              intro error
              cases reply.response.body.valueStr (lit "message") (lit "Could not check the other computer.") <;> nofun

theorem Transferred.unique {code : Str} {answer : Option PollAnswer} {mk other : Bytes} (first : Transferred plat code answer mk)
    (second : Transferred plat code answer other) : mk = other := by
  obtain ⟨_,_,_,typed,rfl,_,_,_,handed,opens⟩ := first.handed
  obtain ⟨_,_,_,typed',same,_,_,_,handed',opens'⟩ := second.handed
  cases same
  rw [typed] at typed'
  rw [handed] at handed'
  cases typed'
  cases handed'
  rw [opens] at opens'
  injection opens'

/-! ### The saving of an opened key -/

theorem secret_deleteSecret (secrets : Secrets) (name other : SecretName) (deletes : Bool) :
    (deleteSecret secrets name deletes).get other = if other = name ∧ deletes = true then none else secrets.get other := by
  cases deletes with
  | false => simp [deleteSecret]
  | true => simp [deleteSecret,Table.get_remove]

theorem gone_iff (old : Option Str) (deletes : Bool) :
    (if deletes = true then none else old) = none ↔ (old ≠ none → deletes = true) := by
  cases deletes with
  | false => simp
  | true => simp

/-- What an installed key leaves of the secrets. -/
theorem installKey_atomic_iff (s : KeyState) (mk : Bytes) (io : InstallIo) :
    (((∀ error, (installKey s mk io).1 ≠ (.installed,error)) → Kept s (installKey s mk io).2) ∧
      ∀ error, (installKey s mk io).1 = (.installed,error) → HoldsOnly (installKey s mk io).2 mk) ↔ KeepsKeys s io := by
  obtain ⟨key,store⟩ := s
  cases store with
  | none =>
    constructor
    · intro both
      exact (both.1 nofun).masterKey.symm
    · intro empty
      refine ⟨fun _ => ⟨(show key = [] from empty).symm,fun _ => rfl⟩,nofun⟩
  | some secrets =>
    cases saved : io.save with
    | refused =>
      have out : installKey ⟨key,some secrets⟩ mk io =
          ((.failed,lit "The key arrived but could not be saved on this computer."),⟨[],some secrets⟩) := by
        simp [installKey,saveSecret,saved]
      have keeps : KeepsKeys ⟨key,some secrets⟩ io ↔ key = [] := by simp [KeepsKeys,saved]
      rw [out,keeps]
      constructor
      · intro both
        exact (both.1 nofun).masterKey.symm
      · rintro rfl
        exact ⟨fun _ => ⟨rfl,fun _ => rfl⟩,nofun⟩
    | torn =>
      have out : installKey ⟨key,some secrets⟩ mk io = ((.installed,[]),⟨mk,some (deleteSecret
          (deleteSecret (secrets.remove .masterKey) .recoveryWrapped io.deletesWrapped) .recoveryKeyDisplay io.deletesDisplay)⟩) := by
        simp [installKey,saveSecret,saved]
      have keeps : KeepsKeys ⟨key,some secrets⟩ io ↔ False := by simp [KeepsKeys,saved]
      rw [out,keeps]
      refine ⟨?_,False.elim⟩
      intro both
      have stored := (both.2 [] rfl).stored
      simp [KeyState.secret,secret_deleteSecret] at stored
    | saved =>
      have out : installKey ⟨key,some secrets⟩ mk io = ((.installed,[]),⟨mk,some (deleteSecret
          (deleteSecret (secrets.upsert .masterKey (Base64.base64UrlEncode mk)) .recoveryWrapped io.deletesWrapped)
          .recoveryKeyDisplay io.deletesDisplay)⟩) := by
        simp [installKey,saveSecret,saved]
      have keeps : KeepsKeys ⟨key,some secrets⟩ io ↔ (secrets.get .recoveryWrapped ≠ none → io.deletesWrapped = true) ∧
          (secrets.get .recoveryKeyDisplay ≠ none → io.deletesDisplay = true) := by simp [KeepsKeys,saved]
      have wrapped : (installKey ⟨key,some secrets⟩ mk io).2.secret .recoveryWrapped =
          if io.deletesWrapped = true then none else secrets.get .recoveryWrapped := by
        rw [out]
        simp [KeyState.secret,secret_deleteSecret,Table.get_upsert]
      have display : (installKey ⟨key,some secrets⟩ mk io).2.secret .recoveryKeyDisplay =
          if io.deletesDisplay = true then none else secrets.get .recoveryKeyDisplay := by
        rw [out]
        simp [KeyState.secret,secret_deleteSecret,Table.get_upsert]
      rw [keeps,← gone_iff,← gone_iff,← wrapped,← display,out]
      constructor
      · intro both
        have holds := both.2 [] rfl
        exact ⟨holds.unwrapped,holds.undisplayed⟩
      · rintro ⟨unwrapped,undisplayed⟩
        refine ⟨fun other => absurd rfl (other []),fun _ _ => ⟨rfl,?_,unwrapped,undisplayed⟩⟩
        simp [KeyState.secret,secret_deleteSecret]

/-- A pairing leaves keys and secrets as they were or installs the new key, except
where a key was opened and could not be saved or the recovery secrets stay. -/
theorem completePairing_atomic_iff (s : KeyState) (code : Str) (answer : Option PollAnswer) (io : InstallIo) :
    Atomic plat s code answer io ↔ ∀ mk, Transferred plat code answer mk → KeepsKeys s io := by
  rcases completePairing_cases plat s code answer io with ⟨mk,transferred,out⟩ | ⟨none_,same,status⟩
  · have once : (∀ other, Transferred plat code answer other → KeepsKeys s io) ↔ KeepsKeys s io :=
      ⟨fun each => each mk transferred,fun keeps _ _ => keeps⟩
    rw [once,← installKey_atomic_iff s mk io]
    constructor
    · intro atomic
      refine ⟨fun failed => ?_,fun error installed => ?_⟩
      · have kept := atomic.failed fun error => by
          rw [out]
          exact fun same => failed error (Option.some.inj same)
        rwa [out] at kept
      · obtain ⟨other,handed,holds⟩ := atomic.installed error (by rw [out,installed])
        rw [out,← transferred.unique plat handed] at holds
        exact holds
    · intro both
      refine ⟨fun failed => ?_,fun error installed => ?_⟩
      · rw [out] at failed ⊢
        exact both.1 fun error same => failed error (congrArg some same)
      · rw [out] at installed ⊢
        exact ⟨mk,transferred,both.2 error (Option.some.inj installed)⟩
  · constructor
    · intro _ mk transferred
      exact absurd transferred (none_ mk)
    · intro _
      refine ⟨fun _ => ?_,fun error installed => absurd installed (status error)⟩
      rw [same]
      exact ⟨rfl,fun _ => rfl⟩

end

/-- A computer that has a key asks for another computer's, which cannot be saved. -/
theorem unsaved_key_lost : ¬∀ s code answer io, Atomic Server.keyPlatform s code answer io := by
  intro atomic
  let reply : PollAnswer := ⟨⟨true,200,.obj [(lit "status",.str (lit "approved")),(lit "wrapped_master_key",
    .str (Base64.base64UrlEncode (wrapPayload Server.wrapDraws.salt.1 Server.wrappedKey).dumpText))]⟩,[]⟩
  let before : KeyState := ⟨List.replicate 32 7,some .empty⟩
  let io : InstallIo := ⟨.refused,true,true⟩
  have out : (completePairing Server.keyPlatform before (lit "ABCD-EFGH") (some reply) io).2.masterKey = [] ∧
      (completePairing Server.keyPlatform before (lit "ABCD-EFGH") (some reply) io).1 =
        some (.failed,lit "The key arrived but could not be saved on this computer.") := by
    decide +kernel
  have kept := (atomic before (lit "ABCD-EFGH") (some reply) io).failed (by
    rw [out.2]
    nofun)
  have lost : before.masterKey = [] := kept.masterKey.symm.trans out.1
  contradiction

end NPSync.Engine
