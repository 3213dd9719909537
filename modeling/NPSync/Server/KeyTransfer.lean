import Mathlib
import NPSync.KeySetup
import NPSync.KnownAnswers
import NPSync.Server.AuthHandlers

/-! The master key on its way between two computers: wrapped for a pairing code,
stored at the server by an approval, handed out by a poll, and installed. -/
namespace NPSync.Server
open Library KeySetup

/-- `generatePairingCode` from the eight random bytes it reads. -/
def generatePairingCode (b : {b : Bytes // b.length = 8}) : Str :=
  let alphabet := lit "ABCDEFGHJKMNPQRSTUVWXYZ23456789"
  b.1.zipIdx.flatMap fun c => (if c.2 = 4 then lit "-" else []) ++ [alphabet.getD (c.1.toNat % alphabet.length) 0]

/-- The letters of a code without its dash. -/
def codeLetters (b : {b : Bytes // b.length = 8}) : Str :=
  b.1.map fun c => pairingAlphabet.getD (c.toNat % pairingAlphabet.length) 0

theorem generatePairingCode_dashed (b : {b : Bytes // b.length = 8}) : generatePairingCode b = dashed (codeLetters b) :=
  match b with
  | ⟨[_,_,_,_,_,_,_,_],_⟩ => rfl

theorem codeLetters_alphabet (b : {b : Bytes // b.length = 8}) : ∀ c ∈ codeLetters b, c ∈ pairingAlphabet := by
  intro c member
  obtain ⟨byte,-,rfl⟩ := List.mem_map.mp member
  have bound : byte.toNat % pairingAlphabet.length < pairingAlphabet.length := Nat.mod_lt _ (by decide)
  rw [List.getD_eq_getElem?_getD,List.getElem?_eq_getElem bound]
  exact List.getElem_mem bound

/-- The plugin leaves every code of the server as it is. -/
theorem normalizePairingCode_generated (b : {b : Bytes // b.length = 8}) :
    normalizePairingCode (generatePairingCode b) = some (generatePairingCode b) := by
  rw [generatePairingCode_dashed]
  apply normalizePairingCode_dashed
  · rw [codeLetters,List.length_map,b.2]
  · exact codeLetters_alphabet b

theorem generatePairingCode_ne (b : {b : Bytes // b.length = 8}) : generatePairingCode b ≠ [] := by
  rw [generatePairingCode_dashed]
  simp [dashed,lit]

/-- A code counts however it is typed: case and separators aside, it has these letters. -/
theorem normalizePairingCode_iff (b : {b : Bytes // b.length = 8}) (code : Str) :
    normalizePairingCode code = some (generatePairingCode b) ↔
      (code.filter (fun ch => !separator ch)).map upper = codeLetters b := by
  have sized : (codeLetters b).length = 8 := by rw [codeLetters,List.length_map,b.2]
  rw [← rawCode_typed (codeLetters_alphabet b),generatePairingCode_dashed]
  unfold normalizePairingCode
  cases rawCode code with
  | none => simp
  | some raw =>
    dsimp only
    constructor
    · intro same
      split at same
      · contradiction
      rename_i long
      exact congrArg some (dashed_inj (not_not.mp long) sized (Option.some.inj same))
    · intro same
      cases same
      rw [if_neg (by simp [sized])]

/-! ### The wrapped key at the server -/

/-- The code waits for an approval by another device of the account. -/
structure Waiting (s : AuthState) (code : Str) (pc : PairingCode) (approver joiner : Claims) : Prop where
  stored : s.mem.pairing.get code = some pc
  asked : pc.accountID = joiner.accountID ∧ pc.requestingDevice = joiner.deviceID
  account : approver.accountID = joiner.accountID
  other : approver.deviceID ≠ joiner.deviceID
  unused : pc.consumedAt = none

/-- An approval in time stores the decoded bytes with the code. -/
theorem pairApprove_stores {s : AuthState} {code text : Str} {pc : PairingCode} {approver joiner : Claims} {blob : Bytes}
    {env : AuthEnv} (works : env.fault = false) (waiting : Waiting s code pc approver joiner) (named : code ≠ [])
    (decoded : Base64.decodeBase64URL text = some blob) (filled : blob ≠ []) (short : blob.length ≤ 4096)
    (inTime : s.clock + env.elapsed + env.elapsed ≤ pc.expiresAt) :
    let out := (pairApprove approver code text).run (execAuth env) s
    out.1 = .approved ∧ out.2.clock = s.clock + env.elapsed + env.elapsed ∧ out.2.mem.pairing.get code =
      some {pc with wrappedMasterKey := blob,approvingDevice := some approver.deviceID} := by
  have written : text ≠ [] := by
    rintro rfl
    exact filled (Option.some.inj decoded).symm
  have account : pc.accountID = approver.accountID := waiting.asked.1.trans waiting.account.symm
  have other : pc.requestingDevice ≠ approver.deviceID := by
    rw [waiting.asked.2]
    exact waiting.other.symm
  unfold pairApprove
  rw [if_neg (not_or.mpr ⟨named,written⟩),decoded]
  dsimp only
  rw [if_neg (not_or.mpr ⟨by simpa using filled,by omega⟩)]
  simp only [Program.run_call,execAuth,execAuthAt,attempt,works,Bool.false_eq_true,if_false,AuthMem.pairingCodeByCode,
    waiting.stored]
  rw [if_neg (not_not.mpr account),if_neg other]
  simp only [Program.run_call,execAuth,execAuthAt,attempt,works,Bool.false_eq_true,if_false,AuthMem.approvePairingCode,
    waiting.stored]
  rw [if_neg (not_or.mpr ⟨not_not.mpr waiting.unused,Nat.not_lt.mpr inTime⟩)]
  exact ⟨rfl,rfl,Table.get_upsert_same _ _ _⟩

/-- A poll in time hands out the stored bytes. -/
theorem pairPoll_hands {s : AuthState} {code : Str} {pc : PairingCode} {joiner : Claims} {env : AuthEnv}
    (works : env.fault = false) (stored : s.mem.pairing.get code = some pc) (named : code ≠ [])
    (asked : pc.accountID = joiner.accountID ∧ pc.requestingDevice = joiner.deviceID) (unused : pc.consumedAt = none)
    (filled : pc.wrappedMasterKey ≠ []) (inTime : s.clock + env.elapsed + env.elapsed ≤ pc.expiresAt) :
    ((pairPoll joiner code).run (execAuth env) s).1 = .paired (Base64.encodeBase64URL pc.wrappedMasterKey) := by
  unfold pairPoll
  rw [if_neg named]
  simp only [Program.run_call,execAuth,execAuthAt,attempt,works,Bool.false_eq_true,if_false,AuthMem.pairingCodeByCode,
    stored,asked,ne_eq,not_true_eq_false,or_self]
  unfold answerPoll
  rw [if_neg (not_or.mpr ⟨Nat.not_lt.mpr inTime,by simp [unused]⟩),if_neg (by simpa using filled)]
  simp only [Program.run_call,execAuth,execAuthAt,attempt,works,Bool.false_eq_true,if_false,AuthMem.consumePairingCode,stored]
  rfl

/-- Whatever is typed for the code, the text that wraps the key for it is
accepted, and the text that a poll hands out installs exactly that key. -/
theorem pairing_transfers_key (plat : KeyPlatform) (masterKey : Bytes) (draws : WrapDraws) (b : {b : Bytes // b.length = 8})
    (typed shown : Str) (sized : masterKey.length = kMasterKeyLen)
    (wraps : normalizePairingCode typed = some (generatePairingCode b))
    (opens : normalizePairingCode shown = some (generatePairingCode b))
    (reads : ReadsWrap plat masterKey (generatePairingCode b) draws) :
    normalizePairingCode (generatePairingCode b) = some (generatePairingCode b) ∧
    ∃ text blob, wrapMasterKeyForPairing plat masterKey typed draws = some text ∧ text ≠ [] ∧
      Base64.decodeBase64URL text = some blob ∧ 0 < blob.length ∧ blob.length ≤ 4096 ∧
      installWrappedMasterKey plat (Base64.encodeBase64URL blob) shown = .plain masterKey ∧
      ∀ s pc approver joiner first second, Waiting s (generatePairingCode b) pc approver joiner → first.fault = false →
        second.fault = false → s.clock + 2 * first.elapsed + 2 * second.elapsed ≤ pc.expiresAt →
        let approved := (pairApprove approver (generatePairingCode b) text).run (execAuth first) s
        approved.1 = .approved ∧ ((pairPoll joiner (generatePairingCode b)).run (execAuth second) approved.2).1 =
          .paired (Base64.encodeBase64URL blob) := by
  refine ⟨normalizePairingCode_generated b,?_⟩
  obtain ⟨blob,wrapped,size,installs⟩ := install_wrap plat sized reads wraps opens
  have decoded := Base64.decodeBase64URL_encode blob
  have filled : blob ≠ [] := by
    rintro rfl
    contradiction
  have short : blob.length ≤ 4096 := by omega
  refine ⟨_,blob,wrapped,?_,decoded,by omega,short,installs,?_⟩
  · intro empty
    rw [empty] at decoded
    exact filled (Option.some.inj decoded).symm
  · intro s pc approver joiner first second waiting works serves inTime
    obtain ⟨done,clock,stored⟩ := pairApprove_stores works waiting (generatePairingCode_ne b) decoded filled short (by omega)
    refine ⟨done,?_⟩
    have asked := waiting.asked
    have handed := pairPoll_hands serves stored (generatePairingCode_ne b) asked waiting.unused filled (by
      rw [clock]
      dsimp only
      omega)
    exact handed

/-! ### A key wrapped for a known code -/

section
open KnownAnswers

def codeDraw : {b : Bytes // b.length = 8} := ⟨[0,1,2,3,4,5,6,7],rfl⟩

def wrapDraws : WrapDraws := ⟨⟨(List.range 16).map UInt8.ofNat,by decide⟩,nonceOf 1⟩

def codeKey : {key : Bytes // key.length = kMasterKeyLen} :=
  ⟨unhex "03d40ed710b34104714ad0ce1cdf8e3f50a766742b9cd100e498a3be26cd59f1",by decide⟩

def keyWraps : List KnownSeal := [⟨codeKey.1,(nonceOf 1).1,masterKey,lit "npsync-keywrap",
  unhex "1b584c5ce72dad47e779918099f23c89aa61024f6b0d96c7bd12ce9fcafcbb12",
  ⟨unhex "02557db53e9571d675e9a83abebaa4fe",by decide⟩⟩]

theorem keyWraps_consistent : Consistent keyWraps := ⟨by decide,by decide,by decide⟩

def wrappedKey : Bytes :=
  unhex "4e50533101010101010101010101010101" ++ unhex "02557db53e9571d675e9a83abebaa4fe" ++
    unhex "1b584c5ce72dad47e779918099f23c89aa61024f6b0d96c7bd12ce9fcafcbb12"

/-- PBKDF2 of the code `ABCD-EFGH`, and the parser on the payload of its wrap. -/
def keyPlatform : KeyPlatform where
  prim := primitives [] keyWraps keyWraps_consistent
  parse text :=
    let payload := wrapPayload wrapDraws.salt.1 wrappedKey
    if text = payload.dumpText then some payload else none
  pbkdf2 password salt iterations :=
    if password = lit "ABCD-EFGH" ∧ salt = wrapDraws.salt.1 ∧ iterations = 200000 then codeKey
    else KnownAnswers.zeroKey

theorem wrappedKey_sealed : wrapMasterKey keyPlatform masterKey
    (deriveKeyFromCode keyPlatform (generatePairingCode codeDraw) wrapDraws.salt.1) wrapDraws.nonce = some wrappedKey := by
  decide

theorem typed_key_installed : ∃ text blob,
    wrapMasterKeyForPairing keyPlatform masterKey (lit "abcd efgh") wrapDraws = some text ∧
      Base64.decodeBase64URL text = some blob ∧
      installWrappedMasterKey keyPlatform (Base64.encodeBase64URL blob) (lit "ABCD-efgh\t") = .plain masterKey := by
  have reads : ReadsWrap keyPlatform masterKey (generatePairingCode codeDraw) wrapDraws := by
    intro wrapped text wraps dumped
    cases Option.some.inj (wrappedKey_sealed.symm.trans wraps)
    rw [wrapPayload_dump] at dumped
    exact if_pos (Option.some.inj dumped).symm
  obtain ⟨-,text,blob,wrapped,-,decoded,-,-,installed,-⟩ := pairing_transfers_key keyPlatform masterKey wrapDraws codeDraw
    (lit "abcd efgh") (lit "ABCD-efgh\t") (by decide) (by decide) (by decide) reads
  exact ⟨text,blob,wrapped,decoded,installed⟩

end
end NPSync.Server
