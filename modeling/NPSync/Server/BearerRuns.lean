import NPSync.Server.SignIns

/-! The server behind its access tokens: requests come with the token they carry, and
every answer with tokens gives a new one out. Whoever is let in as a device carries
a token given out for that device, within its lifetime, and somebody signed in to
the account before. -/
namespace NPSync.Server
open Library

/-- An access token given out with the answer of a thread. -/
structure Delivery where
  index : Nat
  minted : Nat
  accountID : Str
  deviceID : Str
  deriving DecidableEq

/-- A request when it came: the time, the token it carried, and the tokens given out by then. -/
structure Arrival where
  time : Nat
  bearer : Option Str
  known : List Delivery

structure Front where
  ledger : AuthLedger
  delivered : List Delivery
  arrivals : List Arrival

/-- A request with its query parameter and header, `elapsed` after the last call, or
a call; an answer carries a token minted at `minted` or when it is given. -/
inductive FrontMove where
  | arrive (request : AuthRequest) (query authorization : Str) (elapsed : Nat)
  | step (index : Nat) (env : AuthEnv) (minted : Nat)

namespace AuthRequest

/-- The claims a request is let in with. -/
def claims : AuthRequest → Option Claims
  | .logout claims | .revokeDevice claims _ | .renameDevice claims _ _ | .authorized claims | .webSocket claims
  | .pair claims _ => claims
  | _ => none

def withClaims (verified : Option Claims) : AuthRequest → AuthRequest
  | .logout _ => .logout verified
  | .revokeDevice _ target => .revokeDevice verified target
  | .renameDevice _ target name => .renameDevice verified target name
  | .authorized _ => .authorized verified
  | .webSocket _ => .webSocket verified
  | .pair _ action => .pair verified action
  | other => other

/-- The token a request carries, as its endpoint reads it. -/
def bearer (query authorization : Str) : AuthRequest → Option Str
  | .webSocket _ => webSocketToken query authorization
  | _ => bearerToken authorization

theorem claims_withClaims (request : AuthRequest) (verified : Option Claims) {known : Claims}
    (held : (request.withClaims verified).claims = some known) : verified = some known := by
  cases request with
  | logout _ => exact held
  | revokeDevice _ _ => exact held
  | renameDevice _ _ _ => exact held
  | authorized _ => exact held
  | webSocket _ => exact held
  | pair _ _ => exact held
  | _ => contradiction

end AuthRequest

/-- The token that goes out when a call has brought a thread to an answer with tokens. -/
def givenOut (before after : AuthLedger) (index minted : Nat) : List Delivery :=
  if after.history.length = before.history.length then []
  else match after.threads[index]? with
    | some ⟨.done response,_⟩ =>
      match response.session with
      | some (accountID,deviceID) => [⟨index,min minted after.shared.clock,accountID,deviceID⟩]
      | none => []
    | _ => []

section
variable (lib : AuthLibrary) (cfg : AuthConfig) (tokens : TokenLibrary) (signer : TokenSigner)

def Front.move (s : Front) : FrontMove → Front
  | .arrive request query authorization elapsed =>
    let time := s.ledger.shared.clock + elapsed
    let bearer := request.bearer query authorization
    let verified := request.withClaims (verifiedClaims tokens signer time bearer)
    {s with
      ledger := Ledger.move (handleAuth lib cfg) execAuth s.ledger (.spawn verified)
      arrivals := s.arrivals ++ [⟨time,bearer,s.delivered⟩]}
  | .step index env minted =>
    let after := Ledger.move (handleAuth lib cfg) execAuth s.ledger (.step index env)
    {s with ledger := after,delivered := s.delivered ++ givenOut s.ledger after index minted}

def Front.initial (clock : Nat) : Front := ⟨Ledger.initial (AuthState.empty clock),[],[]⟩

def frontRun (clock : Nat) (moves : List FrontMove) : Front :=
  run (Front.move lib cfg tokens signer) (Front.initial clock) moves

def Delivery.token (d : Delivery) : Str := mint tokens signer d.accountID d.deviceID d.minted

def Delivery.signed (d : Delivery) : Str := signedPart tokens (issuedClaims signer d.accountID d.deviceID d.minted)

/-- The right tag of a presented token was given out with its text before. -/
def Unforged (s : Front) : FrontMove → Prop
  | .arrive request query authorization _ => ∀ token data, request.bearer query authorization = some token →
    token = data ++ [46] ++ tokenSign tokens signer data → ∃ d ∈ s.delivered, data = d.signed tokens signer
  | .step .. => True

def FrontDrawn : FrontMove → Prop
  | .arrive .. => True
  | .step _ env _ => Drawn env.uuid

/-! ### The front and its ledger -/

variable {lib cfg tokens signer}

/-- Behind the tokens the server runs as it does without them. -/
theorem front_authRun (clock : Nat) (moves : List FrontMove) (drawn : ∀ move ∈ moves, FrontDrawn move) :
    ∃ behind, (frontRun lib cfg tokens signer clock moves).ledger = authRun lib cfg clock behind ∧
      Guarded (Ledger.move (handleAuth lib cfg) execAuth) UuidDrawn (Ledger.initial (AuthState.empty clock)) behind := by
  induction moves using List.reverseRecOn with
  | nil => exact ⟨[],rfl,trivial⟩
  | append_singleton earlier last ih =>
    obtain ⟨behind,same,guarded⟩ := ih fun move member => drawn move (List.mem_append_left _ member)
    have more : ∀ first : AuthMove, UuidDrawn (authRun lib cfg clock behind) first →
        Guarded (Ledger.move (handleAuth lib cfg) execAuth) UuidDrawn (Ledger.initial (AuthState.empty clock))
          (behind ++ [first]) := by
      intro first meets
      exact (guarded_append _ _ _ behind [first]).mpr ⟨guarded,meets,trivial⟩
    rw [frontRun,run_append,run_cons,run_nil]
    change (frontRun lib cfg tokens signer clock earlier).ledger = _ at same
    cases last with
    | arrive request query authorization elapsed =>
      refine ⟨behind ++ [.spawn (request.withClaims (verifiedClaims tokens signer
        ((authRun lib cfg clock behind).shared.clock + elapsed) (request.bearer query authorization)))],?_,more (.spawn _) trivial⟩
      rw [authRun,run_append,run_cons,run_nil]
      simp only [Front.move]
      rw [← frontRun,same]
      rfl
    | step index env minted =>
      refine ⟨behind ++ [.step index env],?_,more (.step index env) (drawn _ (List.mem_append_right _ List.mem_cons_self))⟩
      rw [authRun,run_append,run_cons,run_nil]
      simp only [Front.move]
      rw [← frontRun,same]
      rfl

/-- The thread answered with these tokens. -/
def Gave (l : AuthLedger) (d : Delivery) : Prop :=
  ∃ request response log, l.Serves d.index request (.done response) log ∧ response.session = some (d.accountID,d.deviceID)

/-- A device was let in with a token given out before it came, which was read so at that time. -/
def LetIn (tokens : TokenLibrary) (signer : TokenSigner) (arrival : Arrival) (claims : Claims) : Prop :=
  ∃ d ∈ arrival.known, ∃ read, arrival.bearer = some (d.token tokens signer) ∧
    verify tokens signer arrival.time (d.token tokens signer) = .ok read ∧ claims = ⟨read.accountID,read.deviceID⟩

structure FrontInv (tokens : TokenLibrary) (signer : TokenSigner) (s : Front) : Prop where
  counted : s.arrivals.length = s.ledger.requests.length
  gave : ∀ d ∈ s.delivered, Gave s.ledger d
  known : ∀ arrival ∈ s.arrivals, ∀ d ∈ arrival.known, d ∈ s.delivered
  letIn : ∀ (index : Nat) (request : AuthRequest) (arrival : Arrival) (claims : Claims), s.ledger.requests[index]? = some request →
    s.arrivals[index]? = some arrival → request.claims = some claims → LetIn tokens signer arrival claims

theorem Gave.moved (lib : AuthLibrary) (cfg : AuthConfig) {l : AuthLedger} {d : Delivery} (gave : Gave l d) (first : AuthMove) :
    Gave (Ledger.move (handleAuth lib cfg) execAuth l first) d := by
  obtain ⟨request,response,log,serves,session⟩ := gave
  exact ⟨request,response,log,serves.stays [first],session⟩

/-- What a step gives out, its thread has answered. -/
theorem givenOut_gave (l : AuthLedger) (index minted : Nat) (env : AuthEnv) (d : Delivery)
    (given : d ∈ givenOut l (Ledger.move (handleAuth lib cfg) execAuth l (.step index env)) index minted) :
    Gave (Ledger.move (handleAuth lib cfg) execAuth l (.step index env)) d := by
  rcases Ledger.move_cases (handleAuth lib cfg) execAuth l (.step index env) with
    ⟨request,wrong,-⟩ | ⟨other,used,request,op,next,log,made,serves,same⟩ | same
  · contradiction
  · injection made with here _
    subst here
    rw [same] at given ⊢
    unfold givenOut at given
    split at given
    · contradiction
    split at given
    · rename_i response calls thread
      split at given
      · rename_i accountID deviceID session
        rw [List.mem_singleton.mp given]
        exact ⟨request,response,calls,⟨serves.request,thread⟩,session⟩
      · contradiction
    · contradiction
  · rw [same] at given
    simp [givenOut] at given

/-- The verified claims of a request that carries no forged tag. -/
theorem letIn_verified {s : Front} {request : AuthRequest} {query authorization : Str} {elapsed time : Nat} {claims : Claims}
    (unforged : Unforged tokens signer s (.arrive request query authorization elapsed))
    (verified : verifiedClaims tokens signer time (request.bearer query authorization) = some claims) :
    LetIn tokens signer ⟨time,request.bearer query authorization,s.delivered⟩ claims := by
  obtain ⟨token,carried,read⟩ := Option.bind_eq_some_iff.mp verified
  split at read
  · rename_i accepted ok
    obtain ⟨data,shape⟩ := verify_signed ok
    obtain ⟨d,known,rfl⟩ := unforged token data carried shape
    have given : token = d.token tokens signer := shape
    exact ⟨d,known,accepted,given ▸ carried,given ▸ ok,(Option.some.inj read).symm⟩
  · contradiction

theorem frontInv_move {s : Front} (inv : FrontInv tokens signer s) (first : FrontMove)
    (unforged : Unforged tokens signer s first) : FrontInv tokens signer (Front.move lib cfg tokens signer s first) := by
  cases first with
  | arrive request query authorization elapsed =>
    refine ⟨by simp [Front.move,Ledger.move,Ledger.spawned,inv.counted],fun d given => (inv.gave d given).moved lib cfg (.spawn _),?_,?_⟩
    · intro arrival member d there
      rcases List.mem_append.mp member with before | now
      · exact inv.known arrival before d there
      · rw [List.mem_singleton.mp now] at there
        exact there
    · intro index asked arrival claims found came held
      simp only [Front.move,Ledger.move,Ledger.spawned,List.getElem?_append] at found came
      rw [inv.counted] at came
      split at came
      · rename_i old
        rw [if_pos old] at found
        exact inv.letIn index asked arrival claims found came held
      · rename_i new
        rw [if_neg new,List.getElem?_singleton] at found
        rw [List.getElem?_singleton] at came
        split at came
        · rename_i last
          rw [if_pos last] at found
          cases found
          cases came
          exact letIn_verified unforged (request.claims_withClaims _ held)
        · contradiction
  | step index env minted =>
    have requests : (Front.move lib cfg tokens signer s (.step index env minted)).ledger.requests = s.ledger.requests := by
      rcases Ledger.move_cases (handleAuth lib cfg) execAuth s.ledger (.step index env) with
        ⟨request,wrong,-⟩ | ⟨other,used,request,op,next,log,-,-,same⟩ | same
      · contradiction
      · simp only [Front.move,same,Ledger.called]
      · simp only [Front.move,same]
    refine ⟨by rw [requests]; exact inv.counted,?_,?_,?_⟩
    · intro d given
      rcases List.mem_append.mp given with before | now
      · exact (inv.gave d before).moved lib cfg (.step index env)
      · exact givenOut_gave s.ledger index minted env d now
    · exact fun arrival came d there => List.mem_append_left _ (inv.known arrival came d there)
    · intro asked request arrival claims found came held
      rw [requests] at found
      exact inv.letIn asked request arrival claims found came held

variable (lib cfg tokens signer)

/-- Who is let in as a device of an account carries a token that was given out for
both, unexpired, and a sign-in to the account had made the device. -/
theorem bearers_signed_in (clock : Nat) (moves : List FrontMove) (drawn : ∀ move ∈ moves, FrontDrawn move)
    (unforged : Guarded (Front.move lib cfg tokens signer) (Unforged tokens signer) (Front.initial clock) moves)
    {index : Nat} {request : AuthRequest} {claims : Claims}
    (asked : (frontRun lib cfg tokens signer clock moves).ledger.requests[index]? = some request)
    (held : request.claims = some claims) :
    ∃ arrival minted giver asker response log, (frontRun lib cfg tokens signer clock moves).arrivals[index]? = some arrival ∧
      ⟨giver,minted,claims.accountID,claims.deviceID⟩ ∈ arrival.known ∧
      arrival.bearer = some (mint tokens signer claims.accountID claims.deviceID minted) ∧
      arrival.time < minted + signer.ttl ∧
      (frontRun lib cfg tokens signer clock moves).ledger.Serves giver asker (.done response) log ∧
      response.session = some (claims.accountID,claims.deviceID) ∧
      ∃ past entry future name dev, (frontRun lib cfg tokens signer clock moves).ledger.history = past ++ entry::future ∧
        entry.event = ⟨.createDevice claims.accountID name,.ok dev⟩ ∧ dev.id = claims.deviceID ∧
        Authenticated lib entry.request (Ledger.callsOf past entry.index) claims.accountID := by
  have inv : FrontInv tokens signer (frontRun lib cfg tokens signer clock moves) :=
    run_invariant _ _ (FrontInv tokens signer) (fun s first holds meets => frontInv_move holds first meets) _ moves
      (by constructor <;> simp [Front.initial,Ledger.initial]) unforged
  have bound : index < (frontRun lib cfg tokens signer clock moves).arrivals.length := by
    rw [inv.counted]
    exact (List.getElem?_eq_some_iff.mp asked).1
  obtain ⟨arrival,came⟩ : ∃ arrival, (frontRun lib cfg tokens signer clock moves).arrivals[index]? = some arrival :=
    ⟨_,List.getElem?_eq_getElem bound⟩
  obtain ⟨d,known,read,bearer,accepted,rfl⟩ := inv.letIn index request arrival claims asked came held
  obtain ⟨asker,response,log,serves,session⟩ := inv.gave d (inv.known arrival (List.mem_of_getElem? came) d known)
  obtain ⟨behind,same,guarded⟩ := front_authRun clock moves drawn
  have origin := tokens_signed_in lib cfg clock behind guarded (same ▸ serves) session
  obtain ⟨account,device,created⟩ := origin
  rw [Delivery.token,verify_mint account device] at accepted
  split at accepted
  · rename_i early
    cases accepted
    exact ⟨arrival,d.minted,d.index,asker,response,log,came,known,bearer,lt_of_unixSeconds early,serves,session,same ▸ created⟩
  · contradiction

end

namespace SampleServer
open KnownAnswers (uuidOf masterKey)

/-- `json.Marshal` of claims whose identifiers need no escapes. -/
def claimsText (claims : AccessClaims) : Bytes := [34].intercalate [lit "\x7b",lit "sub",lit ":",claims.accountID,lit ",",
  lit "dev",lit ":",claims.deviceID,lit ",",lit "exp",lit ":" ++ decimal claims.expiresAt ++ lit ",",
  lit "iat",lit ":" ++ decimal claims.issuedAt ++ lit "\x7d"]

def isDigit (c : UInt8) : Bool := 48 ≤ c && c ≤ 57

def naturalIn (text : Str) : Nat := Nat.ofDigits 10 ((text.filter isDigit).reverse.map (fun c => c.toNat - 48))

def numberIn (text : Str) : Int := naturalIn text

def readClaims (text : Bytes) : Option AccessClaims :=
  match text.splitOn 34 with
  | [_,_,_,accountID,_,_,_,deviceID,_,_,expiresAt,_,issuedAt] =>
    some ⟨accountID,deviceID,numberIn expiresAt,numberIn issuedAt⟩
  | _ => none

theorem decimal_digits {n : Int} (positive : 0 ≤ n) : ∀ c ∈ decimal n, isDigit c = true := by
  unfold decimal
  rw [if_neg (Int.not_lt.mpr positive)]
  exact decimalNat_digit _

theorem numberIn_decimal {n : Int} (positive : 0 ≤ n) (mark : UInt8) (other : isDigit mark = false) :
    numberIn (lit ":" ++ decimal n ++ [mark]) = n := by
  have colon : (lit ":").filter isDigit = [] := by decide
  have kept : (decimal n).filter isDigit = decimal n := List.filter_eq_self.mpr (decimal_digits positive)
  have last : [mark].filter isDigit = [] := by simp [other]
  rw [numberIn,naturalIn,List.filter_append,List.filter_append,colon,kept,last,List.append_nil,List.nil_append]
  unfold decimal
  rw [if_neg (Int.not_lt.mpr positive),decimalNat_digits]
  exact Int.natAbs_of_nonneg positive

theorem readClaims_claimsText (claims : AccessClaims) (account : Drawn claims.accountID) (device : Drawn claims.deviceID)
    (expires : 0 ≤ claims.expiresAt) (issued : 0 ≤ claims.issuedAt) : readClaims (claimsText claims) = some claims := by
  have plain : ∀ {id}, Drawn id → (34 : UInt8) ∉ id := by
    rintro id ⟨bytes,rfl⟩ member
    rcases newUUID_text bytes 34 member with wrong | wrong
    · contradiction
    · contradiction
  have number : ∀ {n : Int} (mark : UInt8), 0 ≤ n → mark ≠ 34 → (34 : UInt8) ∉ lit ":" ++ decimal n ++ [mark] := by
    intro n mark positive other member
    rcases List.mem_append.mp member with front | last
    · rcases List.mem_append.mp front with colon | digits
      · revert colon
        decide
      · exact absurd (decimal_digits positive 34 digits) (by decide)
    · exact other (List.mem_singleton.mp last).symm
  have parts : (claimsText claims).splitOn 34 = [lit "\x7b",lit "sub",lit ":",claims.accountID,lit ",",lit "dev",lit ":",
      claims.deviceID,lit ",",lit "exp",lit ":" ++ decimal claims.expiresAt ++ lit ",",lit "iat",
      lit ":" ++ decimal claims.issuedAt ++ lit "\x7d"] := by
    refine List.splitOn_intercalate 34 (fun part member => ?_) (List.cons_ne_nil _ _)
    simp only [List.mem_cons,List.not_mem_nil,or_false] at member
    rcases member with rfl | rfl | rfl | rfl | rfl | rfl | rfl | rfl | rfl | rfl | rfl | rfl | rfl
    · decide
    · decide
    · decide
    · exact plain account
    · decide
    · decide
    · decide
    · exact plain device
    · decide
    · decide
    · exact number 44 expires (by decide)
    · decide
    · exact number 125 issued (by decide)
  have first := numberIn_decimal expires 44 (by decide)
  have second := numberIn_decimal issued 125 (by decide)
  have comma : lit "," = [44] := by decide
  have brace : lit "\x7d" = [125] := by decide
  rw [readClaims,parts]
  simp only [comma,brace,first,second]

/-- What the first token of the run below says, and its tag under `masterKey`. -/
def annaSigned : Str := lit "eyJhbGciOiJIUzI1NiIsInR5cCI6IkpXVCJ9." ++
  lit "eyJzdWIiOiIwMTAxMDEwMS0wMTAxLTQxMDEtODEwMS0wMTAxMDEwMTAxMDEiLCJkZXYiOiIwMjAyMDIwMi0wMjAyLTQyMDIt" ++
  lit "ODIwMi0wMjAyMDIwMjAyMDIiLCJleHAiOjE3MDAwMDA5MDAsImlhdCI6MTcwMDAwMDAwMH0"

def tokenTags (key data : Bytes) : Bytes :=
  if key = masterKey ∧ data = annaSigned then unhex "1c10c1b6d7fe9e77ef523c71cd4d732f34db8a824bf006af5e390397f52f1e65" else []

def sampleTokens : TokenLibrary := ⟨tokenTags,claimsText,readClaims,readClaims_claimsText⟩

/-- Tokens are good for a quarter of an hour. -/
def sampleSigner : TokenSigner := ⟨masterKey,900 * 1000000000⟩

def startTime : Nat := 1700000000 * 1000000000

def stepWith (b : UInt8) : FrontMove := .step 0 ⟨0,newUUID (uuidOf b),false,none,none⟩ startTime

/-- Anna registers and is given a token. -/
def registering : List FrontMove := [.arrive annaRegisters [] [] 0,stepWith 1,stepWith 9,stepWith 2,stepWith 9,stepWith 3]

def annaToken : Str := annaSigned ++ lit ".HBDBttf-nnfvUjxxzU1zLzTbioJL8AavXjkDl_UvHmU"

/-- Ten seconds later a request comes with it. -/
def comingBack : FrontMove := .arrive (.authorized none) [] (lit "Bearer " ++ annaToken) (10 * 1000000000)

def annaClaims : Claims := ⟨newUUID (uuidOf 1),newUUID (uuidOf 2)⟩

end SampleServer

section
open SampleServer
open KnownAnswers (uuidOf)

private theorem registering_gives :
    (frontRun asciiAuth openServer sampleTokens sampleSigner startTime registering).delivered =
      [⟨0,startTime,annaClaims.accountID,annaClaims.deviceID⟩] := by
  decide +kernel

private theorem anna_minted :
    mint sampleTokens sampleSigner annaClaims.accountID annaClaims.deviceID startTime = annaToken := by
  decide +kernel

private theorem anna_carries : bearerToken (lit "Bearer " ++ annaToken) = some annaToken := by decide +kernel

/-- A token names what was signed. -/
private theorem tokenText_inj (lib : TokenLibrary) (signer : TokenSigner) {a b : Str}
    (same : a ++ [46] ++ tokenSign lib signer a = b ++ [46] ++ tokenSign lib signer b) : a = b := by
  have split : ∀ data : Str, (data ++ [46] ++ tokenSign lib signer data).splitOn 46 = data.splitOn 46 ++ [tokenSign lib signer data] := by
    intro data
    have plain : (46 : UInt8) ∉ tokenSign lib signer data := encodeBase64URL_plain _
    rw [List.append_assoc,List.singleton_append,List.splitOn_append_cons_self,List.splitOn_eq_singleton plain]
  have parts := (split a).symm.trans (same ▸ split b)
  have front := List.append_inj_left' parts rfl
  have whole : ∀ data : Str, List.intercalate [46] (data.splitOn 46) = data := fun data => List.intercalate_splitOn 46
  rw [← whole a,front,whole]

theorem anna_comes_back :
    ∃ arrival minted giver asker response log,
      (frontRun asciiAuth openServer sampleTokens sampleSigner startTime (registering ++ [comingBack])).arrivals[1]? = some arrival ∧
      ⟨giver,minted,annaClaims.accountID,annaClaims.deviceID⟩ ∈ arrival.known ∧
      arrival.bearer = some (mint sampleTokens sampleSigner annaClaims.accountID annaClaims.deviceID minted) ∧
      arrival.time < minted + sampleSigner.ttl ∧
      (frontRun asciiAuth openServer sampleTokens sampleSigner startTime (registering ++ [comingBack])).ledger.Serves giver asker
        (.done response) log ∧
      response.session = some (annaClaims.accountID,annaClaims.deviceID) ∧
      ∃ past entry future name dev,
        (frontRun asciiAuth openServer sampleTokens sampleSigner startTime (registering ++ [comingBack])).ledger.history =
          past ++ entry::future ∧
        entry.event = ⟨.createDevice annaClaims.accountID name,.ok dev⟩ ∧ dev.id = annaClaims.deviceID ∧
        Authenticated asciiAuth entry.request (Ledger.callsOf past entry.index) annaClaims.accountID := by
  have drawn : ∀ move ∈ registering ++ [comingBack], FrontDrawn move := by
    intro move member
    simp only [registering,comingBack,List.cons_append,List.nil_append,List.mem_cons,List.not_mem_nil,or_false] at member
    rcases member with rfl | rfl | rfl | rfl | rfl | rfl | rfl
    · trivial
    · exact ⟨uuidOf 1,rfl⟩
    · exact ⟨uuidOf 9,rfl⟩
    · exact ⟨uuidOf 2,rfl⟩
    · exact ⟨uuidOf 9,rfl⟩
    · exact ⟨uuidOf 3,rfl⟩
    · trivial
  have unforged : Guarded (Front.move asciiAuth openServer sampleTokens sampleSigner) (Unforged sampleTokens sampleSigner)
      (Front.initial startTime) (registering ++ [comingBack]) := by
    refine (guarded_append _ _ _ registering [comingBack]).mpr ⟨?_,?_,trivial⟩
    · refine ⟨fun token data carried => ?_,trivial,trivial,trivial,trivial,trivial,trivial⟩
      have empty : AuthRequest.bearer [] [] annaRegisters = none := by decide
      rw [empty] at carried
      contradiction
    · intro token data carried shape
      have same : token = annaToken := Option.some.inj (carried.symm.trans anna_carries)
      refine ⟨⟨0,startTime,annaClaims.accountID,annaClaims.deviceID⟩,?_,?_⟩
      · have given := registering_gives
        rw [frontRun] at given
        rw [given]
        exact List.mem_cons_self
      · apply tokenText_inj sampleTokens sampleSigner
        rw [← shape,same,← anna_minted]
        rfl
  have asked : ((frontRun asciiAuth openServer sampleTokens sampleSigner startTime
      (registering ++ [comingBack])).ledger.requests[1]?).map AuthRequest.claims = some (some annaClaims) := by
    decide +kernel
  obtain ⟨request,found,held⟩ := Option.map_eq_some_iff.mp asked
  exact bearers_signed_in asciiAuth openServer sampleTokens sampleSigner startTime (registering ++ [comingBack]) drawn unforged
    found held

end
end NPSync.Server
