import NPSync.Server.AuthHandlers

/-! `auth/tokens.go`, and what `withAuth` and `handleWebSocket` take from a request
before they look at the store. Times are nanoseconds since 1970. -/
namespace NPSync.Server
open Library

/-- `NewUUID`, for the bytes that `rand.Read` filled. -/
def newUUID (drawn : {bytes : Bytes // bytes.length = 16}) : Str :=
  let b := (drawn.1.set 6 (drawn.1.getD 6 0 &&& 0x0f ||| 0x40)).set 8 (drawn.1.getD 8 0 &&& 0x3f ||| 0x80)
  hex (b.take 4) ++ lit "-" ++ hex ((b.drop 4).take 2) ++ lit "-" ++ hex ((b.drop 6).take 2) ++ lit "-" ++
    hex ((b.drop 8).take 2) ++ lit "-" ++ hex ((b.drop 10).take 6)

/-- The value of `uuidFn` once it is `NewUUID`. -/
def Drawn (id : Str) : Prop := ∃ bytes, id = newUUID bytes

theorem newUUID_text (drawn : {bytes : Bytes // bytes.length = 16}) :
    ∀ c ∈ newUUID drawn, isLowerHex c = true ∨ c = 45 := by
  intro c member
  simp only [newUUID,List.mem_append] at member
  have text : ∀ data, c ∈ hex data → isLowerHex c = true ∨ c = 45 :=
    fun data there => .inl (List.all_eq_true.mp (hex_isLowerHex data) c there)
  have dash : c ∈ lit "-" → isLowerHex c = true ∨ c = 45 := fun there => .inr (List.mem_singleton.mp there)
  rcases member with (((((((there | there) | there) | there) | there) | there) | there) | there) | there
  · exact text _ there
  · exact dash there
  · exact text _ there
  · exact dash there
  · exact text _ there
  · exact dash there
  · exact text _ there
  · exact dash there
  · exact text _ there

theorem newUUID_ne_nil (drawn : {bytes : Bytes // bytes.length = 16}) : newUUID drawn ≠ [] := by
  intro empty
  simp [newUUID,lit] at empty

/-- `AccessClaims`. -/
structure AccessClaims where
  accountID : Str
  deviceID : Str
  expiresAt : Int
  issuedAt : Int
  deriving DecidableEq

/-- What access tokens take from Go's libraries. Claims with identifiers of
`NewUUID` and times after 1970 are read back from their JSON text. -/
structure TokenLibrary where
  hmacSHA256 : (key data : Bytes) → Bytes
  marshal : AccessClaims → Bytes
  unmarshal : Bytes → Option AccessClaims
  unmarshal_marshal : ∀ claims, Drawn claims.accountID → Drawn claims.deviceID → 0 ≤ claims.expiresAt →
    0 ≤ claims.issuedAt → unmarshal (marshal claims) = some claims

structure TokenSigner where
  key : Bytes
  ttl : Nat

/-- `Time.Unix`. -/
def unixSeconds (time : Nat) : Int := (time / 1000000000 : Nat)

theorem lt_of_unixSeconds {a b : Nat} (before : unixSeconds a < unixSeconds b) : a < b := by
  unfold unixSeconds at before
  by_contra later
  have order := Nat.div_le_div_right (c := 1000000000) (Nat.not_lt.mp later)
  omega

section
variable (lib : TokenLibrary) (signer : TokenSigner)

/-- `sign`. -/
def tokenSign (data : Str) : Str := Base64.encodeBase64URL (lib.hmacSHA256 signer.key data)

def tokenHeader : Str := Base64.encodeBase64URL (lit "\x7b\"alg\":\"HS256\",\"typ\":\"JWT\"\x7d")

/-- The part of a token that is signed. -/
def signedPart (claims : AccessClaims) : Str := tokenHeader ++ [46] ++ Base64.encodeBase64URL (lib.marshal claims)

def issuedClaims (accountID deviceID : Str) (now : Nat) : AccessClaims :=
  ⟨accountID,deviceID,unixSeconds (now + signer.ttl),unixSeconds now⟩

/-- `Mint`. -/
def mint (accountID deviceID : Str) (now : Nat) : Str :=
  let data := signedPart lib (issuedClaims signer accountID deviceID now)
  data ++ [46] ++ tokenSign lib signer data

/-- `Verify`. -/
def verify (now : Nat) (token : Str) : Except String AccessClaims :=
  match token.splitOn 46 with
  | [header,payload,sig] =>
    if tokenSign lib signer (header ++ [46] ++ payload) ≠ sig then .error "bad signature"
    else match Base64.decodeBase64URL payload with
      | none => .error "malformed payload"
      | some text => match lib.unmarshal text with
        | none => .error "malformed claims"
        | some claims =>
          if claims.accountID = [] ∨ claims.deviceID = [] then .error "missing claims"
          else if claims.expiresAt ≤ unixSeconds now then .error "token expired"
          else .ok claims
  | _ => .error "malformed token"

/-- The token of an `Authorization` header. -/
def bearerToken (authorization : Str) : Option Str :=
  if (lit "Bearer ").isPrefixOf authorization then some (authorization.drop 7) else none

/-- The token `handleWebSocket` looks at: the query parameter, else the header. -/
def webSocketToken (query authorization : Str) : Option Str :=
  let token := if query = [] then (bearerToken authorization).getD [] else query
  if token = [] then none else some token

/-- The claims that a presented token stands for. -/
def verifiedClaims (now : Nat) (token : Option Str) : Option Claims :=
  token.bind fun token =>
    match verify lib signer now token with
    | .ok claims => some ⟨claims.accountID,claims.deviceID⟩
    | .error _ => none

/-! ### What a token says -/

theorem encodeBase64URL_plain (data : Bytes) : (46 : UInt8) ∉ Base64.encodeBase64URL data := by
  intro member
  have letter := Base64.encode_alphabet data 46 member
  revert letter
  decide

theorem splitOn_signed (claims : AccessClaims) (sig : Str) (plain : (46 : UInt8) ∉ sig) :
    (signedPart lib claims ++ [46] ++ sig).splitOn 46 =
      [tokenHeader,Base64.encodeBase64URL (lib.marshal claims),sig] := by
  have whole : signedPart lib claims ++ [46] ++ sig =
      [46].intercalate [tokenHeader,Base64.encodeBase64URL (lib.marshal claims),sig] := by
    simp [signedPart,List.intercalate,List.intersperse]
  rw [whole]
  refine List.splitOn_intercalate 46 (fun part member => ?_) (List.cons_ne_nil _ _)
  simp only [List.mem_cons,List.not_mem_nil,or_false] at member
  rcases member with rfl | rfl | rfl
  · exact encodeBase64URL_plain _
  · exact encodeBase64URL_plain _
  · exact plain

variable {lib signer}

/-- An accepted token has the tag of its own text. -/
theorem verify_signed {now : Nat} {token : Str} {claims : AccessClaims} (accepted : verify lib signer now token = .ok claims) :
    ∃ data, token = data ++ [46] ++ tokenSign lib signer data := by
  unfold verify at accepted
  split at accepted
  · rename_i header payload sig parts
    split at accepted
    · contradiction
    rename_i tagged
    refine ⟨header ++ [46] ++ payload,?_⟩
    have whole : List.intercalate [46] (token.splitOn 46) = token := List.intercalate_splitOn 46
    rw [not_not.mp tagged,← whole,parts]
    simp [List.intercalate,List.intersperse]
  · contradiction

/-- A minted token is good for the claims it was minted with, until they expire. -/
theorem verify_mint {accountID deviceID : Str} (account : Drawn accountID) (device : Drawn deviceID) (minted now : Nat) :
    verify lib signer now (mint lib signer accountID deviceID minted) =
      if unixSeconds now < unixSeconds (minted + signer.ttl) then .ok (issuedClaims signer accountID deviceID minted)
      else .error "token expired" := by
  have positive : ∀ time, 0 ≤ unixSeconds time := fun time => Int.natCast_nonneg _
  have filled : ∀ {id}, Drawn id → id ≠ [] := by
    rintro id ⟨bytes,rfl⟩
    exact newUUID_ne_nil bytes
  unfold verify mint
  dsimp only
  rw [splitOn_signed lib _ (tokenSign lib signer _) (encodeBase64URL_plain _)]
  dsimp only
  have tagged : tokenHeader ++ [46] ++ Base64.encodeBase64URL (lib.marshal (issuedClaims signer accountID deviceID minted)) =
    signedPart lib (issuedClaims signer accountID deviceID minted) := rfl
  rw [tagged,if_neg (not_not.mpr rfl),Base64.encodeBase64URL,Base64.decodeBase64URL_encode]
  dsimp only
  rw [lib.unmarshal_marshal _ account device (positive _) (positive _)]
  dsimp only
  have named : ¬((issuedClaims signer accountID deviceID minted).accountID = [] ∨
      (issuedClaims signer accountID deviceID minted).deviceID = []) := not_or.mpr ⟨filled account,filled device⟩
  rw [if_neg named]
  have expires : (issuedClaims signer accountID deviceID minted).expiresAt = unixSeconds (minted + signer.ttl) := rfl
  by_cases early : unixSeconds now < unixSeconds (minted + signer.ttl)
  · rw [if_pos early,expires,if_neg (Int.not_le.mpr early)]
  · rw [if_neg early,expires,if_pos (Int.not_lt.mp early)]

end
end NPSync.Server
