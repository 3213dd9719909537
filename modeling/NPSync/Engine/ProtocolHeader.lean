import NPSync.Engine.ApiClient
import NPSync.Library.HeaderText

/-! The protocol version of a response. `protocolMiddleware` sets the header under its
canonical name, as `net/http` writes it; `headerValue` of `ApiClient.cpp` searches the
raw head for the name as it is spelled. -/
namespace NPSync.Engine
open Library Library.HttpHeader

def protocolHeader : Str := lit "X-NPSync-Protocol"

/-- The value that begins at `start`; `none` is the `std::out_of_range` of `substr`. -/
def valueAt (allHeaders : Str) (start : Nat) : Option Str :=
  if allHeaders.length < start then none
  else
    let rest := allHeaders.drop start
    let v := match find [13,10] rest with
      | none => rest
      | some n => rest.take n
    some (v.dropWhile isBlank)

def headerValue (allHeaders name : Str) : Option Str :=
  let needle := [13,10] ++ name ++ [58]
  match find needle allHeaders with
  | some pos => valueAt allHeaders ((pos + needle.length) % 2^64)
  | none =>
    -- The first header: `0 - name.size() - 1` in 64 bits.
    if (name ++ [58]).isPrefixOf allHeaders then valueAt allHeaders ((2^64 - name.length - 1 + needle.length) % 2^64)
    else some []

/-- `std::atoi` of Microsoft's runtime, which saturates. -/
def atoi (text : Str) : Int :=
  let text := VersionVector.skipWs text
  let signed := text.head? = some 45 ∨ text.head? = some 43
  let digits := (if signed then text.tail else text).takeWhile VersionVector.isdigit
  let n : Int := digits.foldl (fun n c => n * 10 + ((c.toNat : Int) - 48)) 0
  let n := if text.head? = some 45 then -n else n
  max (-2^31) (min (2^31 - 1) n)

def versionOf (proto : Str) : Int := if proto = [] then 0 else atoi proto

/-- `resp.serverProtocol` after a request. -/
def serverProtocol (allHeaders : Str) : Option Int := (headerValue allHeaders protocolHeader).map versionOf

/-- What a sign-in writes to the settings and the secrets. -/
structure TokenSession where
  deviceId : Str
  accountId : Str
  accessToken : Str
  refreshToken : Str

def incompatible : Str :=
  lit "This server speaks an incompatible protocol version. Update the plugin or the server."

/-- `none` is an exception of `body.value`. -/
def acceptTokenResponse (r : ApiResponse) (transportError : Str) (serverProtocol : Int) (failLabel : Str) :
    Option (Except Str TokenSession) :=
  if r.transportOk = false then some (.error (lit "Cannot reach server: " ++ transportError))
  else if serverProtocol ≠ 0 ∧ serverProtocol ≠ 1 then some (.error incompatible)
  else if r.status ≠ 200 then (r.body.valueStr (lit "message") failLabel).map .error
  else do
    let deviceId ← r.body.valueStr (lit "device_id") []
    let accountId ← r.body.valueStr (lit "account_id") []
    let accessToken ← r.body.valueStr (lit "access_token") []
    let refreshToken ← r.body.valueStr (lit "refresh_token") []
    return .ok ⟨deviceId,accountId,accessToken,refreshToken⟩

/-- A head that fits into memory. -/
structure ResponseHead extends Head where
  fits : toHead.text.length < 2^64

/-- The protocol fields of a head, in any letter case, say `v`. -/
def Stamped (head : ResponseHead) (v : Str) : Prop :=
  (∃ line ∈ head.fields, sameName line.name protocolHeader = true) ∧
    ∀ line ∈ head.fields, sameName line.name protocolHeader = true → line.value = v

def Unstamped (head : ResponseHead) : Prop := ∀ line ∈ head.fields, sameName line.name protocolHeader = false

/-- A client reads the version that the head carries, and the check of a sign-in acts
on it. -/
structure SeesVersion (head : ResponseHead) : Prop where
  stamped : ∀ v, Stamped head v → headerValue head.text protocolHeader = some v
  checked : ∀ v, Stamped head v → ∀ r transportError failLabel,
    ((serverProtocol head.text).bind fun n => acceptTokenResponse r transportError n failLabel) =
      acceptTokenResponse r transportError (versionOf v) failLabel
  absent : Unstamped head → headerValue head.text protocolHeader = some []

/-- The field that the search finds. -/
def spelled (head : ResponseHead) : Option FieldLine := head.fields.find? fun line => line.name = protocolHeader

/-- A value that is not empty stands in a field that is spelled as the client spells
it, and the first of them has no white space after it. -/
def SpelledAsSearched (head : ResponseHead) : Prop :=
  ∀ v, Stamped head v → v = [] ∨ ∃ line, spelled head = some line ∧ line.after = []

/-! ### The search -/

theorem protocolHeader_token : protocolHeader.all isToken = true := by decide

theorem sameName_refl (name : Str) : sameName name name = true := by simp [sameName]

/-- What is left of a field's content. -/
theorem dropWhile_content (line : FieldLine) :
    line.content.dropWhile isBlank = if line.value = [] then [] else line.value ++ line.after := by
  have blanks := line.blanks
  rw [List.all_append,Bool.and_eq_true] at blanks
  unfold FieldLine.content
  rw [List.append_assoc,List.dropWhile_append_of_pos (List.all_eq_true.mp blanks.1)]
  have first := line.trimmed.1
  cases known : line.value with
  | nil =>
    rw [if_pos rfl,List.nil_append,List.dropWhile_eq_nil_iff]
    exact List.all_eq_true.mp blanks.2
  | cons c value =>
    rw [known] at first
    rw [if_neg (List.cons_ne_nil c value),List.cons_append,List.dropWhile_cons_of_neg]
    simpa using first

theorem statusLine_unbroken (head : Head) : (13 : UInt8) ∉ head.statusLine := by
  intro member
  rcases List.mem_append.mp member with http | version
  · exact absurd http (by decide)
  · exact absurd (List.all_eq_true.mp head.unbroken 13 version) (by decide)

theorem within {all : Str} {start : Nat} {line : FieldLine} {later : List FieldLine}
    (rest : all.drop start = line.content ++ fieldsText later) : start < all.length := by
  apply Nat.lt_of_not_le
  intro beyond
  rw [List.drop_eq_nil_of_le beyond] at rest
  have ends := (List.append_eq_nil_iff.mp rest.symm).2
  cases later <;> contradiction

/-- The value of the field that a head goes on with: its content up to the line break,
without the white space in front. -/
theorem valueAt_content {allHeaders : Str} {start : Nat} (line : FieldLine) (later : List FieldLine)
    (rest : allHeaders.drop start = line.content ++ fieldsText later) :
    valueAt allHeaders start = some (if line.value = [] then [] else line.value ++ line.after) := by
  unfold valueAt
  simp only [Nat.not_lt.mpr (Nat.le_of_lt (within rest)),if_false,rest,find_break later line.content_unbroken,List.take_left]
  exact congrArg some (dropWhile_content line)

/-- A field of another spelling is not found, and of the first one that is found only
the white space in front of the value is dropped. -/
theorem headerValue_text (head : ResponseHead) {name : Str} (tokens : name.all isToken = true) :
    headerValue head.text name =
      some (match head.fields.find? (fun line => line.name = name) with
        | none => []
        | some line => if line.value = [] then [] else line.value ++ line.after) := by
  have needle : [13,10] ++ name ++ [58] = 13::10::(name ++ [58]) := by simp
  have skipped : find (13::10::(name ++ [58])) head.text =
      (find (13::10::(name ++ [58])) (fieldsText head.fields)).map (· + head.statusLine.length) :=
    find_skip _ _ (statusLine_unbroken head.toHead)
  unfold headerValue
  simp only [needle,skipped]
  cases found : head.fields.find? (fun line => line.name = name) with
  | none =>
    have leading : (name ++ [58]).isPrefixOf head.text = false := head.toHead.no_leading tokens
    rw [find_absent tokens found]
    simp only [Option.map_none,leading,Bool.false_eq_true,if_false]
  | some line =>
    obtain ⟨pos,later,place,content⟩ := find_present tokens found
    have start : pos + head.statusLine.length + (13::10::(name ++ [58])).length =
        head.statusLine.length + (pos + (name.length + 3)) := by
      simp only [List.length_cons,List.length_append,List.length_nil]
      omega
    have rest : head.text.drop (head.statusLine.length + (pos + (name.length + 3))) = line.content ++ fieldsText later :=
      Eq.trans (List.drop_length_add_append _) content
    have small := Nat.lt_trans (within rest) head.fits
    rw [place]
    simp only [Option.map_some,start,Nat.mod_eq_of_lt small]
    exact valueAt_content line later rest

/-! ### What the client reads -/

/-- A name in the form in which `net/http` writes it is never found. -/
theorem headerValue_canonical (head : ResponseHead)
    (canonical : ∀ line ∈ head.fields, canonicalMIMEHeaderKey line.name = line.name) :
    headerValue head.text protocolHeader = some [] := by
  have rewritten : canonicalMIMEHeaderKey protocolHeader ≠ protocolHeader := by decide
  rw [headerValue_text head protocolHeader_token]
  have absent : head.fields.find? (fun line => line.name = protocolHeader) = none := by
    apply List.find?_eq_none.mpr
    intro line member same
    have name : line.name = protocolHeader := by simpa using same
    have unchanged := canonical line member
    rw [name] at unchanged
    exact rewritten unchanged
  rw [absent]

theorem stamped_spelled {head : ResponseHead} {v : Str} (stamped : Stamped head v) {line : FieldLine}
    (found : spelled head = some line) : line.value = v := by
  apply stamped.2 line (List.mem_of_find?_eq_some found)
  have name := List.find?_some found
  rw [of_decide_eq_true name]
  exact sameName_refl protocolHeader

/-- What the client reads of a head that says `v`. -/
theorem headerValue_stamped {head : ResponseHead} {v : Str} (stamped : Stamped head v) :
    headerValue head.text protocolHeader = some v ↔ v = [] ∨ ∃ line, spelled head = some line ∧ line.after = [] := by
  rw [headerValue_text head protocolHeader_token]
  change some (match spelled head with
    | none => []
    | some line => if line.value = [] then [] else line.value ++ line.after) = some v ↔ _
  cases found : spelled head with
  | none =>
    constructor
    · exact fun read => .inl (Option.some.inj read).symm
    · intro empty
      rcases empty with rfl | ⟨line,present,-⟩
      · rfl
      · contradiction
  | some line =>
    have value := stamped_spelled stamped found
    simp only [Option.some.injEq,exists_eq_left',value]
    by_cases empty : v = []
    · simp [empty]
    · simp [empty]

theorem headerValue_unstamped {head : ResponseHead} (absent : Unstamped head) :
    headerValue head.text protocolHeader = some [] := by
  have none : head.fields.find? (fun line => line.name = protocolHeader) = none := by
    apply List.find?_eq_none.mpr
    intro line member same
    have other := absent line member
    rw [of_decide_eq_true same,sameName_refl] at other
    contradiction
  rw [headerValue_text head protocolHeader_token,none]

/-- The client sees the version of a head exactly if it is spelled as it is searched. -/
theorem seesVersion_iff (head : ResponseHead) : SeesVersion head ↔ SpelledAsSearched head := by
  constructor
  · intro sees v stamped
    exact (headerValue_stamped stamped).mp (sees.stamped v stamped)
  · intro spelled
    have read : ∀ v, Stamped head v → headerValue head.text protocolHeader = some v :=
      fun v stamped => (headerValue_stamped stamped).mpr (spelled v stamped)
    constructor
    case stamped => exact read
    case checked =>
      intro v stamped r transportError failLabel
      rw [serverProtocol,read v stamped]
      rfl
    case absent => exact headerValue_unstamped

/-- `X-Npsync-Protocol: 1`, as the server writes it. -/
def serverHead : ResponseHead where
  version := lit "1.1 200 OK"
  fields := [⟨canonicalMIMEHeaderKey protocolHeader,[32],lit "1",[],by decide,by decide,by decide,by decide⟩]
  unbroken := by decide
  fits := by decide

theorem canonical_stamp_unseen : ¬SeesVersion serverHead := by
  intro sees
  have read := sees.stamped (lit "1") (by
    constructor
    · exact ⟨_,List.mem_singleton_self _,by decide⟩
    · intro line member _
      rw [List.mem_singleton.mp member])
  revert read
  decide

end NPSync.Engine
