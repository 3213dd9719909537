import NPSync.Engine.Upload
import NPSync.VersionVector

/-! `ApiClient::request`: the body of a reply, the refresh of the access token on
401, and the fields that throw when they are read. The replies of the network
are a sequence; `none` stands for a request that nothing comes back to. -/
namespace NPSync
namespace Json

/-- A `value` with a string default does not throw. -/
def readsStr (json : Json) (key : Str) : Bool :=
  match json with
  | .obj fields => match field key fields with
    | none | some (.str _) => true
    | _ => false
  | _ => false

/-- A `value` with an `int64_t` default does not throw. -/
def readsInt (json : Json) (key : Str) : Bool :=
  match json with
  | .obj fields => match field key fields with
    | none | some (.num _) => true
    | _ => false
  | _ => false

theorem valueStr_isSome (json : Json) (key default : Str) : (json.valueStr key default).isSome = json.readsStr key := by
  unfold valueStr value readsStr
  cases json with
  | obj fields =>
    cases found : field key fields with
    | none => simp [found]
    | some item => cases item <;> simp [found]
  | _ => rfl

theorem valueInt_isSome (json : Json) (key : Str) (default : Int) : (json.valueInt key default).isSome = json.readsInt key := by
  unfold valueInt value readsInt
  cases json with
  | obj fields =>
    cases found : field key fields with
    | none => simp [found]
    | some item => cases item <;> simp [found]
  | _ => rfl

theorem valueStr_reads {json : Json} {key : Str} (reads : json.readsStr key = true) (default : Str) :
    ∃ text, json.valueStr key default = some text :=
  Option.isSome_iff_exists.mp ((valueStr_isSome json key default).trans reads)

end Json

namespace Engine
open Library

structure HttpReply where
  status : Nat
  rawBody : Bytes

abbrev Replies := Nat → Option HttpReply

structure ApiClient where
  baseUrl : Str
  accessToken : Str
  refreshToken : Str

/-- `std::stoi`; `none` throws. -/
def stoi (text : Str) : Option Int :=
  let text := VersionVector.skipWs text
  let signed := text.head? = some 45 ∨ text.head? = some 43
  let digits := (if signed then text.tail else text).takeWhile VersionVector.isdigit
  let n : Int := digits.foldl (fun n c => n * 10 + ((c.toNat : Int) - 48)) 0
  let n := if text.head? = some 45 then -n else n
  if digits ≠ [] ∧ -2^31 ≤ n ∧ n < 2^31 then some n else none

inductive ParsedUrl where
  | threw
  | rejected
  | accepted
  deriving DecidableEq

def parseUrl (url : Str) : ParsedUrl :=
  let u := (url.reverse.dropWhile (· = 47)).reverse
  let host (hostPort : Str) : ParsedUrl := if hostPort = [] then .rejected else .accepted
  let split (u : Str) : ParsedUrl :=
    let hostPort := u.takeWhile (· ≠ 47)
    let port := (hostPort.reverse.takeWhile (· ≠ 58)).reverse
    if hostPort.contains 58 then
      if (stoi port).isSome then host (hostPort.take (hostPort.length - port.length - 1)) else .threw
    else host hostPort
  if (lit "https://").isPrefixOf u then split (u.drop 8)
  else if (lit "http://").isPrefixOf u then split (u.drop 7)
  else .rejected

/-- The JSON body of a request. -/
def ApiCall.body : ApiCall → Option Json
  | .createFile payload | .updateFile _ payload => some payload.toJson
  | .deleteFile _ | .getFile _ => none

def refreshBody (client : ApiClient) : Json := .obj [(lit "refresh_token",.str client.refreshToken)]

/-- A client and the number of requests it has sent. -/
structure Link where
  client : ApiClient
  sent : Nat

section
variable (plat : Platform) (replies : Replies)

/-- Whatever is not JSON leaves the body null. -/
def responseOf : Option HttpReply → ApiResponse
  | none => ⟨false,0,.null⟩
  | some reply => ⟨true,reply.status,if reply.rawBody = [] then .null else (plat.parse reply.rawBody).getD .null⟩

/-- One request without the refresh; `none` is an exception. -/
def transmit (link : Link) (body : Option Json) : Option (ApiResponse × Link) :=
  match parseUrl link.client.baseUrl with
  | .threw => none
  | .rejected => some (responseOf plat none,link)
  | .accepted =>
    if body.all (fun json => json.dump.isSome) then
      some (responseOf plat (replies link.sent),{link with sent := link.sent + 1})
    else none

def refreshAccessToken (link : Link) : Option (Bool × Link) := do
  let (r,link) ← transmit plat replies link (some (refreshBody link.client))
  if r.status ≠ 200 then return (false,link)
  let access ← r.body.valueStr (lit "access_token") []
  let refresh ← r.body.valueStr (lit "refresh_token") []
  if access = [] ∨ refresh = [] then return (false,link)
  return (true,{link with client := ⟨link.client.baseUrl,access,refresh⟩})

def Link.request (link : Link) (body : Option Json) : Option (ApiResponse × Link) := do
  let (r,next) ← transmit plat replies link body
  if r.status = 401 ∧ next.client.refreshToken ≠ [] then
    let (refreshed,next) ← refreshAccessToken plat replies next
    if refreshed then transmit plat replies next body else return (r,next)
  else return (r,next)

/-- What the program ends with over these replies, and whether a request of it
got no reply; `none` when an exception leaves it. -/
def exchanged : Exchange → Link → Bool → Option ((Outcome × Local) × Bool)
  | .done out,_,lost => if out.1 = .threw then none else some (out,lost)
  | .call op next,link,lost => do
    let (r,link) ← Link.request plat replies link op.body
    exchanged (next r) link (lost || !r.transportOk)

/-! ### When a request throws -/

/-- The address parses, and a body that goes out can be written. -/
def Sendable (link : Link) (body : Option Json) : Prop :=
  parseUrl link.client.baseUrl ≠ .threw ∧
    (parseUrl link.client.baseUrl = .accepted → ∀ json ∈ body, json.valid = true)

/-- The answer to a request that is sent once. -/
def delivered (link : Link) : ApiResponse × Link :=
  if parseUrl link.client.baseUrl = .accepted then
    (responseOf plat (replies link.sent),{link with sent := link.sent + 1})
  else (responseOf plat none,link)

/-- After a 401 the tokens of a successful refresh are strings. -/
def Refreshes (link : Link) : Prop :=
  let first := delivered plat replies link
  first.1.status = 401 → link.client.refreshToken ≠ [] →
    Json.validUtf8 link.client.refreshToken = true ∧
    let second := (delivered plat replies first.2).1
    (second.status = 200 → second.body.readsStr (lit "access_token") = true ∧
      second.body.readsStr (lit "refresh_token") = true)

def newTokens (link : Link) (r : ApiResponse) : Option ApiClient := do
  if r.status ≠ 200 then none
  else
    let access ← r.body.valueStr (lit "access_token") []
    let refresh ← r.body.valueStr (lit "refresh_token") []
    if access = [] ∨ refresh = [] then none else some ⟨link.client.baseUrl,access,refresh⟩

/-- The answer to a request, which may be sent again with new tokens. -/
def answer (link : Link) : ApiResponse × Link :=
  let first := delivered plat replies link
  if first.1.status = 401 ∧ link.client.refreshToken ≠ [] then
    let second := delivered plat replies first.2
    match newTokens link second.1 with
    | some client => delivered plat replies {second.2 with client := client}
    | none => (first.1,second.2)
  else first

@[simp] theorem dump_isSome (json : Json) : json.dump.isSome = json.valid := by
  unfold Json.dump
  split <;> simp [*]

theorem transmit_some {link : Link} {body : Option Json} (sendable : Sendable link body) :
    transmit plat replies link body = some (delivered plat replies link) := by
  obtain ⟨address,written⟩ := sendable
  unfold transmit delivered
  cases parsed : parseUrl link.client.baseUrl with
  | threw => exact absurd parsed address
  | rejected => rfl
  | accepted =>
    have all : body.all (fun json => json.dump.isSome) = true := by
      cases body with
      | none => rfl
      | some json => simpa using written parsed json rfl
    dsimp only
    rw [if_pos all,if_pos rfl]

theorem transmit_none {link : Link} {body : Option Json} (unsendable : ¬Sendable link body) :
    transmit plat replies link body = none := by
  unfold transmit
  cases parsed : parseUrl link.client.baseUrl with
  | threw => rfl
  | rejected => exact absurd ⟨by simp [parsed],by simp [parsed]⟩ unsendable
  | accepted =>
    cases body with
    | none => exact absurd ⟨by simp [parsed],by simp⟩ unsendable
    | some json =>
      cases written : json.valid with
      | true => exact absurd ⟨by simp [parsed],by simp [written]⟩ unsendable
      | false => simp [written]

theorem delivered_client (link : Link) : (delivered plat replies link).2.client = link.client := by
  unfold delivered
  split <;> rfl

/-- Only a client with an accepted address gets a status. -/
theorem delivered_status {link : Link} {status : Int} (got : (delivered plat replies link).1.status = status)
    (positive : status ≠ 0) : parseUrl link.client.baseUrl = .accepted := by
  unfold delivered at got
  split at got
  · assumption
  · exact absurd got.symm positive

theorem Sendable.of_client {link next : Link} {body : Option Json} (sendable : Sendable link body)
    (same : next.client.baseUrl = link.client.baseUrl) : Sendable next body := by
  unfold Sendable
  rw [same]
  exact sendable

theorem refreshBody_valid (client : ApiClient) : (refreshBody client).valid = Json.validUtf8 client.refreshToken := by
  have key : Json.validUtf8 (lit "refresh_token") = true := Json.validUtf8_of_ascii _ (by decide +kernel)
  simp only [refreshBody,Json.valid,Json.validFields,key,Bool.true_and,Bool.and_true]

/-- A refresh whose body is written and whose tokens are strings. -/
theorem refreshAccessToken_some {link : Link} (accepted : parseUrl link.client.baseUrl = .accepted)
    (written : Json.validUtf8 link.client.refreshToken = true)
    (tokens : (delivered plat replies link).1.status = 200 →
      (delivered plat replies link).1.body.readsStr (lit "access_token") = true ∧
      (delivered plat replies link).1.body.readsStr (lit "refresh_token") = true) :
    refreshAccessToken plat replies link =
      match newTokens link (delivered plat replies link).1 with
      | some client => some (true,{(delivered plat replies link).2 with client := client})
      | none => some (false,(delivered plat replies link).2) := by
  have sendable : Sendable link (some (refreshBody link.client)) := by
    refine ⟨by simp [accepted],fun _ json member => ?_⟩
    rw [← Option.mem_some_iff.mp member,refreshBody_valid]
    exact written
  have same := delivered_client plat replies link
  unfold refreshAccessToken newTokens
  rw [transmit_some plat replies sendable]
  generalize delivered plat replies link = got at tokens same
  obtain ⟨r,next⟩ := got
  dsimp only at tokens same ⊢
  simp only [Option.bind_eq_bind,Option.bind_some]
  by_cases ok : r.status = 200
  · obtain ⟨first,second⟩ := tokens ok
    obtain ⟨access,a⟩ := Json.valueStr_reads first []
    obtain ⟨refresh,b⟩ := Json.valueStr_reads second []
    simp only [ok,a,b,ne_eq,not_true_eq_false,if_false,Option.bind_some,same]
    split <;> simp_all
  · simp [ok]

theorem refreshAccessToken_none {link : Link}
    (broken : ¬(Json.validUtf8 link.client.refreshToken = true ∧ ((delivered plat replies link).1.status = 200 →
      (delivered plat replies link).1.body.readsStr (lit "access_token") = true ∧
      (delivered plat replies link).1.body.readsStr (lit "refresh_token") = true)))
    (accepted : parseUrl link.client.baseUrl = .accepted) : refreshAccessToken plat replies link = none := by
  by_cases sendable : Sendable link (some (refreshBody link.client))
  · have written := sendable.2 accepted _ rfl
    rw [refreshBody_valid] at written
    unfold refreshAccessToken
    rw [transmit_some plat replies sendable]
    generalize delivered plat replies link = got at broken
    obtain ⟨r,next⟩ := got
    simp only [written,true_and,Classical.not_imp,not_and_or] at broken
    obtain ⟨ok,unread⟩ := broken
    simp only [Option.bind_eq_bind,Option.bind_some,ok,ne_eq,not_true_eq_false,if_false]
    rcases unread with unread | unread
    · have gone : r.body.valueStr (lit "access_token") [] = none := by
        rw [← Option.not_isSome_iff_eq_none,Json.valueStr_isSome]
        exact unread
      simp [gone]
    · have gone : r.body.valueStr (lit "refresh_token") [] = none := by
        rw [← Option.not_isSome_iff_eq_none,Json.valueStr_isSome]
        exact unread
      cases r.body.valueStr (lit "access_token") [] <;> simp [gone]
  · unfold refreshAccessToken
    rw [transmit_none plat replies sendable]
    rfl

theorem newTokens_baseUrl {link : Link} {r : ApiResponse} {client : ApiClient} (got : newTokens link r = some client) :
    client.baseUrl = link.client.baseUrl := by
  unfold newTokens at got
  split at got
  · contradiction
  · simp only [Option.bind_eq_bind,Option.bind_eq_some_iff] at got
    obtain ⟨access,-,refresh,-,got⟩ := got
    split at got
    · contradiction
    · rw [← Option.some.inj got]

theorem newTokens_client {link next : Link} (same : next.client = link.client) (r : ApiResponse) :
    newTokens next r = newTokens link r := by
  simp only [newTokens,same]

theorem request_some {link : Link} {body : Option Json} (sendable : Sendable link body)
    (refreshes : Refreshes plat replies link) : Link.request plat replies link body = some (answer plat replies link) := by
  have client := delivered_client plat replies link
  unfold Link.request answer
  rw [transmit_some plat replies sendable]
  simp only [Option.bind_eq_bind,Option.bind_some,client]
  split
  · rename_i again
    have accepted := delivered_status plat replies again.1 (by decide)
    obtain ⟨written,tokens⟩ := refreshes again.1 again.2
    rw [refreshAccessToken_some plat replies (by rw [client]; exact accepted) (by rw [client]; exact written) tokens,
      newTokens_client client]
    cases got : newTokens link (delivered plat replies (delivered plat replies link).2).1 with
    | none => rfl
    | some fresh => exact transmit_some plat replies (sendable.of_client (newTokens_baseUrl got))
  · rfl

theorem request_none {link : Link} {body : Option Json}
    (broken : ¬(Sendable link body ∧ Refreshes plat replies link)) : Link.request plat replies link body = none := by
  have client := delivered_client plat replies link
  unfold Link.request
  by_cases sendable : Sendable link body
  · have unread : ¬Refreshes plat replies link := fun refreshes => broken ⟨sendable,refreshes⟩
    unfold Refreshes at unread
    simp only [Classical.not_imp] at unread
    obtain ⟨refused,holds,unread⟩ := unread
    have accepted := delivered_status plat replies refused (by decide)
    rw [transmit_some plat replies sendable]
    simp only [Option.bind_eq_bind,Option.bind_some,client,if_pos (And.intro refused holds)]
    rw [refreshAccessToken_none plat replies (by rw [client]; exact unread) (by rw [client]; exact accepted)]
    rfl
  · rw [transmit_none plat replies sendable]
    rfl

/-! ### When an exchange throws -/

/-- No exception leaves the exchange, and it reports the device offline only
after a request without a reply. -/
def Survives (exchange : Exchange) (link : Link) (lost : Bool) : Prop :=
  ∃ out, exchanged plat replies exchange link lost = some out ∧ (out.1.1 = .failed (lit "offline") → out.2 = true)

theorem survives_done (out : Outcome × Local) (link : Link) (lost : Bool) :
    Survives plat replies (.done out) link lost ↔ out.1 ≠ .threw ∧ (out.1 = .failed (lit "offline") → lost = true) := by
  unfold Survives exchanged
  split <;> simp_all

/-- A request of the exchange can be sent, its refresh can be read, and the rest survives its answer. -/
theorem survives_call (op : ApiCall) (next : ApiResponse → Exchange) (link : Link) (lost : Bool) :
    Survives plat replies (.call op next) link lost ↔ (Sendable link op.body ∧ Refreshes plat replies link) ∧
      Survives plat replies (next (answer plat replies link).1) (answer plat replies link).2
        (lost || !(answer plat replies link).1.transportOk) := by
  by_cases sent : Sendable link op.body ∧ Refreshes plat replies link
  · simp only [Survives,exchanged,request_some plat replies sent.1 sent.2,Option.bind_eq_bind,Option.bind_some,sent,true_and]
  · simp [Survives,exchanged,request_none plat replies sent,sent]

theorem exchanged_bind (settle : Outcome × Local → Outcome × Local) (keeps : ∀ out, (settle out).1 = out.1)
    (exchange : Exchange) (link : Link) (lost : Bool) :
    exchanged plat replies (exchange.bind fun out => .done (settle out)) link lost =
      (exchanged plat replies exchange link lost).map fun out => (settle out.1,out.2) := by
  induction exchange generalizing link lost with
  | done out =>
    simp only [Program.bind,exchanged,keeps]
    split <;> rfl
  | call op next ih =>
    simp only [Program.bind,exchanged,Option.bind_eq_bind]
    cases Link.request plat replies link op.body with
    | none => rfl
    | some got => exact ih got.1 got.2 _

theorem exchanged_ends {good : Outcome × Local → Prop} {exchange : Exchange} (ends : exchange.Ends good) {link : Link}
    {lost : Bool} {out : (Outcome × Local) × Bool} (ended : exchanged plat replies exchange link lost = some out) :
    out.1.1 ≠ .threw ∧ good out.1 := by
  induction exchange generalizing link lost with
  | done value =>
    unfold exchanged at ended
    split at ended
    · contradiction
    · rename_i quiet
      rw [← Option.some.inj ended]
      exact ⟨quiet,ends⟩
  | call op next ih =>
    simp only [exchanged,Option.bind_eq_bind,Option.bind_eq_some_iff] at ended
    obtain ⟨got,-,ended⟩ := ended
    exact ih got.1 (ends got.1) ended

end
end Engine
end NPSync
