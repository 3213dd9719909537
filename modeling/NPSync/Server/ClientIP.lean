import NPSync.Library.HttpHeader
import NPSync.Library.NetAddr
import NPSync.Text

/-! `clientIP` of `api/ratelimit.go`: the address that names a rate-limit bucket.
A proxy may append its peer to the last `X-Forwarded-For` line or add a line of its
own; `Header.Get` reads the first line only. -/
namespace NPSync.Server
open Library Library.NetAddr Library.HttpHeader

/-- What `clientIP` reads of a request. -/
structure HttpRequest where
  remoteAddr : Str
  header : Header

def remoteHost (remoteAddr : Str) : Str :=
  match splitHost (trimSpace remoteAddr) with
  | none => trim [91,93] (trimSpace remoteAddr)
  | some host => trim [91,93] host

def parseIP (ip : Str) : Option Addr :=
  let ip := trimSpace ip
  let ip := (splitHost ip).getD ip
  parseAddr (trim [91,93] ip)

def ipTrusted (ip : Str) (trusted : List Prefix) : Bool :=
  match parseIP ip with
  | none => false
  | some addr => trusted.any fun p => p.contains addr

/-- The loop of `clientIP`, over the parts from the last to the first. -/
def hopLoop (trusted : List Prefix) (remote : Str) : List Str → Str
  | [] => remote
  | part::rest =>
    let cand := trimSpace part
    if cand = [] then hopLoop trusted remote rest
    else if !ipTrusted cand trusted then cand
    else hopLoop trusted remote rest

def clientIP (r : HttpRequest) (trusted : List Prefix) : Str :=
  let remote := remoteHost r.remoteAddr
  if trusted.length = 0 || !ipTrusted remote trusted then remote
  else
    let xff := get r.header (lit "X-Forwarded-For")
    if xff = [] then remote else hopLoop trusted remote (split xff 44).reverse

/-- `toLower` is `strings.ToLower`. -/
def limiterKey (toLower : Str → Str) (r : HttpRequest) (email : Str) (trusted : List Prefix) : Str :=
  clientIP r trusted ++ lit "|" ++ toLower (trimSpace email)

/-! ### Hops -/

/-- The addresses of a comma-separated list, from the left. -/
def hops (line : Str) : List Str := ((split line 44).map trimSpace).filter (· ≠ [])

def forwardedLines (r : HttpRequest) : List Str := values r.header (lit "X-Forwarded-For")

/-- The hops of all `X-Forwarded-For` lines in order, which is how HTTP combines them. -/
def forwardedHops (r : HttpRequest) : List Str := (forwardedLines r).flatMap hops

def lastUntrusted (trusted : List Prefix) (hops : List Str) : Option Str :=
  hops.reverse.find? fun hop => !ipTrusted hop trusted

theorem lastUntrusted_append (trusted : List Prefix) (front back : List Str) :
    lastUntrusted trusted (front ++ back) = (lastUntrusted trusted back).or (lastUntrusted trusted front) := by
  rw [lastUntrusted,List.reverse_append,List.find?_append]
  rfl

theorem ipTrusted_of_lastUntrusted {trusted : List Prefix} {hops : List Str} {hop : Str}
    (found : lastUntrusted trusted hops = some hop) : ipTrusted hop trusted = false := by
  have untrusted := List.find?_some found
  simpa using untrusted

theorem ipTrusted_nil (ip : Str) : ipTrusted ip [] = false := by
  unfold ipTrusted
  cases parseIP ip with
  | none => rfl
  | some addr => rfl

theorem hopLoop_eq (trusted : List Prefix) (remote : Str) (parts : List Str) : hopLoop trusted remote parts =
    (((parts.map trimSpace).filter (· ≠ [])).find? fun hop => !ipTrusted hop trusted).getD remote := by
  induction parts with
  | nil => rfl
  | cons part rest ih =>
    rw [hopLoop,List.map_cons]
    by_cases blank : trimSpace part = []
    · rw [if_pos blank,ih,List.filter_cons_of_neg (by simp [blank])]
    · rw [if_neg blank,List.filter_cons_of_pos (by simp [blank])]
      cases known : ipTrusted (trimSpace part) trusted with
      | true =>
        rw [if_neg (by simp),ih,List.find?_cons_of_neg (by simp [known])]
      | false =>
        rw [if_pos (by simp),List.find?_cons_of_pos (by simp [known])]
        rfl

theorem hops_nil : hops [] = [] := by decide

/-- With a trusted peer the first line alone decides. -/
theorem clientIP_trusted {r : HttpRequest} {trusted : List Prefix} (peer : ipTrusted (remoteHost r.remoteAddr) trusted = true) :
    clientIP r trusted = (lastUntrusted trusted (hops ((forwardedLines r).headD []))).getD (remoteHost r.remoteAddr) := by
  have nonempty : trusted.length ≠ 0 := by
    intro none
    rw [List.length_eq_zero_iff.mp none,ipTrusted_nil] at peer
    exact Bool.false_ne_true peer
  have loop : ∀ xff : Str, hopLoop trusted (remoteHost r.remoteAddr) (split xff 44).reverse =
      (lastUntrusted trusted (hops xff)).getD (remoteHost r.remoteAddr) := by
    intro xff
    rw [hopLoop_eq,lastUntrusted,hops,List.map_reverse,List.filter_reverse]
  unfold clientIP
  simp only [peer,nonempty,decide_false,Bool.not_true,Bool.or_self,Bool.false_eq_true,if_false]
  split
  · rename_i none
    change (forwardedLines r).headD [] = [] at none
    rw [none,hops_nil]
    rfl
  · exact loop _

theorem clientIP_untrusted {r : HttpRequest} {trusted : List Prefix} (peer : ipTrusted (remoteHost r.remoteAddr) trusted = false) :
    clientIP r trusted = remoteHost r.remoteAddr := by
  unfold clientIP
  simp [peer]

theorem forwardedHops_split (r : HttpRequest) :
    forwardedHops r = hops ((forwardedLines r).headD []) ++ ((forwardedLines r).drop 1).flatMap hops := by
  unfold forwardedHops
  cases forwardedLines r with
  | nil => rw [List.headD_nil,hops_nil]; rfl
  | cons first rest => rfl

/-- The headers do not matter behind an untrusted peer; behind a trusted one the
address is the rightmost untrusted hop of all lines. -/
structure FixedBucket (trusted : List Prefix) (r : HttpRequest) : Prop where
  ignored : ipTrusted (remoteHost r.remoteAddr) trusted = false → ∀ header : Header,
    clientIP ⟨r.remoteAddr,header⟩ trusted = remoteHost r.remoteAddr
  rightmost : ipTrusted (remoteHost r.remoteAddr) trusted = true →
    clientIP r trusted = (lastUntrusted trusted (forwardedHops r)).getD (remoteHost r.remoteAddr)

/-- Behind a trusted peer the lines after the first have no untrusted hop, or their
rightmost one is spelled as that of the first line. -/
def FirstLineDecides (trusted : List Prefix) (r : HttpRequest) : Prop :=
  ipTrusted (remoteHost r.remoteAddr) trusted = true →
    lastUntrusted trusted (((forwardedLines r).drop 1).flatMap hops) = none ∨
      lastUntrusted trusted (((forwardedLines r).drop 1).flatMap hops) =
        lastUntrusted trusted (hops ((forwardedLines r).headD []))

/-- Hops that are put in front do not change the address of a request that has an
untrusted one. -/
theorem FixedBucket.prepended {trusted : List Prefix} {r spoofed : HttpRequest} (fixed : FixedBucket trusted r)
    (also : FixedBucket trusted spoofed) (peer : spoofed.remoteAddr = r.remoteAddr) {front : List Str}
    (hops : forwardedHops spoofed = front ++ forwardedHops r) {hop : Str}
    (appended : lastUntrusted trusted (forwardedHops r) = some hop) : clientIP spoofed trusted = clientIP r trusted := by
  cases known : ipTrusted (remoteHost r.remoteAddr) trusted with
  | false => rw [clientIP_untrusted known,clientIP_untrusted (peer ▸ known),peer]
  | true => rw [fixed.rightmost known,also.rightmost (peer ▸ known),hops,lastUntrusted_append,appended,Option.some_or,peer]

/-- The bucket is the rightmost untrusted hop exactly if the first line decides, and
then nothing that is put in front of the hops changes it. -/
theorem clientIP_fixed_iff (trusted : List Prefix) (r : HttpRequest) :
    (FixedBucket trusted r ↔ FirstLineDecides trusted r) ∧
      ∀ spoofed : HttpRequest, spoofed.remoteAddr = r.remoteAddr → FirstLineDecides trusted r → FirstLineDecides trusted spoofed →
        ∀ front hop, forwardedHops spoofed = front ++ forwardedHops r → lastUntrusted trusted (forwardedHops r) = some hop →
          clientIP spoofed trusted = clientIP r trusted := by
  have exact : ∀ r, FixedBucket trusted r ↔ FirstLineDecides trusted r := by
    intro r
    have reads : ipTrusted (remoteHost r.remoteAddr) trusted = true →
        (clientIP r trusted = (lastUntrusted trusted (forwardedHops r)).getD (remoteHost r.remoteAddr) ↔
          lastUntrusted trusted (((forwardedLines r).drop 1).flatMap hops) = none ∨
            lastUntrusted trusted (((forwardedLines r).drop 1).flatMap hops) =
              lastUntrusted trusted (hops ((forwardedLines r).headD []))) := by
      intro peer
      rw [clientIP_trusted peer,forwardedHops_split,lastUntrusted_append]
      cases later : lastUntrusted trusted (((forwardedLines r).drop 1).flatMap hops) with
      | none => simp
      | some hop =>
        have foreign : hop ≠ remoteHost r.remoteAddr := by
          rintro rfl
          rw [ipTrusted_of_lastUntrusted later] at peer
          contradiction
        cases first : lastUntrusted trusted (hops ((forwardedLines r).headD [])) with
        | none => simp [Ne.symm foreign]
        | some other => simp [eq_comm]
    constructor
    · exact fun fixed peer => (reads peer).mp (fixed.rightmost peer)
    · intro decides
      exact ⟨fun peer header => clientIP_untrusted peer,fun peer => (reads peer).mpr (decides peer)⟩
  refine ⟨exact r,fun spoofed peer first second front hop hops appended => ?_⟩
  exact ((exact r).mpr first).prepended ((exact spoofed).mpr second) peer hops appended

/-- The proxy 10.1.2.3 adds a line of its own after the client's. -/
theorem own_line_chosen : ¬FixedBucket [⟨false,0x0a000000,8,by decide⟩]
    ⟨lit "10.1.2.3:8080",[(lit "X-Forwarded-For",lit "1.2.3.4"),(lit "X-Forwarded-For",lit "203.0.113.50")]⟩ := by
  intro fixed
  have peer : ipTrusted (remoteHost (lit "10.1.2.3:8080")) [⟨false,0x0a000000,8,by decide⟩] = true := by decide
  have address := fixed.rightmost peer
  revert address
  decide

end NPSync.Server
