import NPSync.Engine.Payload
import NPSync.Server.Handlers
import NPSync.KnownAnswers

/-! The upload on the wire: Go's `encoding/json` filling a `fileJSON` from the
payload of `buildFilePayload`, with `decodeJSON`'s limits. `null` leaves a field
as it is, field names match without regard to case, and a `time.Time` is filled
only from a quoted RFC 3339 text. -/
namespace NPSync.Wire
open Library Engine
open Server (FileJSON)

def digits (s : Str) : Option Nat :=
  if s ≠ [] ∧ s.all VersionVector.isdigit then some (s.foldl (fun n c => n * 10 + (c.toNat - 48)) 0) else none

def leap (year : Nat) : Bool := year % 4 = 0 && (year % 100 ≠ 0 || year % 400 = 0)

def daysIn (year month : Nat) : Nat :=
  if month = 2 then if leap year then 29 else 28
  else if month = 4 || month = 6 || month = 9 || month = 11 then 30
  else 31

/-- Days from the first day of year 1. -/
def dayNumber (year month day : Nat) : Int :=
  (((List.range year).map (fun y => if leap y then 366 else 365)).sum +
    ((List.range (month - 1)).map (fun m => daysIn year (m + 1))).sum + (day - 1) : Nat) - 366

def skip (c : UInt8) : Str → Option Str
  | [] => none
  | d::s => if d = c then some s else none

def twoDigits (s : Str) : Option (Nat × Str) :=
  if s.length < 2 then none else (digits (s.take 2)).map fun n => (n,s.drop 2)

/-- An hour may have one digit only. -/
def hourDigits (s : Str) : Option (Nat × Str) :=
  if VersionVector.isdigit (s.getD 1 0) then twoDigits s else (digits (s.take 1)).map fun n => (n,s.drop 1)

/-- The fraction of a second behind a period or a comma, in nanoseconds, if there is
one, and what follows it. -/
def fraction (s : Str) : Option (Nat × Str) :=
  if (s.head? = some 46 ∨ s.head? = some 44) ∧ VersionVector.isdigit (s.getD 1 0) then do
    let nanos ← digits ((s.tail.takeWhile VersionVector.isdigit ++ List.replicate 9 48).take 9)
    some (nanos,s.tail.dropWhile VersionVector.isdigit)
  else some (0,s)

/-- The zone at the end of the text, in seconds east of UTC; 24 hours and 60 minutes
are let through. -/
def zoneOffset (s : Str) : Option Int :=
  if s = lit "Z" then some 0
  else do
    let sign ← s.head?
    let (hours,rest) ← twoDigits s.tail
    let (minutes,rest) ← (skip 58 rest).bind twoDigits
    if rest ≠ [] ∨ 24 < hours ∨ 60 < minutes then none
    else if sign = 43 then some (hours * 3600 + minutes * 60)
    else if sign = 45 then some (-(hours * 3600 + minutes * 60))
    else none

/-- RFC 3339 as `time.Time.UnmarshalJSON` reads it, in nanoseconds from the first day
of year 1, Go's zero time. -/
def rfc3339 (s : Str) : Option Int := do
  let year ← if s.length < 4 then none else digits (s.take 4)
  let (month,s) ← (skip 45 (s.drop 4)).bind twoDigits
  let (day,s) ← (skip 45 s).bind twoDigits
  let (hour,s) ← (skip 84 s).bind hourDigits
  let (minute,s) ← (skip 58 s).bind twoDigits
  let (second,s) ← (skip 58 s).bind twoDigits
  let (nanos,zone) ← fraction s
  let offset ← zoneOffset zone
  if month < 1 ∨ 12 < month ∨ day < 1 ∨ daysIn year month < day ∨ 23 < hour ∨ 59 < minute ∨ 59 < second then none
  else some ((dayNumber year month day * 86400 + hour * 3600 + minute * 60 + second - offset) * 10^9 + nanos)

def decodeTime (old : Int) : Json → Option Int
  | .null => some old
  | .str text => rfc3339 text
  | _ => none

example : decodeTime 7 (.str (lit "0001-01-01T00:00:00Z")) = some 0 := by decide +kernel

example : decodeTime 0 (.str (lit "0001-01-02T9:00:00,5+24:00")) = some (9 * 3600 * 10^9 + 5 * 10^8) := by decide +kernel

def decodeStr (old : Str) : Json → Option Str
  | .null => some old
  | .str text => some text
  | _ => none

def isInt64 (n : Int) : Bool := -2^63 ≤ n && n < 2^63

def decodeInt (old : Int) : Json → Option Int
  | .null => some old
  | .num n => if isInt64 n then some n else none
  | _ => none

def decodeBool (old : Bool) : Json → Option Bool
  | .null => some old
  | .bool b => some b
  | _ => none

def decodeEntries : List (Str × Json) → Server.Vector → Option Server.Vector
  | [],vector => some vector
  | (key,item)::rest,vector =>
    match decodeInt 0 item with
    | some n => decodeEntries rest (vector.upsert key n)
    | none => none

def decodeVector (old : Server.Vector) : Json → Option Server.Vector
  | .null => some .empty
  | .obj fields => decodeEntries fields old
  | _ => none

/-- One field of the object; an unknown name is an error. -/
def decodeField (req : FileJSON) (key : Str) (item : Json) : Option FileJSON :=
  let name := PathUtil.lower key
  if name = lit "file_id" then (decodeStr req.fileID item).map fun v => {req with fileID := v}
  else if name = lit "encrypted_metadata" then
    (decodeStr req.encryptedMetadata item).map fun v => {req with encryptedMetadata := v}
  else if name = lit "encrypted_content" then
    (decodeStr req.encryptedContent item).map fun v => {req with encryptedContent := v}
  else if name = lit "content_hash" then (decodeStr req.contentHash item).map fun v => {req with contentHash := v}
  else if name = lit "version" then (decodeInt req.version item).map fun v => {req with version := v}
  else if name = lit "base_version" then (decodeInt req.baseVersion item).map fun v => {req with baseVersion := v}
  else if name = lit "version_vector" then
    (decodeVector req.versionVector item).map fun v => {req with versionVector := v}
  else if name = lit "deleted" then (decodeBool req.deleted item).map fun v => {req with deleted := v}
  else if name = lit "size" then (decodeInt req.size item).map fun v => {req with size := v}
  else if name = lit "modified_at" then (decodeTime req.modifiedAt item).map fun v => {req with modifiedAt := v}
  else if name = lit "origin_device_id" then
    (decodeStr req.originDeviceID item).map fun v => {req with originDeviceID := v}
  else if name = lit "change_seq" then (decodeInt req.changeSeq item).map fun v => {req with changeSeq := v}
  else if name = lit "idempotency_key" then
    (decodeStr req.idempotencyKey item).map fun v => {req with idempotencyKey := v}
  else none

def decodeFields : List (Str × Json) → FileJSON → Option FileJSON
  | [],req => some req
  | (key,item)::rest,req =>
    match decodeField req key item with
    | some req => decodeFields rest req
    | none => none

def zeroFile : FileJSON := ⟨[],[],[],[],0,0,.empty,false,0,0,[],0,[]⟩

/-- `decodeJSON` into a `fileJSON`, of the body that the client dumps; `none` is
the 400 answer. -/
def decodeJSON (maxBytes : Int) (body : Json) : Option FileJSON :=
  match body.dump with
  | none => none
  | some text =>
    if maxBytes < text.length then none
    else match body with
      | .obj fields => decodeFields fields zeroFile
      | .null => some zeroFile
      | _ => none

/-- `GET` returns an envelope of the plaintext and one of the metadata. -/
def ReadsBack (plat : Platform) (dev : Device) (relPath : Str) (plaintext : Bytes) (ctx : Server.Context)
    (fileID : Str) (after : Server.State) : Prop :=
  ∃ body encContent encMeta metaStr,
    ((Server.handleGetFile ctx fileID).run (Server.exec false) after).1 = .record 200 body ∧
    Base64.base64UrlDecode body.encryptedContent = some encContent ∧
    Base64.base64UrlDecode body.encryptedMetadata = some encMeta ∧
    (metadataJson relPath).dump = some metaStr ∧
    Crypto.decrypt plat.prim dev.masterKey encContent (lit "file") = .plain plaintext ∧
    Crypto.decrypt plat.prim dev.masterKey encMeta (lit "metadata") = .plain metaStr

/-- The state has no answer stored for the request, and no other content under its hash. -/
def Clean (s : Server.State) (ctx : Server.Context) (req : FileJSON) : Prop :=
  s.mem.getIdempotentResponse ctx.accountID req.idempotencyKey = none ∧
    ∀ blob, s.blobs.get req.contentHash = some blob → blob = Server.mustDecode req.encryptedContent

/-- The payload is built and decoded, it validates, and once a create or an
update has committed it a download returns what was uploaded. -/
def Agreement (plat : Platform) (dev : Device) (db : LocalDb) (relPath : Str) (plaintext : Bytes)
    (baseVersion : Int) (vv : VersionVector) (rnd : Random) (cfg : Server.Config) : Prop :=
  ∃ p req, buildFilePayload plat dev db relPath plaintext baseVersion vv rnd = some p ∧
    decodeJSON (cfg.maxFileBytes * 2) p.toJson = some req ∧
    Server.validateIncomingFile plat.prim cfg req = none ∧
    ∀ (ctx : Server.Context) (s : Server.State) (handler : Server.Handler),
      handler = Server.handleCreateFile plat.prim cfg ctx req ∨
        handler = Server.handleUpdateFile plat.prim cfg ctx req.fileID req →
      Clean s ctx req → ∀ status body, (handler.run (Server.exec false) s).1 = .record status body →
      ReadsBack plat dev relPath plaintext ctx req.fileID (handler.run (Server.exec false) s).2

theorem decodeFields_none (fields : List (Str × Json)) (key : Str) (item : Json)
    (member : (key,item) ∈ fields) (fails : ∀ req, decodeField req key item = none) (req : FileJSON) :
    decodeFields fields req = none := by
  induction fields generalizing req with
  | nil => contradiction
  | cons first rest ih =>
    obtain ⟨name,value⟩ := first
    unfold decodeFields
    rcases List.mem_cons.mp member with same | inside
    · obtain ⟨rfl,rfl⟩ := Prod.mk.inj same
      rw [fails]
    · split
      · exact ih inside _
      · rfl

/-- An empty text is no time. -/
theorem decodeField_modified_at_empty (req : FileJSON) :
    decodeField req (lit "modified_at") (.str []) = none := by
  rfl

/-- The body of `buildFilePayload` carries an empty `modified_at`, so no limit lets it in. -/
theorem decodeJSON_payload (plat : Platform) (dev : Device) (db : LocalDb) (relPath : Str)
    (plaintext : Bytes) (baseVersion : Int) (vv : VersionVector) (rnd : Random) (p : Payload)
    (built : buildFilePayload plat dev db relPath plaintext baseVersion vv rnd = some p) (maxBytes : Int) :
    decodeJSON maxBytes p.toJson = none := by
  obtain ⟨_,_,_,_,-,-,-,-,rfl⟩ := buildFilePayload_parts _ _ _ _ _ _ _ _ _ built
  unfold decodeJSON
  split
  · rfl
  split
  · rfl
  · exact decodeFields_none _ (lit "modified_at") (.str []) (by simp)
      decodeField_modified_at_empty zeroFile

/-- No upload agrees with the server: the decoder rejects every payload. -/
theorem upload_never_agrees (plat : Platform) (dev : Device) (db : LocalDb) (relPath : Str)
    (plaintext : Bytes) (baseVersion : Int) (vv : VersionVector) (rnd : Random) (cfg : Server.Config) :
    ¬Agreement plat dev db relPath plaintext baseVersion vv rnd cfg := by
  rintro ⟨p,req,built,decoded,-⟩
  rw [decodeJSON_payload plat dev db relPath plaintext baseVersion vv rnd p built] at decoded
  contradiction

section
open KnownAnswers

private def device : Device := ⟨masterKey,lit "laptop",lit "Laptop",1000000,[]⟩

private def random : Random := ⟨nonceOf 1,nonceOf 2,uuidOf 17⟩

/-- A first upload of a five-byte file: the payload is built, and it is not accepted. -/
theorem first_upload_disagrees :
    (buildFilePayload platform device LocalDb.empty (lit "root:notes.txt") (lit "hello") 0 .empty random).isSome = true ∧
      ¬Agreement platform device LocalDb.empty (lit "root:notes.txt") (lit "hello") 0 .empty random
        ⟨1000000,1000000,10⟩ := by
  refine ⟨by decide +kernel,?_⟩
  rintro ⟨p,req,built,decoded,-⟩
  rw [decodeJSON_payload _ _ _ _ _ _ _ _ p built] at decoded
  exact Option.some_ne_none req decoded.symm

end
end NPSync.Wire
