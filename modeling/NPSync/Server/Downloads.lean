import NPSync.KnownAnswers
import NPSync.Server.Contents
import NPSync.Server.Vectors

/-! Live records describe the bytes under their key, so a download passes the
client's check. A content is known by its hash among all that were uploaded. -/
namespace NPSync.Server
open Library

/-- The contents that a request uploads. -/
def Request.contents : Request → List Bytes
  | .post _ req | .put _ _ req => [mustDecode req.encryptedContent]
  | .batch _ uploads _ => uploads.map (fun u => mustDecode u.encryptedContent)
  | _ => []

def uploaded (requests : List Request) : List Bytes := requests.flatMap Request.contents

/-- No two of the contents have one hash. -/
def HashedApart (prim : Primitives) (contents : List Bytes) : Prop :=
  ∀ a ∈ contents, ∀ b ∈ contents, Crypto.sha256Hex prim a = Crypto.sha256Hex prim b → a = b

instance (prim : Primitives) (contents : List Bytes) : Decidable (HashedApart prim contents) :=
  inferInstanceAs (Decidable (∀ a ∈ contents, ∀ b ∈ contents, _))

/-- What `validateIncomingFile` has checked of a live upload. -/
structure Described (prim : Primitives) (known : List Bytes) (blobKey contentHash : Str) (size : Int) : Prop where
  key : blobKey = contentHash
  content : ∃ content ∈ known, Crypto.sha256Hex prim content = contentHash ∧ size = content.length

theorem Described.mono {prim : Primitives} {known more : List Bytes} {blobKey contentHash : Str} {size : Int}
    (described : Described prim known blobKey contentHash size) (grows : ∀ content ∈ known, content ∈ more) :
    Described prim more blobKey contentHash size := by
  obtain ⟨content,member,hash,length⟩ := described.content
  exact ⟨described.key,content,grows content member,hash,length⟩

def RecordDescribed (prim : Primitives) (known : List Bytes) (f : FileRecord) : Prop :=
  f.deleted = false → Described prim known f.blobKey f.contentHash f.size

def VersionDescribed (prim : Primitives) (known : List Bytes) (v : VersionRecord) : Prop :=
  v.deleted = false → Described prim known v.blobKey v.contentHash v.size

/-- A record to be written is a described one, or a copy of a version that was read. -/
def RecordKept (prim : Primitives) (known : List Bytes) (log : List CallEvent) (rec : FileRecord) : Prop :=
  RecordDescribed prim known rec ∨ ∃ event ∈ log, ∃ v, readVersion event = some v ∧ rec.deleted = v.deleted ∧
    rec.blobKey = v.blobKey ∧ rec.contentHash = v.contentHash ∧ rec.size = v.size

def DescribedCall (prim : Primitives) (known : List Bytes) (log : List CallEvent) : Call → Prop
  | .putBlob key content => content ∈ known ∧ Crypto.sha256Hex prim content = key
  | .createFile rec => RecordKept prim known log rec
  | .updateFile rec _ => RecordKept prim known log rec
  | _ => True

section
variable (prim : Primitives) (cfg : Config)

/-- The record of a valid upload describes its content. -/
theorem recordFromRequest_described (ctx : Context) (req : FileJSON) {known : List Bytes}
    (member : mustDecode req.encryptedContent ∈ known) (valid : validateIncomingFile prim cfg req = none) :
    RecordDescribed prim known (recordFromRequest ctx req) := fun live =>
  ⟨rfl,mustDecode req.encryptedContent,member,(validateIncomingFile_valid prim cfg valid).hashed live,
    (validateIncomingFile_valid prim cfg valid).sized live⟩

theorem handle_described (request : Request) :
    (handle prim cfg request).Keeps (DescribedCall prim request.contents) [] := by
  have quiet : ∀ known call, call.quiet = true → ∀ log, DescribedCall prim known log call := by
    intro known call quiet log
    cases call with
    | putBlob key content => contradiction
    | createFile rec => contradiction
    | updateFile rec base => contradiction
    | _ => trivial
  have keeps : ∀ known (program : Handler), program.Only (fun call => ∀ log, DescribedCall prim known log call) →
      program.Keeps (DescribedCall prim known) [] :=
    fun known program only => only.keeps (fun log call holds => holds log) []
  have put : ∀ (req : FileJSON) (known : List Bytes), mustDecode req.encryptedContent ∈ known →
      validateIncomingFile prim cfg req = none → req.deleted = false →
      ∀ log, DescribedCall prim known log (.putBlob (blobKey req.contentHash) (mustDecode req.encryptedContent)) :=
    fun req known member valid live _ => ⟨member,(validateIncomingFile_valid prim cfg valid).hashed live⟩
  cases request with
  | post ctx req =>
    apply keeps
    apply handleCreateFile_only (quiet _)
    · exact put req _ List.mem_cons_self
    · exact fun valid _ => .inl (recordFromRequest_described prim cfg ctx req List.mem_cons_self valid)
  | put ctx fileID req =>
    apply keeps
    apply handleUpdateFile_only (quiet _)
    · exact put {req with fileID := fileID} _ List.mem_cons_self
    · exact fun valid _ => .inl (recordFromRequest_described prim cfg ctx {req with fileID := fileID} List.mem_cons_self valid)
  | delete ctx fileID =>
    refine ⟨trivial,fun read => ?_⟩
    cases read with
    | error err => trivial
    | ok cur =>
      refine ⟨.inl (by intro live; contradiction),fun result => ?_⟩
      cases result with
      | error err => trivial
      | ok updated => exact ⟨trivial,fun _ => trivial⟩
  | restore ctx fileID version =>
    refine ⟨trivial,fun found => ?_⟩
    cases found with
    | error err => trivial
    | ok v =>
      refine ⟨trivial,fun read => ?_⟩
      cases read with
      | error err => trivial
      | ok cur =>
        refine ⟨.inr ⟨⟨.getVersion ctx.accountID fileID version,.ok v⟩,by simp,v,rfl,rfl,rfl,rfl,rfl⟩,fun result => ?_⟩
        cases result with
        | error err => trivial
        | ok updated => exact ⟨trivial,fun _ => trivial⟩
  | batch ctx uploads downloads =>
    apply keeps
    apply handleBatch_only (quiet _)
    intro u member valid
    have known : mustDecode u.encryptedContent ∈ (Request.batch ctx uploads downloads).contents := List.mem_map_of_mem member
    have described := recordFromRequest_described prim cfg ctx u known valid
    exact ⟨put u _ known valid,fun _ => .inl described,fun _ => .inl described⟩
  | get ctx fileID => exact keeps _ _ (handleGetFile_only (quiet _) ctx fileID)
  | poll ctx since => exact ⟨trivial,fun _ => trivial⟩

end

/-- A live record is answered with the blob under its key. -/
def FileAnswer (request : Request) (log : List CallEvent) (response : Response) : Prop :=
  ∀ ctx fileID body, request = .get ctx fileID → response = .record 200 body → body.deleted = false →
    ∃ f content, (∃ event ∈ log, ∃ key, readHead event = some (key,f)) ∧ f.deleted = false ∧
      (∃ event ∈ log, readContent event = some (f.blobKey,content)) ∧ body = toFileJSON f (Base64.encodeBase64URL content)

theorem handleGetFile_answer (ctx : Context) (fileID : Str) :
    (handleGetFile ctx fileID).Answers (FileAnswer (.get ctx fileID)) [] := by
  intro read
  cases read with
  | error err => exact fun _ _ _ _ other => nomatch other
  | ok f =>
    dsimp only
    split
    · rename_i gone
      intro _ _ body _ same live
      cases same
      rw [toFileJSON] at live
      dsimp only at live
      rw [gone] at live
      contradiction
    · rename_i live
      intro blob
      cases blob with
      | missing => exact fun _ _ _ _ other => nomatch other
      | failed => exact fun _ _ _ _ other => nomatch other
      | found content =>
        intro _ _ body _ same _
        cases same
        refine ⟨f,content,⟨⟨.getFile ctx.accountID fileID,.ok f⟩,by simp,_,rfl⟩,?_,
          ⟨⟨.getBlob f.blobKey,.found content⟩,by simp,rfl⟩,rfl⟩
        simpa using live

theorem handle_download (prim : Primitives) (cfg : Config) (request : Request) :
    (handle prim cfg request).Answers (FileAnswer request) [] := by
  cases request with
  | get ctx fileID => exact handleGetFile_answer ctx fileID
  | _ =>
    apply Program.answers_of_forall
    intro log response ctx fileID body other
    contradiction

/-! ### Every interleaving -/

section
variable (prim : Primitives)

structure DownloadInv (l : Ledger State Call Call.Result Response Request) : Prop where
  heads : ∀ key f, l.shared.mem.files.get key = some f → RecordDescribed prim (uploaded l.requests) f
  versions : ∀ key, ∀ v ∈ l.shared.mem.history key, VersionDescribed prim (uploaded l.requests) v
  blobs : ∀ key content, l.shared.blobs.get key = some content →
    content ∈ uploaded l.requests ∧ Crypto.sha256Hex prim content = key
  readHeads : ∀ entry ∈ l.history, ∀ key f, readHead entry.event = some (key,f) → RecordDescribed prim (uploaded l.requests) f
  readVersions : ∀ entry ∈ l.history, ∀ v, readVersion entry.event = some v → VersionDescribed prim (uploaded l.requests) v
  readContents : ∀ entry ∈ l.history, ∀ key content, readContent entry.event = some (key,content) →
    Crypto.sha256Hex prim content = key

theorem downloadInv_initial : DownloadInv prim (Ledger.initial State.empty) := by
  constructor <;> simp [Ledger.initial,State.empty,Mem.newMem,Mem.history]

variable {prim} {l : Ledger State Call Call.Result Response Request}

theorem uploaded_of_mem {requests : List Request} {request : Request} (member : request ∈ requests) {content : Bytes}
    (uploads : content ∈ request.contents) : content ∈ uploaded requests :=
  List.mem_flatMap.mpr ⟨request,member,uploads⟩

/-- A further request only adds contents. -/
theorem DownloadInv.spawned (inv : DownloadInv prim l) (start : Request → Handler) (request : Request) :
    DownloadInv prim (Ledger.spawned start l request) := by
  have grows : ∀ content ∈ uploaded l.requests, content ∈ uploaded (l.requests ++ [request]) := fun content member => by
    rw [uploaded,List.flatMap_append]
    exact List.mem_append_left _ member
  exact ⟨fun key f found live => (inv.heads key f found live).mono grows,
    fun key v member live => (inv.versions key v member live).mono grows,
    fun key content found => ⟨grows content (inv.blobs key content found).1,(inv.blobs key content found).2⟩,
    fun entry member key f read live => (inv.readHeads entry member key f read live).mono grows,
    fun entry member v read live => (inv.readVersions entry member v read live).mono grows,inv.readContents⟩

/-- A record that a thread may write is described. -/
theorem DownloadInv.record (inv : DownloadInv prim l) {known : List Bytes} (grows : ∀ content ∈ known, content ∈ uploaded l.requests)
    {index : Nat} {rec : FileRecord} (kept : RecordKept prim known (Ledger.callsOf l.history index) rec) :
    RecordDescribed prim (uploaded l.requests) rec := by
  intro live
  rcases kept with described | ⟨event,member,v,read,deleted,blob,hash,size⟩
  · exact (described live).mono grows
  · obtain ⟨entry,there,-,rfl⟩ := Ledger.mem_callsOf.mp member
    rw [blob,hash,size]
    exact inv.readVersions entry there v read (deleted ▸ live)

theorem DownloadInv.called (inv : DownloadInv prim l) {index : Nat} {request : Request} {op : Call}
    {next : op.Result → Handler} {log : List CallEvent} (fault : Bool) (logged : l.Logged)
    (serves : l.Serves index request (.call op next) log) (keeps : (Program.call op next).Keeps (DescribedCall prim request.contents) log) :
    DownloadInv prim (Ledger.called exec l index fault request op next log) := by
  have grows : ∀ content ∈ request.contents, content ∈ uploaded l.requests := fun content member =>
    uploaded_of_mem (List.mem_of_getElem? serves.request) member
  have allowed := keeps.1
  rw [logged.logs index request _ log serves] at allowed
  have recorded : ∀ rec : FileRecord, (op = .createFile rec ∨ ∃ base, op = .updateFile rec base) →
      RecordDescribed prim (uploaded l.requests) rec := by
    rintro rec (rfl | ⟨base,rfl⟩)
    · exact inv.record grows allowed
    · exact inv.record grows allowed
  refine ⟨?_,?_,?_,?_,?_,?_⟩
  · intro key f found
    have put : ∀ (place : Str) (head : FileRecord), (exec fault l.shared op).2.mem.files =
        l.shared.mem.files.upsert place head → RecordDescribed prim (uploaded l.requests) head →
        RecordDescribed prim (uploaded l.requests) f := by
      intro place head files good
      simp only [Ledger.called] at found
      rw [files,Table.get_upsert] at found
      split at found
      · rw [← Option.some.inj found]
        exact good
      · exact inv.heads key f found
    cases exec_head fault l.shared op with
    | quiet files refused =>
      simp only [Ledger.called] at found
      rw [files] at found
      exact inv.heads key f found
    | created rec head absent same event files =>
      have good := recorded rec (.inl (congrArg Event.op event))
      exact put _ head files (by rw [same]; exact good)
    | replaced rec cur head found same event files =>
      have good := recorded rec (.inr ⟨_,congrArg Event.op event⟩)
      exact put _ head files (by rw [same]; exact good)
  · intro key v member
    rcases exec_versions fault l.shared op key v member with old | ⟨rec,version,seq,wrote,same⟩
    · exact inv.versions key v old
    · rw [same]
      exact recorded rec wrote
  · intro key content found
    rcases exec_blobs fault l.shared op key content found with old | rfl
    · exact inv.blobs key content old
    · exact ⟨grows content allowed.1,allowed.2⟩
  · intro entry member key f read
    rcases List.mem_append.mp member with before | now
    · exact inv.readHeads entry before key f read
    · rw [List.mem_singleton.mp now] at read
      exact inv.heads key f (exec_readHead fault l.shared op key f read).1
  · intro entry member v read
    rcases List.mem_append.mp member with before | now
    · exact inv.readVersions entry before v read
    · rw [List.mem_singleton.mp now] at read
      obtain ⟨key,there⟩ := exec_readVersion fault l.shared op v read
      exact inv.versions key v there
  · intro entry member key content read
    rcases List.mem_append.mp member with before | now
    · exact inv.readContents entry before key content read
    · rw [List.mem_singleton.mp now] at read
      exact (inv.blobs key content (exec_readContent fault l.shared op key content read)).2

/-- A blob under the key of a described record is the content it describes. -/
theorem Described.stored {known : List Bytes} {blobKey contentHash : Str} {size : Int} {content : Bytes}
    (described : Described prim known blobKey contentHash size) (apart : HashedApart prim known) (member : content ∈ known)
    (hash : Crypto.sha256Hex prim content = blobKey) :
    Crypto.sha256Hex prim content = contentHash ∧ (content.length : Int) = size := by
  obtain ⟨original,known,same,length⟩ := described.content
  have equal : content = original := apart content member original known (by rw [hash,same,described.key])
  exact ⟨hash.trans described.key,by rw [length,equal]⟩

/-- Every live head and history entry names its blob by its content hash, a stored
blob under it has that hash and the size, and what `GET` answers for a live record
passes the client's check. -/
theorem downloads_match (prim : Primitives) (cfg : Config) (moves : List (Move Request Bool))
    (apart : HashedApart prim (uploaded (serverLedger prim cfg moves).requests)) :
    (∀ key f, (serverLedger prim cfg moves).shared.mem.files.get key = some f → f.deleted = false →
      f.blobKey = f.contentHash ∧ ∀ content, (serverLedger prim cfg moves).shared.blobs.get f.blobKey = some content →
        Crypto.sha256Hex prim content = f.contentHash ∧ (content.length : Int) = f.size) ∧
    (∀ key, ∀ v ∈ (serverLedger prim cfg moves).shared.mem.history key, v.deleted = false →
      v.blobKey = v.contentHash ∧ ∀ content, (serverLedger prim cfg moves).shared.blobs.get v.blobKey = some content →
        Crypto.sha256Hex prim content = v.contentHash ∧ (content.length : Int) = v.size) ∧
    ∀ index ctx fileID body log, (serverLedger prim cfg moves).Serves index (.get ctx fileID) (.done (.record 200 body)) log →
      body.deleted = false → ∃ content, Base64.base64UrlDecode body.encryptedContent = some content ∧
        Crypto.sha256Hex prim content = body.contentHash := by
  obtain ⟨inv,served,logged⟩ := Ledger.ledger_invariant
    (fun (request : Request) program log =>
      program.Keeps (DescribedCall prim request.contents) log ∧ program.Answers (FileAnswer request) log)
    (fun _ _ => True) (DownloadInv prim) (fun request => ⟨handle_described prim cfg request,handle_download prim cfg request⟩)
    (fun _ _ _ _ both result => ⟨both.1.2 result,both.2 result⟩)
    (fun l request _ inv => inv.spawned (handle prim cfg) request)
    (fun l index fault request op next log inv served logged _ serves =>
      inv.called fault logged serves (served index request _ log serves).1)
    State.empty moves (downloadInv_initial prim) (guarded_trivial _ _ moves)
  refine ⟨?_,?_,?_⟩
  · intro key f found live
    have described := inv.heads key f found live
    exact ⟨described.key,fun content stored =>
      described.stored apart (inv.blobs _ content stored).1 (inv.blobs _ content stored).2⟩
  · intro key v member live
    have described := inv.versions key v member live
    exact ⟨described.key,fun content stored =>
      described.stored apart (inv.blobs _ content stored).1 (inv.blobs _ content stored).2⟩
  · intro index ctx fileID body log serves live
    obtain ⟨f,content,⟨event,read,key,head⟩,alive,⟨other,loaded,blob⟩,rfl⟩ :=
      (served index _ _ log serves).2 ctx fileID body rfl rfl live
    rw [logged.logs index _ _ log serves] at read loaded
    obtain ⟨first,here,-,rfl⟩ := Ledger.mem_callsOf.mp read
    obtain ⟨second,there,-,rfl⟩ := Ledger.mem_callsOf.mp loaded
    refine ⟨content,Base64.base64UrlDecode_encode content,?_⟩
    rw [inv.readContents second there _ content blob]
    exact (inv.readHeads first here key f head alive).key

end

section
open KnownAnswers (sample)

private def noRetention : Config := ⟨1000000,1000000,0⟩

private def dora : Context := ⟨lit "dora",lit "laptop",[],1⟩

private def letter : FileJSON :=
  ⟨lit "44444444-4444-4444-8444-444444444444",lit "bWV0YQ",lit "aGVsbG8",
    lit "2cf24dba5fb0a30e26e83b2ac5b9e29e1b161e5c1fa7425e73043362938b9824",0,0,.empty,false,5,0,[],0,[]⟩

/-- A file is uploaded and downloaded. -/
private def upAndDown : List (Move Request Bool) :=
  [.spawn (.post dora letter)] ++ List.replicate 3 (.step 0 false) ++ [.spawn (.get dora letter.fileID)] ++
    List.replicate 2 (.step 1 false)

private def answeredFile (thread : Thread Call Call.Result Response) : Option FileJSON :=
  match thread.program with
  | .done (.record 200 body) => some body
  | _ => none

theorem uploaded_letter_downloads : ∃ body log,
    (serverLedger sample noRetention upAndDown).Serves 1 (.get dora letter.fileID) (.done (.record 200 body)) log ∧
      body.deleted = false ∧ ∃ content, Base64.base64UrlDecode body.encryptedContent = some content ∧
        Crypto.sha256Hex sample content = body.contentHash := by
  have facts : HashedApart sample (uploaded (serverLedger sample noRetention upAndDown).requests) ∧
      ((((serverLedger sample noRetention upAndDown).threads[1]?).bind answeredFile).map (fun body => body.deleted)) = some false := by
    decide
  obtain ⟨body,answer,live⟩ := Option.map_eq_some_iff.mp facts.2
  obtain ⟨⟨program,log⟩,found,same⟩ := Option.bind_eq_some_iff.mp answer
  unfold answeredFile at same
  split at same
  · rename_i record finished
    cases same
    dsimp only at finished
    subst finished
    have serves : (serverLedger sample noRetention upAndDown).Serves 1 (.get dora letter.fileID) (.done (.record 200 body)) log :=
      ⟨rfl,found⟩
    exact ⟨body,log,serves,live,(downloads_match sample noRetention upAndDown facts.1).2.2 1 dora letter.fileID body log serves live⟩
  · contradiction

end
end NPSync.Server
