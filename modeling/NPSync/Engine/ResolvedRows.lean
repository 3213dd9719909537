import NPSync.Engine.ConflictEnds
import NPSync.Engine.ConflictList
import NPSync.VectorStorage

/-! What a resolution that succeeds leaves in the row of its file, beside the
record that the server answered. -/
namespace NPSync.Engine
open Library Server

/-- The vector of a record as the client reads it. -/
def recordVector (record : FileJSON) : Option VersionVector := (vectorJson record.versionVector).dump.map VersionVector.fromJson

/-- The row says of its file what the record says. -/
structure BooksKept (record : FileJSON) (row : LocalFileState) : Prop where
  fileId : row.fileId = record.fileID
  version : row.remoteVersion = record.version
  vector : recordVector record = some row.versionVector

section
variable (plat : Platform) (dev : Device)

/-- The conflict of a tracked file is resolved; its one request is answered with the record. -/
structure Resolution (l : Local) (fileId strategy : Str) (io : ResolveIo) (target : ConflictState) (f : LocalFileState)
    (call : ApiCall) (r : ApiResponse) (record : FileJSON) (out : Outcome × Local) : Prop where
  conflict : l.db.conflicts.get fileId = some target
  tracked : l.db.getFile target.relPath = some f
  yields : (resolveConflict plat dev l fileId strategy io).Yields [⟨call,r⟩] out
  succeeded : out.1.succeeded = true
  body : r.body = recordJson record

end

/-- `keepRemote` reads the vector of the record, which then has to survive its
storage; otherwise the vector of the row has to be that of the record before. -/
def VectorKept (strategy : Str) (f : LocalFileState) (record : FileJSON) : Prop :=
  if strategy = lit "keepRemote" then ∀ vv, recordVector record = some vv → ∀ e ∈ vv.entries, 0 ≤ e.2
  else recordVector record = some f.versionVector.stored

section
variable {plat : Platform} {dev : Device} {l middle : Local} {fileId relPath : Str} {target : ConflictState} {f : LocalFileState}
  {conversation : List ApiEvent} {out : Outcome × Local}

theorem settle_row {text : Bytes} {version : Int} {vv : VersionVector} {shadow : WriteFate}
    (tracked : l.db.getFile relPath = some f)
    (yields : (settle plat middle fileId f text version vv shadow).Yields conversation out) :
    out.2.db.getFile relPath = some {resolvedRow plat f text version vv with versionVector := vv.stored} := by
  have own : f.relPath = relPath := by
    obtain ⟨row,-,rfl⟩ := Option.map_eq_some_iff.mp tracked
    rfl
  obtain ⟨-,rfl⟩ := yields
  change (writeShadow plat _ f.relPath text shadow).db.getFile relPath = _
  rw [writeShadow_db,← own]
  exact LocalDb.getFile_upsertFile_same _ (resolvedRow plat f text version vv)

/-- The row of a resolved file names the version of the record. -/
structure RowAfter (plat : Platform) (relPath : Str) (f : LocalFileState) (record : FileJSON) (vv : VersionVector) (after : Local) :
    Prop where
  row : ∃ text, after.db.getFile relPath =
    some {resolvedRow plat f text record.version vv with versionVector := vv.stored}

theorem RowAfter.kept_iff {record : FileJSON} {vv : VersionVector} {after : Local}
    (row : RowAfter plat relPath f record vv after) :
    (∃ row, after.db.getFile relPath = some row ∧ BooksKept record row) ↔
      f.fileId = record.fileID ∧ recordVector record = some vv.stored := by
  obtain ⟨text,found⟩ := row.row
  constructor
  · rintro ⟨row,there,kept⟩
    obtain rfl := Option.some.inj (found.symm.trans there)
    exact ⟨kept.fileId,kept.vector⟩
  · exact fun both => ⟨_,found,both.1,rfl,both.2⟩

theorem RowEnd.row {text : Bytes} {version : Option Int} {vector : LocalFileState → Option VersionVector} {shadow : WriteFate}
    {record : FileJSON} (ends : RowEnd plat middle fileId target text version vector shadow out)
    (tracked : middle.db.getFile target.relPath = some f) (succeeded : out.1.succeeded = true)
    (reads : ∀ number, version = some number → number = record.version) :
    ∃ vv, vector f = some vv ∧ RowAfter plat target.relPath f record vv out.2 := by
  cases ends with
  | stopped outcome unsuccessful =>
    rw [unsuccessful] at succeeded
    contradiction
  | untracked missing =>
    rw [missing] at tracked
    contradiction
  | settled other there number read vv takes out yields =>
    obtain rfl := Option.some.inj (tracked.symm.trans there)
    obtain rfl := reads number read
    exact ⟨vv,takes,⟨_,settle_row tracked yields⟩⟩

theorem keepLocal_row {abs : WStr} {io : ResolveIo} {call : ApiCall} {r : ApiResponse} {record : FileJSON}
    (tracked : l.db.getFile target.relPath = some f)
    (yields : (keepLocal plat dev l fileId target abs io).Yields [⟨call,r⟩] out) (succeeded : out.1.succeeded = true)
    (body : r.body = recordJson record) : RowAfter plat target.relPath f record f.versionVector out.2 := by
  cases keepLocal_ends yields with
  | sent data copy payload built r out ends =>
    obtain ⟨vv,takes,row⟩ := ends.row tracked succeeded fun number reads => by
      have version := (acceptedVersion_some reads).2
      rw [body,recordJson_version] at version
      exact (Option.some.inj version).symm
    obtain rfl := Option.some.inj takes
    exact row

/-- `keepRemote` and `keepBoth` from their answer on. -/
theorem FetchedEnd.row {abs : WStr} {full : ApiResponse} {takesVector : Bool} {io : ResolveIo} {disk : Disk} {record : FileJSON}
    (ends : FetchedEnd plat dev l disk fileId target abs full takesVector io out) (tracked : l.db.getFile target.relPath = some f)
    (succeeded : out.1.succeeded = true) (body : full.body = recordJson record) :
    ∃ vv, RowAfter plat target.relPath f record vv out.2 ∧
      if takesVector then recordVector record = some vv else vv = f.versionVector := by
  cases ends with
  | refused outcome unsuccessful reason =>
    rw [unsuccessful] at succeeded
    contradiction
  | installed text answered opens out ends =>
    obtain ⟨vv,takes,row⟩ := ends.row tracked succeeded fun number reads => by
      rw [body,recordJson_version] at reads
      exact (Option.some.inj reads).symm
    refine ⟨vv,row,?_⟩
    unfold installedVector at takes
    split at takes
    · rename_i taken
      rw [body,recordJson_versionVector,Option.bind_some] at takes
      rw [if_pos taken]
      exact takes
    · rename_i left
      rw [if_neg left]
      exact (Option.some.inj takes).symm

/-- A resolution leaves the row equal to the record exactly when the row had the
file id of the record, and its vector unless it was taken over. -/
theorem resolution_keeps_books_iff {strategy : Str} {io : ResolveIo} {call : ApiCall} {r : ApiResponse} {record : FileJSON}
    (resolution : Resolution plat dev l fileId strategy io target f call r record out) :
    (∃ row, out.2.db.getFile target.relPath = some row ∧ BooksKept record row) ↔
      f.fileId = record.fileID ∧ VectorKept strategy f record := by
  obtain ⟨conflict,tracked,yields,succeeded,body⟩ := resolution
  unfold resolveConflict at yields
  rw [conflict] at yields
  dsimp only at yields
  split at yields
  · exact nomatch yields.1
  split at yields
  · rename_i local_
    have other : strategy ≠ lit "keepRemote" := by
      rw [local_]
      decide +kernel
    rw [(keepLocal_row tracked yields succeeded body).kept_iff,VectorKept,if_neg other]
  split at yields
  · rename_i remote
    obtain ⟨answer,rest,same,after⟩ := yields
    cases same
    obtain ⟨vv,row,read⟩ := (fetched_ends after).2.row tracked succeeded body
    rw [if_pos rfl] at read
    obtain ⟨text,-,rfl⟩ := Option.map_eq_some_iff.mp read
    have survives := VersionVector.stored_iff (VersionVector.fromJson_plain text)
    rw [row.kept_iff,VectorKept,if_pos remote,read]
    refine and_congr_right fun _ => ?_
    constructor
    · rintro same vv ⟨⟩
      exact survives.mp (Option.some.inj same).symm
    · intro kept
      rw [survives.mpr (kept _ rfl)]
  split at yields
  · rename_i remote both
    obtain ⟨answer,rest,same,after⟩ := yields
    cases same
    obtain ⟨vv,row,read⟩ := (fetched_ends after).2.row tracked succeeded body
    rw [if_neg Bool.false_ne_true] at read
    rw [row.kept_iff,VectorKept,if_neg remote,read]
  · exact nomatch yields.1

/-- The vector that the next upload sends is one ahead of the record. -/
theorem BooksKept.next_vector {record : FileJSON} {row : LocalFileState} {vv : VersionVector} (kept : BooksKept record row)
    (read : recordVector record = some vv) (device : Str) : (row.versionVector.bump dev.deviceId).get device =
      if dev.deviceId = device then wrap64 (vv.get dev.deviceId + 1) else vv.get device := by
  rw [Option.some.inj (read.symm.trans kept.vector),VersionVector.get_bump]

/-- A record with the vector that `keepLocal` sends is one ahead of the row. -/
theorem sent_vector_not_kept {strategy : Str} {record : FileJSON} {vv : VersionVector} (taken : strategy ≠ lit "keepRemote")
    (survives : f.versionVector.stored = f.versionVector) (read : recordVector record = some vv)
    (sent : vv.get dev.deviceId = (f.versionVector.bump dev.deviceId).get dev.deviceId) : ¬VectorKept strategy f record := by
  intro kept
  rw [VectorKept,if_neg taken,survives,read] at kept
  rw [Option.some.inj kept,VersionVector.get_bump,if_pos rfl] at sent
  exact VersionVector.wrap64_succ_ne _ sent.symm

end

/-! ### A vector that was not taken over -/

section
open KnownAnswers

/-- The phone's version 2 of `notes.txt`, which holds `hello`. -/
def phoneRecord : FileJSON :=
  ⟨notesId,notesMetadata,lit "TlBTMQEBAQEBAQEBAQEBAQHsCGPi8fMIAuEiQ1ryYmJjH6aJWQc",
    lit "7f6cbf117c8f9ae9a755ae37b34adcee94b9600958b62dd3a315f1ba17b81269",2,1,
    (Table.empty.upsert (lit "laptop") 1).upsert (lit "phone") 1,false,38,0,lit "phone",2,[]⟩

def laptopRow : LocalFileState :=
  ⟨notesId,lit "home",lit "home:notes.txt",[],[],1,VersionVector.empty.set (lit "laptop") 1,false,0⟩

def notesConflict : ConflictState :=
  ⟨notesId,lit "home:notes.txt",2,lit "C:\\notes\\notes.txt (conflict - Laptop).bak",[],0⟩

def inConflict : Local :=
  ⟨(rooted.upsertFile laptopRow).addConflict notesConflict,
    ⟨Table.empty.upsert (wlit "c:\\notes\\notes.txt (conflict - laptop).bak") (lit "world"),[]⟩,.empty,[],true⟩

def resolveWorks : ResolveIo :=
  ⟨true,true,lit "2024-01-01",⟨0,true⟩,.replaced,.replaced,⟨nonceOf 1,nonceOf 2,uuidOf 0⟩⟩

def phoneAnswer : ApiResponse := ⟨true,200,recordJson phoneRecord⟩

/-- The one call of an exchange, and its end with this answer. -/
private def oneAnswer (r : ApiResponse) : Exchange → Option (ApiCall × Outcome × Local)
  | .done _ => none
  | .call call next =>
    match next r with
    | .done out => some (call,out)
    | .call .. => none

private theorem oneAnswer_yields {r : ApiResponse} {exchange : Exchange} {call : ApiCall} {out : Outcome × Local}
    (one : oneAnswer r exchange = some (call,out)) : exchange.Yields [⟨call,r⟩] out := by
  cases exchange with
  | done value => contradiction
  | call first next =>
    unfold oneAnswer at one
    dsimp only at one
    split at one
    · rename_i value ends
      cases one
      refine ⟨r,[],rfl,?_⟩
      rw [ends]
      exact ⟨rfl,rfl⟩
    · contradiction

private def resolvedBy (strategy : String) : Option (ApiCall × Outcome × Local) :=
  oneAnswer phoneAnswer (resolveConflict platform laptop inConflict notesId (lit strategy) resolveWorks)

private theorem resolvedBy_resolution {strategy : String} {call : ApiCall} {out : Outcome × Local}
    (ends : resolvedBy strategy = some (call,out)) (succeeded : out.1.succeeded = true) :
    Resolution platform laptop inConflict notesId (lit strategy) resolveWorks notesConflict laptopRow call phoneAnswer phoneRecord out where
  conflict := by decide +kernel
  tracked := rfl
  yields := oneAnswer_yields ends
  succeeded := succeeded
  body := rfl

theorem remote_books_kept : ∃ call out row, resolvedBy "keepRemote" = some (call,out) ∧
    out.2.db.getFile (lit "home:notes.txt") = some row ∧ BooksKept phoneRecord row := by
  have facts : (resolvedBy "keepRemote").map (fun ends => ends.2.1.succeeded) = some true ∧
      (recordVector phoneRecord).all (fun vv => vv.entries.all fun e => 0 ≤ e.2) = true := by
    rw [resolvedBy,platform_numerals]
    decide +kernel
  obtain ⟨⟨call,out⟩,ends,succeeded⟩ := Option.map_eq_some_iff.mp facts.1
  have kept : VectorKept (lit "keepRemote") laptopRow phoneRecord := by
    rw [VectorKept,if_pos rfl]
    intro vv read
    have counters := facts.2
    rw [read] at counters
    simpa using counters
  obtain ⟨row,found,books⟩ := (resolution_keeps_books_iff (resolvedBy_resolution ends succeeded)).mpr ⟨rfl,kept⟩
  exact ⟨call,out,row,ends,found,books⟩

/-- `keepBoth` installs the phone's version without the phone's counter. -/
theorem both_vector_left : ¬∀ (plat : Platform) (dev : Device) (l : Local) (fileId strategy : Str) (io : ResolveIo)
    (target : ConflictState) (f : LocalFileState) (call : ApiCall) (r : ApiResponse) (record : FileJSON) (out : Outcome × Local),
    Resolution plat dev l fileId strategy io target f call r record out →
      ∃ row, out.2.db.getFile target.relPath = some row ∧ BooksKept record row := by
  intro kept
  have facts : (resolvedBy "keepBoth").map (fun ends => (ends.2.1.succeeded,
        (ends.2.2.db.getFile (lit "home:notes.txt")).map fun row => row.versionVector.get (lit "phone"))) = some (true,some 0) ∧
      (recordVector phoneRecord).map (fun vv => vv.get (lit "phone")) = some 1 := by
    rw [resolvedBy,platform_numerals]
    decide +kernel
  obtain ⟨⟨call,out⟩,ends,same⟩ := Option.map_eq_some_iff.mp facts.1
  obtain ⟨succeeded,counter⟩ := Prod.mk.inj same
  obtain ⟨row,found,books⟩ := kept _ _ _ _ _ _ _ _ _ _ _ _ (resolvedBy_resolution ends succeeded)
  have counter : (out.2.db.getFile (lit "home:notes.txt")).map (fun row => row.versionVector.get (lit "phone")) = some 0 := counter
  have there : out.2.db.getFile (lit "home:notes.txt") = some row := found
  rw [there] at counter
  have record := facts.2
  rw [books.vector] at record
  exact absurd (counter.symm.trans record) (by decide)

end
end NPSync.Engine
