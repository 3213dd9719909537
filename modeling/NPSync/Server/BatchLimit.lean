import NPSync.KnownAnswers
import NPSync.Library.Conversations
import NPSync.Server.Calls
import NPSync.Server.Downloads

/-! The size limit of a batch. `handleBatch` sums the sizes that the entries declare
before it validates them, and a tombstone may declare any size. -/
namespace NPSync.Server
open Library

/-- The bytes that a call put into the blob store. -/
def putBytes : CallEvent → Nat
  | ⟨.putBlob _ content,true⟩ => content.length
  | _ => 0

def storedBytes (log : List CallEvent) : Nat := (log.map putBytes).sum

/-- The size of the record that a call stored. -/
def storedSize : CallEvent → Option Int
  | ⟨.createFile rec,.ok _⟩ | ⟨.updateFile rec _,.ok _⟩ => some rec.size
  | _ => none

section
variable (prim : Primitives) (cfg : Config) (ctx : Context) (uploads : List FileJSON) (downloads : List Str)

/-- Whatever the stores answer, a batch that is not rejected as a whole stores no
more ciphertext than the limit and no record with a negative size. -/
def BatchBounded : Prop :=
  ∀ log results, (handleBatch prim cfg ctx uploads downloads).Yields log (.batch results) →
    (storedBytes log : Int) ≤ cfg.maxBatchBytes ∧ ∀ event ∈ log, ∀ size ∈ storedSize event, 0 ≤ size

/-- The bytes of an upload that passes its own validation. -/
def validBytes (u : FileJSON) : Nat :=
  if validateIncomingFile prim cfg u = none ∧ u.deleted = false then (mustDecode u.encryptedContent).length else 0

/-- The batch is over the limit by the sum of what it declares, or the valid uploads
alone are within it and no valid tombstone declares a negative size. -/
def HonestSizes : Prop :=
  batchTotal uploads ≤ cfg.maxBatchBytes → ((uploads.map (validBytes prim cfg)).sum : Int) ≤ cfg.maxBatchBytes ∧
    ∀ u ∈ uploads, validateIncomingFile prim cfg u = none → u.deleted = true → 0 ≤ u.size

variable {prim cfg ctx}

/-! ### What a batch can store -/

theorem finishUpload_spends {u : FileJSON} {outcome : Except StoreError FileRecord} {next : BatchResultItem → Handler}
    {budget : Nat} (rest : ∀ item, (next item).Spends putBytes budget) :
    (finishUpload ctx u outcome next).Spends putBytes budget := by
  cases outcome with
  | error err => exact rest _
  | ok out => exact .free (fun _ => rfl) fun _ => rest _

/-- A valid content costs its bytes, and what follows it costs the same whatever became of it. -/
theorem storeBlob_spends {u : FileJSON} {next : Bool → Handler} {budget : Nat} (valid : validateIncomingFile prim cfg u = none)
    (rest : ∀ stored, (next stored).Spends putBytes budget) :
    (storeBlob u next).Spends putBytes (validBytes prim cfg u + budget) := by
  unfold storeBlob
  split
  · exact (rest true).mono (Nat.le_add_left _ _)
  · rename_i live
    have counted : validBytes prim cfg u = (mustDecode u.encryptedContent).length :=
      if_pos ⟨valid,Bool.eq_false_iff.mpr live⟩
    rw [counted]
    refine .call (fun stored => ?_) rest
    cases stored with
    | true => exact Nat.le_refl _
    | false => exact Nat.zero_le _

theorem batchUpload_spends {u : FileJSON} {next : BatchResultItem → Handler} {budget : Nat}
    (rest : ∀ item, (next item).Spends putBytes budget) :
    (batchUpload prim cfg ctx u next).Spends putBytes (validBytes prim cfg u + budget) := by
  unfold batchUpload
  split
  · exact (rest _).mono (Nat.le_add_left _ _)
  rename_i valid
  -- after the blob nothing costs anything
  refine storeBlob_spends valid fun stored => ?_
  split
  · exact rest _
  refine .free (fun _ => rfl) fun read => ?_
  rcases read with err | cur
  · cases err with
    | notFound => exact .free (fun _ => rfl) fun _ => finishUpload_spends rest
    | conflict => exact finishUpload_spends rest
    | duplicate => exact finishUpload_spends rest
  · refine .free (fun _ => rfl) fun outcome => ?_
    rcases outcome with err | out
    · cases err with
      | conflict =>
        refine .free (fun _ => rfl) fun again => ?_
        cases again with
        | ok cur => exact rest _
        | error err => exact finishUpload_spends rest
      | notFound => exact finishUpload_spends rest
      | duplicate => exact finishUpload_spends rest
    · exact finishUpload_spends rest

theorem batchUploads_spends {results : List BatchResultItem} {next : List BatchResultItem → Handler}
    (rest : ∀ results, (next results).Spends putBytes 0) :
    (batchUploads prim cfg ctx uploads results next).Spends putBytes (uploads.map (validBytes prim cfg)).sum := by
  induction uploads generalizing results with
  | nil => exact rest results
  | cons u others ih => exact batchUpload_spends fun item => ih

theorem batchDownloads_spends {results : List BatchResultItem} {next : List BatchResultItem → Handler}
    (rest : ∀ results, (next results).Spends putBytes 0) :
    (batchDownloads ctx downloads results next).Spends putBytes 0 := by
  induction downloads generalizing results with
  | nil => exact rest results
  | cons id others ih =>
    refine .free (fun _ => rfl) fun read => ?_
    cases read with
    | error err => exact ih
    | ok f =>
      dsimp only
      split
      · exact ih
      · refine .free (fun _ => rfl) fun blob => ?_
        cases blob with
        | found content => exact ih
        | missing => exact ih
        | failed => exact ih

theorem handleBatch_spends : (handleBatch prim cfg ctx uploads downloads).Spends putBytes
    (uploads.map (validBytes prim cfg)).sum := by
  unfold handleBatch
  split
  · exact Program.Spends.done _ _ _
  · exact batchUploads_spends uploads fun results => batchDownloads_spends downloads fun results => .done _ _ _

/-! ### The sizes of the records -/

/-- The size of the record that a call asks to store. -/
def writtenSize : Call → Option Int
  | .createFile rec | .updateFile rec _ => some rec.size
  | _ => none

theorem storedSize_written {event : CallEvent} {size : Int} (stored : size ∈ storedSize event) : size ∈ writtenSize event.op := by
  obtain ⟨call,answer⟩ := event
  cases call with
  | createFile rec =>
    cases answer with
    | ok head => exact stored
    | error err => contradiction
  | updateFile rec base =>
    cases answer with
    | ok head => exact stored
    | error err => contradiction
  | _ => contradiction

theorem handleBatch_sizes (honest : ∀ u ∈ uploads, validateIncomingFile prim cfg u = none → u.deleted = true → 0 ≤ u.size) :
    (handleBatch prim cfg ctx uploads downloads).Only fun call => ∀ size ∈ writtenSize call, 0 ≤ size := by
  apply handleBatch_only
  · intro call quiet size written
    cases call with
    | createFile rec => contradiction
    | updateFile rec base => contradiction
    | _ => contradiction
  intro u member valid
  have positive : 0 ≤ u.size := by
    cases live : u.deleted with
    | true => exact honest u member valid live
    | false =>
      rw [(validateIncomingFile_valid prim cfg valid).sized live]
      exact Int.natCast_nonneg _
  refine ⟨fun _ size => nofun,?_,?_⟩
  · intro size written
    cases written
    exact positive
  · intro size written
    cases written
    exact positive

/-! ### What a batch does store when every call succeeds -/

/-- The calls store every valid upload of the list. -/
structure StoresAll (prim : Primitives) (cfg : Config) (uploads : List FileJSON) (log : List CallEvent) : Prop where
  bytes : storedBytes log = (uploads.map (validBytes prim cfg)).sum
  sizes : ∀ u ∈ uploads, validateIncomingFile prim cfg u = none → ∃ event ∈ log, u.size ∈ storedSize event

theorem StoresAll.append {prim : Primitives} {cfg : Config} {first second : List FileJSON} {front back : List CallEvent}
    (one : StoresAll prim cfg first front) (two : StoresAll prim cfg second back) :
    StoresAll prim cfg (first ++ second) (front ++ back) := by
  refine ⟨?_,fun u member valid => ?_⟩
  · have left := one.bytes
    have right := two.bytes
    unfold storedBytes at left right ⊢
    rw [List.map_append,List.sum_append,left,right,List.map_append,List.sum_append]
  · rcases List.mem_append.mp member with inside | inside
    · obtain ⟨event,there,size⟩ := one.sizes u inside valid
      exact ⟨event,List.mem_append_left _ there,size⟩
    · obtain ⟨event,there,size⟩ := two.sizes u inside valid
      exact ⟨event,List.mem_append_right _ there,size⟩

variable (prim cfg ctx)

/-- An upload that is stored: its blob is put, its file is new and created. -/
theorem batchUpload_stores (u : FileJSON) (next : BatchResultItem → Handler) :
    ∃ first item, StoresAll prim cfg [u] first ∧ ∀ log response, (next item).Yields log response →
      (batchUpload prim cfg ctx u next).Yields (first ++ log) response := by
  unfold batchUpload
  cases checked : validateIncomingFile prim cfg u with
  | some err =>
    refine ⟨[],_,⟨?_,?_⟩,fun log response yields => yields⟩
    · simp [storedBytes,validBytes,checked]
    · intro other member valid
      rw [List.mem_singleton.mp member,checked] at valid
      contradiction
  | none =>
    let created : List CallEvent := [⟨.getFile ctx.accountID u.fileID,.error .notFound⟩,
      ⟨.createFile (recordFromRequest ctx u),.ok (recordFromRequest ctx u)⟩,
      ⟨.publish ctx.accountID ctx.deviceID (recordFromRequest ctx u),()⟩]
    let item : BatchResultItem := ⟨u.fileID,true,[],none,some (toFileJSON (recordFromRequest ctx u) []),[]⟩
    have sized : ∀ front : List CallEvent, ∀ other ∈ [u], validateIncomingFile prim cfg other = none →
        ∃ event ∈ front ++ created, other.size ∈ storedSize event := by
      intro front other member valid
      rw [List.mem_singleton.mp member]
      exact ⟨_,List.mem_append_right _ (List.mem_cons_of_mem _ List.mem_cons_self),rfl⟩
    cases live : u.deleted with
    | true =>
      refine ⟨created,item,⟨?_,sized []⟩,fun log response yields => ?_⟩
      · simp [created,storedBytes,putBytes,validBytes,live]
      · rw [storeBlob,if_pos live]
        exact ⟨_,_,rfl,_,_,rfl,_,_,rfl,yields⟩
    | false =>
      refine ⟨⟨.putBlob (blobKey u.contentHash) (mustDecode u.encryptedContent),true⟩::created,item,⟨?_,sized [_]⟩,
        fun log response yields => ?_⟩
      · simp [created,storedBytes,putBytes,validBytes,live,checked]
      · rw [storeBlob,if_neg (by simp [live])]
        exact ⟨_,_,rfl,_,_,rfl,_,_,rfl,_,_,rfl,yields⟩

theorem batchUploads_stores (results : List BatchResultItem) (next : List BatchResultItem → Handler) :
    ∃ first items, StoresAll prim cfg uploads first ∧ ∀ log response, (next items).Yields log response →
      (batchUploads prim cfg ctx uploads results next).Yields (first ++ log) response := by
  induction uploads generalizing results with
  | nil => exact ⟨[],results,⟨rfl,nofun⟩,fun log response yields => yields⟩
  | cons u others ih =>
    obtain ⟨front,item,one,upload⟩ := batchUpload_stores prim cfg ctx u
      fun item => batchUploads prim cfg ctx others (results ++ [item]) next
    obtain ⟨back,items,rest,uploaded⟩ := ih (results ++ [item])
    refine ⟨front ++ back,items,one.append rest,fun log response yields => ?_⟩
    rw [List.append_assoc]
    exact upload _ _ (uploaded log response yields)

theorem batchDownloads_ends (results : List BatchResultItem) (next : List BatchResultItem → Handler)
    (ends : ∀ results, ∃ log found, (next results).Yields log (.batch found)) :
    ∃ log found, (batchDownloads ctx downloads results next).Yields log (.batch found) := by
  induction downloads generalizing results with
  | nil => exact ends results
  | cons id others ih =>
    obtain ⟨log,found,yields⟩ := ih (results ++ [failedItem id "not_found" none])
    exact ⟨_,found,.error .notFound,log,rfl,yields⟩

theorem handleBatch_stores (fits : batchTotal uploads ≤ cfg.maxBatchBytes) : ∃ first back results, StoresAll prim cfg uploads first ∧
    (handleBatch prim cfg ctx uploads downloads).Yields (first ++ back) (.batch results) := by
  obtain ⟨first,items,stores,uploaded⟩ := batchUploads_stores prim cfg ctx uploads []
    fun results => batchDownloads ctx downloads results fun results => .done (.batch results)
  obtain ⟨back,found,ended⟩ := batchDownloads_ends ctx downloads items (fun results => .done (.batch results))
    fun results => ⟨[],results,rfl,rfl⟩
  refine ⟨first,back,found,stores,?_⟩
  rw [handleBatch,if_neg (by omega)]
  exact uploaded back _ ended

variable {prim cfg ctx}

/-- The limit holds for a batch, whatever the stores answer, exactly if the batch
declares honest sizes. -/
theorem batch_bounded_iff (prim : Primitives) (cfg : Config) (ctx : Context) (uploads : List FileJSON) (downloads : List Str) :
    BatchBounded prim cfg ctx uploads downloads ↔ HonestSizes prim cfg uploads := by
  constructor
  · intro bounded fits
    obtain ⟨first,back,results,stores,yields⟩ := handleBatch_stores prim cfg ctx uploads downloads fits
    obtain ⟨bytes,sizes⟩ := bounded _ _ yields
    constructor
    · rw [← stores.bytes]
      refine Int.le_trans ?_ bytes
      unfold storedBytes
      rw [List.map_append,List.sum_append]
      omega
    · intro u member valid dead
      obtain ⟨event,there,size⟩ := stores.sizes u member valid
      exact sizes event (List.mem_append_left _ there) _ size
  · intro honest log results yields
    by_cases fits : batchTotal uploads ≤ cfg.maxBatchBytes
    · obtain ⟨bytes,sizes⟩ := honest fits
      have spent := handleBatch_spends uploads downloads log _ yields
      refine ⟨?_,fun event member size stored => ?_⟩
      · unfold storedBytes
        omega
      · exact (handleBatch_sizes uploads downloads sizes).yields yields event member size (storedSize_written stored)
    · rw [handleBatch,if_pos (by omega)] at yields
      obtain ⟨-,same⟩ := yields
      contradiction

/-- The answer of a batch that is not rejected as a whole. -/
def Response.answersBatch : Response → Bool
  | .batch _ => true
  | _ => false

variable {uploads downloads}

/-- A bounded batch is within the limit when it is served without interference. -/
theorem BatchBounded.served (bounded : BatchBounded prim cfg ctx uploads downloads) (fault : Bool) (s : State)
    (batch : ((handleBatch prim cfg ctx uploads downloads).run (exec fault) s).1.answersBatch = true) :
    (storedBytes ((handleBatch prim cfg ctx uploads downloads).trace (exec fault) s) : Int) ≤ cfg.maxBatchBytes := by
  have yields := (handleBatch prim cfg ctx uploads downloads).yields_trace (exec fault) s
  cases response : ((handleBatch prim cfg ctx uploads downloads).run (exec fault) s).1 with
  | batch results =>
    rw [response] at yields
    exact (bounded _ results yields).1
  | _ =>
    rw [response] at batch
    contradiction

end

section
open KnownAnswers (primitives digestIn)

private def filler : Bytes := List.replicate 1200 97

/-- The digest of 1200 letters. -/
private def fillerAnswers : Primitives :=
  primitives [digestIn filler 0x4d21dde662555b99cb697061c3b5041108dedb8825a4bc5858737afbf640e492] [] ⟨nofun,nofun,nofun⟩

private def tight : Config := ⟨10000000,1199,10⟩

private def tablet : Context := ⟨lit "alice",lit "tablet",[],1⟩

private def overfull : List FileJSON := [
  ⟨lit "11111111-1111-4111-8111-111111111111",lit "bWV0YQ",(List.replicate 400 (lit "YWFh")).flatten,
    Crypto.sha256Hex fillerAnswers filler,0,0,.empty,false,1200,1,[],0,[]⟩,
  ⟨lit "22222222-2222-4222-8222-222222222222",lit "bWV0YQ",[],Crypto.sha256Hex fillerAnswers filler,0,0,.empty,true,-1,1,[],0,[]⟩]

/-- A file of 1200 bytes and a tombstone of size -1 pass a limit of 1199 bytes on an
empty server, which stores both. -/
theorem tombstone_lifts_limit : ¬BatchBounded fillerAnswers tight tablet overfull [] := by
  intro bounded
  have served : ((handleBatch fillerAnswers tight tablet overfull []).run (exec false) State.empty).1.answersBatch = true ∧
      tight.maxBatchBytes < storedBytes ((handleBatch fillerAnswers tight tablet overfull []).trace (exec false) State.empty) := by
    decide +kernel
  have bytes := bounded.served false State.empty served.1
  exact absurd bytes (Int.not_le.mpr served.2)

end
end NPSync.Server
