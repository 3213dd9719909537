import NPSync.MergeEndings
import NPSync.Engine.ConflictEnds

/-! A conflict of a file that has no shadow copy. The missing base is the empty text,
and the merge over it is the ordinary one. -/
namespace NPSync.Merge
open Library

/-- The whole text is one insertion before an empty base. -/
theorem diffLines_empty (target : List Str) (filled : target ≠ []) : diffLines [] target = some [⟨0,0,target⟩] := by
  have walk : backtrack [] target (lcsTable target []) target.length ⟨0,none,[],[]⟩ = Walk.ended ⟨0,none,[],[]⟩ [] target := by
    cases target <;> rfl
  unfold diffLines
  rw [if_neg (by simp),List.length_nil,Nat.zero_add,walk,Walk.ended,if_pos rfl]
  dsimp only
  rw [if_neg filled]
  rfl

theorem sweep_empty (eol : Str) (linesL linesR : List Str) :
    sweep [] eol 3 [⟨0,0,linesL⟩] [⟨0,0,linesR⟩] 0 [] [] =
      if linesL = linesR then (appendLines eol linesL,[]) else ([],[⟨linesL,linesR⟩]) := by
  have region : foldRegion 2 ⟨[],[],[⟨0,0,linesL⟩],[⟨0,0,linesR⟩],0⟩ = ⟨[⟨0,0,linesL⟩],[⟨0,0,linesR⟩],[],[],0⟩ := rfl
  have built : ∀ lines : List Str, sideLines [] 0 0 [⟨0,0,lines⟩] = lines := by
    intro lines
    simp [sideLines,build,slice]
  rw [sweep_round [] eol 2 _ _ 0 [] [] (.inl (List.cons_ne_nil _ _))]
  dsimp only
  rw [show nextStart [⟨0,0,linesL⟩] [⟨0,0,linesR⟩] = 0 from rfl]
  rw [show [(⟨0,0,linesL⟩ : Edit)].length + [(⟨0,0,linesR⟩ : Edit)].length = 2 from rfl,region]
  dsimp only
  rw [built,built]
  by_cases same : linesL = linesR
  · rw [if_pos same,if_pos same]
    simp [sweep,slice,appendLines]
  · rw [if_neg same,if_neg same,if_neg (List.cons_ne_nil _ _),if_neg (List.cons_ne_nil _ _)]
    simp [sweep,slice,appendLines]

/-- Without a base the merge is clean for equal texts, for equal lines, and when one of
the texts is empty. -/
theorem merge_empty_clean_iff (localText remote : Str) : (merge [] localText remote).clean = true ↔
    localText = remote ∨ localText = [] ∨ remote = [] ∨ splitLines localText = splitLines remote := by
  unfold merge
  by_cases sides : localText = remote
  · simp [sides]
  by_cases emptyL : localText = []
  · rw [if_neg sides,if_pos emptyL]
    simp [emptyL]
  by_cases emptyR : remote = []
  · rw [if_neg sides,if_neg emptyL,if_pos emptyR]
    simp [emptyR]
  rw [if_neg sides,if_neg emptyL,if_neg emptyR]
  have filledL := mt (splitLines_eq_nil_iff localText).mp emptyL
  have filledR := mt (splitLines_eq_nil_iff remote).mp emptyR
  dsimp only
  rw [show splitLines [] = [] from rfl,diffLines_empty _ filledL,diffLines_empty _ filledR]
  dsimp only
  rw [show [(⟨0,0,splitLines localText⟩ : Edit)].length + [(⟨0,0,splitLines remote⟩ : Edit)].length + 1 = 3 from rfl,sweep_empty]
  by_cases same : splitLines localText = splitLines remote
  · simp [same]
  · simp [same,sides,emptyL,emptyR]

end NPSync.Merge

namespace NPSync.Engine
open Library

section
variable (plat : Platform) (dev : Device) (l : Local) (relPath : Str) (absPath : WStr) (serverCurrent : Json) (io : MergeIo)

/-- The answers of a server to `handleConflict` for a file without a shadow copy: the
rejected record and the fetched head can be read, the base cannot. -/
structure Baseless (fileId : Str) (full : ApiResponse) (remoteText : Bytes) : Prop where
  named : serverCurrent.valueStr (lit "file_id") [] = some fileId
  known : fileId ≠ []
  version : (serverCurrent.valueInt (lit "version") 0).isSome
  contentHash : (serverCurrent.valueStr (lit "content_hash") []).isSome
  answered : full.status = 200
  text : fetchedText plat dev full = some remoteText
  noShadow : readShadow plat l relPath io.shadowOpens = none

/-- The local text as `handleConflict` reads it. -/
def textHere : Bytes := (readFileBytes plat.win l.disk absPath io.opens).getD []

def copyPath : WStr := absPath ++ wlit " (conflict - " ++ PathUtil.utf8ToWide plat.win dev.deviceName ++ wlit ").bak"

/-- A conflict of the file is recorded with a copy of the local text, and the file
stands as it was. -/
structure ManualConflict (fileId : Str) (out : Outcome × Local) : Prop where
  outcome : out.1 = .conflictRecorded
  recorded : ∃ c, out.2.db.conflicts.get fileId = some c ∧
    c.localCopyPath = PathUtil.wideToUtf8 plat.win (copyPath plat dev absPath)
  copied : io.copyWrite = .replaced →
    out.2.disk.read plat.win (copyPath plat dev absPath) = some (textHere plat l absPath io)
  kept : out.2.disk.read plat.win absPath = l.disk.read plat.win absPath

end

section
variable {plat : Platform} {dev : Device} {l : Local} {relPath : Str} {absPath : WStr} {serverCurrent : Json} {rnd : Random}
  {io : MergeIo} {fileId : Str} {full : ApiResponse} {remoteText : Bytes} {answers : ApiCall → ApiResponse}

/-- What `handleConflict` goes on with once the head is fetched. -/
theorem handleConflict_baseless (baseless : Baseless plat dev l relPath serverCurrent io fileId full remoteText)
    (fetched : answers (.getFile fileId) = full) :
    (handleConflict plat dev l relPath absPath serverCurrent rnd io).run (answered answers) () =
      (if (Merge.merge [] (textHere plat l absPath io) remoteText).clean then
        uploadMerged plat dev l relPath absPath serverCurrent fileId (textHere plat l absPath io)
          (Merge.merge [] (textHere plat l absPath io) remoteText).merged rnd io
      else keepBoth plat dev l relPath absPath serverCurrent fileId (textHere plat l absPath io) io).run (answered answers) () := by
  have opened := baseless.text
  unfold fetchedText at opened
  have got : (answered answers () (.getFile fileId)).1 = full := fetched
  unfold handleConflict
  rw [baseless.named]
  dsimp only
  rw [if_neg baseless.known,Program.run_call,got,if_neg (not_not.mpr baseless.answered)]
  cases content : full.body.valueStr (lit "encrypted_content") [] with
  | none =>
    rw [content] at opened
    contradiction
  | some text =>
    rw [content] at opened
    dsimp only at opened ⊢
    cases decoded : Base64.base64UrlDecode text with
    | none =>
      rw [decoded] at opened
      contradiction
    | some encRemote =>
      rw [decoded] at opened
      dsimp only at opened ⊢
      cases plain : Crypto.decrypt plat.prim dev.masterKey encRemote (lit "file") with
      | threw =>
        rw [plain] at opened
        contradiction
      | rejected =>
        rw [plain] at opened
        contradiction
      | plain text =>
        rw [plain] at opened
        cases opened
        dsimp only
        rw [baseless.noShadow]
        rfl

theorem keepBoth_manual (baseless : Baseless plat dev l relPath serverCurrent io fileId full remoteText) :
    ManualConflict plat dev l absPath io fileId
      ((keepBoth plat dev l relPath absPath serverCurrent fileId (textHere plat l absPath io) io).run (answered answers) ()).1 := by
  obtain ⟨version,hasVersion⟩ := Option.isSome_iff_exists.mp baseless.version
  obtain ⟨hash,hasHash⟩ := Option.isSome_iff_exists.mp baseless.contentHash
  unfold keepBoth
  rw [hasVersion,hasHash]
  refine ⟨rfl,?_,?_,?_⟩
  · exact ⟨_,Table.get_upsert_same _ _ _,rfl⟩
  · intro replaced
    exact (read_writeFileAtomic _ _ _ _ _).trans (if_pos replaced)
  · have longer : absPath.length < (copyPath plat dev absPath).length := by
      simp only [copyPath,List.length_append]
      have marked : (wlit ").bak").length = 5 := rfl
      omega
    have longer' : absPath.length < (tmpPath (copyPath plat dev absPath)).length := by
      rw [tmpPath,List.length_append]
      omega
    apply writeFileAtomic_other
    intro member
    have paths : ∀ path ∈ writtenPaths plat.win (copyPath plat dev absPath) io.copyWrite,
        path = PathUtil.wlower plat.win (tmpPath (copyPath plat dev absPath)) ∨
          path = PathUtil.wlower plat.win (copyPath plat dev absPath) := by
      cases io.copyWrite <;> simp [writtenPaths]
    rcases paths _ member with same | same
    · exact wlower_ne_of_length plat.win _ _ longer' same.symm
    · exact wlower_ne_of_length plat.win _ _ longer same.symm

/-- A merge that is uploaded, or fails on the way, records no conflict. -/
theorem uploadMerged_records_nothing (localText merged : Bytes) (accepts : ∀ payload, (answers (.updateFile fileId payload)).status = 200) :
    ((uploadMerged plat dev l relPath absPath serverCurrent fileId localText merged rnd io).run (answered answers) ()).1.1 ≠
      .conflictRecorded := by
  unfold uploadMerged
  dsimp only
  split
  · exact Outcome.noConfusion
  split
  case h_2 => exact Outcome.noConfusion
  split
  · exact Outcome.noConfusion
  · rename_i payload _
    rw [Program.run_call,if_pos (show (answered answers () (.updateFile fileId payload)).1.status = 200 from accepts payload)]
    split
    · exact Outcome.noConfusion
    · exact Outcome.noConfusion

/-- A server that accepts every upload. -/
private def uploadsAccepted (full : ApiResponse) : ApiCall → ApiResponse
  | .getFile _ => full
  | _ => ⟨true,200,.null⟩

/-- Without a shadow copy, two different texts end in a manual conflict whatever the
server answers, exactly when neither is empty and their lines differ. -/
theorem missing_base_conflict_iff (baseless : Baseless plat dev l relPath serverCurrent io fileId full remoteText)
    (differ : textHere plat l absPath io ≠ remoteText) :
    (∀ answers : ApiCall → ApiResponse, answers (.getFile fileId) = full → ManualConflict plat dev l absPath io fileId
      ((handleConflict plat dev l relPath absPath serverCurrent rnd io).run (answered answers) ()).1) ↔
    textHere plat l absPath io ≠ [] ∧ remoteText ≠ [] ∧
      Merge.splitLines (textHere plat l absPath io) ≠ Merge.splitLines remoteText := by
  have clean := Merge.merge_empty_clean_iff (textHere plat l absPath io) remoteText
  constructor
  · intro manual
    have ended := (manual (uploadsAccepted full) rfl).outcome
    rw [handleConflict_baseless baseless rfl] at ended
    by_contra guessed
    have merges : (Merge.merge [] (textHere plat l absPath io) remoteText).clean = true := by
      rw [clean]
      tauto
    rw [if_pos merges] at ended
    exact uploadMerged_records_nothing _ _ (fun _ => rfl) ended
  · rintro ⟨someL,someR,lines⟩ answers fetched
    have stays : ¬(Merge.merge [] (textHere plat l absPath io) remoteText).clean = true := by
      rw [clean]
      tauto
    rw [handleConflict_baseless baseless fetched,if_neg stays]
    exact keepBoth_manual baseless

end
/-! ### `notes.txt` without a shadow copy -/

section
open KnownAnswers

/-- The head of `notes.txt`; its content is `hello`. -/
private def helloHead : ApiResponse :=
  let content := unhex "4e50533101010101010101010101010101ec0863e2f1f30802e122435af26262631fa6895907"
  ⟨true,200,.obj [(lit "encrypted_content",.str (Base64.encodeBase64URL content))]⟩

private def headRecord : Json :=
  .obj [(lit "file_id",.str notesId),(lit "version",.num 2),(lit "content_hash",.str (lit "7f6c"))]

private def holding (text : String) : Local :=
  ⟨rooted,⟨Table.empty.upsert (wlit "c:\\notes\\notes.txt") (lit text),[]⟩,.empty,[],true⟩

private def mergeWorks : MergeIo := ⟨true,true,.replaced,⟨0,true⟩,.replaced,.replaced,0⟩

private def mergeDraws : Random := ⟨nonceOf 4,nonceOf 5,uuidOf 0⟩

private theorem holding_baseless (text : String) :
    Baseless platform laptop (holding text) (lit "root:notes.txt") headRecord mergeWorks notesId helloHead (lit "hello") where
  named := by decide
  known := by decide
  version := by decide
  contentHash := by decide
  answered := rfl
  text := by decide +kernel
  noShadow := rfl

theorem other_text_recorded : ManualConflict platform laptop (holding "world") (wlit "C:\\notes\\notes.txt") mergeWorks notesId
    ((handleConflict platform laptop (holding "world") (lit "root:notes.txt") (wlit "C:\\notes\\notes.txt") headRecord mergeDraws
      mergeWorks).run (answered (fun _ => helloHead)) ()).1 := by
  have text : textHere platform (holding "world") (wlit "C:\\notes\\notes.txt") mergeWorks = lit "world" := by decide
  refine (missing_base_conflict_iff (holding_baseless "world") ?_).mpr ?_ (fun _ => helloHead) rfl
  · rw [text]
    decide
  · rw [text]
    exact ⟨by decide,by decide,by decide⟩

/-- An emptied `notes.txt` is replaced by the text of the other device. -/
theorem emptied_file_merged : ¬∀ (plat : Platform) (dev : Device) (l : Local) (relPath : Str) (absPath : WStr)
    (serverCurrent : Json) (rnd : Random) (io : MergeIo) (fileId : Str) (full : ApiResponse) (remoteText : Bytes),
    Baseless plat dev l relPath serverCurrent io fileId full remoteText → textHere plat l absPath io ≠ remoteText →
    ∀ answers : ApiCall → ApiResponse, answers (.getFile fileId) = full → ManualConflict plat dev l absPath io fileId
      ((handleConflict plat dev l relPath absPath serverCurrent rnd io).run (answered answers) ()).1 := by
  intro claim
  have manual := (claim platform laptop (holding "") (lit "root:notes.txt") (wlit "C:\\notes\\notes.txt") headRecord mergeDraws
    mergeWorks notesId helloHead (lit "hello") (holding_baseless "") (by decide) (fun _ => helloHead) rfl).outcome
  have outcome : ((handleConflict platform laptop (holding "") (lit "root:notes.txt") (wlit "C:\\notes\\notes.txt") headRecord
      mergeDraws mergeWorks).run (answered (fun _ => helloHead)) ()).1.1 = .merged := by
    decide +kernel
  rw [outcome] at manual
  contradiction

end
end NPSync.Engine
