import NPSync.Engine.Device
import NPSync.GlobSearch
import NPSync.IgnoreClosure
import NPSync.KnownAnswers
import NPSync.PathSafety

/-! `SyncEngine::refreshIgnoreRules`, and whose rules decide on a file: the rules of
every root are asked about every relative path. -/
namespace NPSync.Engine
open Library IgnoreRules

def ignoreFile (root : WStr) : WStr := root ++ wlit "\\.npsyncignore"

/-- The patterns of the settings, a line each. -/
def extraText (patterns : List Str) : Str := patterns.flatMap (· ++ [10])

section
variable (win : Windows)

/-- The text of a root's rules; a file that does not open counts as absent. -/
def rulesText (extra : List Str) (disk : Disk) (root : WStr) : Str :=
  extraText extra ++ (disk.read win (ignoreFile root)).getD []

/-- `refreshIgnoreRules`: the map from root ids to rules, the individually added
files' under the empty id. -/
def refreshIgnoreRules (db : LocalDb) (extra : List Str) (disk : Disk) : Table Str IgnoreRules :=
  let rules := (db.listSyncRoots win).foldl
    (fun (rules : Table Str IgnoreRules) root => rules.upsert root.1 (parse (rulesText win extra disk root.2))) .empty
  rules.upsert [] (parse (extraText extra))

/-- The decision of the scanner and of `applyRemoteFile` on the relative path of a file. -/
def fileIgnored (dev : Device) (db : LocalDb) (extra : List Str) (disk : Disk) (norm : Str) : Bool :=
  ignored {dev with rootRules := (refreshIgnoreRules win db extra disk).rows} norm false

/-- The root finds the file under this path below it. -/
def LocatedIn (db : LocalDb) (root : Str × WStr) (norm : Str) : Prop :=
  ∃ absPath, (db.listSyncRoots win).find? (fun root => PathUtil.isInsideRoot win root.2 absPath) = some root ∧
    locateInRoot win root absPath = some (root.1 ++ lit ":" ++ norm,root.2)

/-- Both roots have the same rules file. -/
def SameRulesFile (root other : WStr) : Prop := PathUtil.wlower win (ignoreFile other) = PathUtil.wlower win (ignoreFile root)

/-! ### The rules of one text -/

theorem parse_line (line rest : Str) : (parse (line ++ 10::rest)).rules = (parse line).rules ++ (parse rest).rules := by
  unfold parse
  rw [List.splitOn_append_cons_self,List.filterMap_append]

theorem parse_extra (extra : List Str) (rest : Str) :
    (parse (extraText extra ++ rest)).rules = (parse (extraText extra)).rules ++ (parse rest).rules := by
  induction extra with
  | nil => rfl
  | cons pattern others ih =>
    have first : ∀ rest, extraText (pattern::others) ++ rest = pattern ++ 10::(extraText others ++ rest) := by
      intro rest
      simp [extraText]
    have whole := first []
    rw [List.append_nil,List.append_nil] at whole
    rw [first,whole,parse_line,parse_line,ih,List.append_assoc]

/-- The pattern `*` matches every name. -/
theorem star_matches (name : Str) (unstarred : 42 ∉ name) (slashless : 47 ∉ name) : globMatch [42] name = true := by
  have free : Unhindered [42] name := plain_unhindered ⟨by decide,by decide⟩ unstarred
  apply (globMatch_reach free).mpr
  refine ⟨name,rfl,(reach_iff_parted free (parts_wild [42])).mpr ?_⟩
  exact ⟨name,slashless,[],List.append_nil name,[],rfl,rfl⟩

/-- A last line `*` ignores every path without a star. -/
theorem starred_ignored (extra : List Str) (norm : Str) (unstarred : 42 ∉ norm) :
    (parse (extraText extra ++ [42])).ignored norm false = true := by
  have rule : (parse [42]).rules = [⟨[42],false,false,false⟩] := rfl
  have plain : 42 ∉ compared norm := by
    intro member
    obtain ⟨c,lowered,same⟩ := List.mem_map.mp member
    obtain ⟨b,inside,rfl⟩ := List.mem_map.mp lowered
    have star : ∀ b : UInt8, (if asciiLower b = 92 then (47 : UInt8) else asciiLower b) = 42 → b = 42 :=
      forall_byte (by decide +kernel)
    exact unstarred (star b same ▸ inside)
  have matched : matchRule ⟨[42],false,false,false⟩ (compared norm) false = true := by
    apply List.any_eq_true.mpr
    refine ⟨compared norm,(mem_candidates _ _).mpr (.inl rfl),?_⟩
    have name : globMatch [42] ((compared norm).rtakeWhile (· ≠ 47)) = true := by
      apply star_matches
      · intro member
        exact plain ((List.rtakeWhile_suffix _ _).subset member)
      · intro member
        have no := List.mem_rtakeWhile_imp member
        simp at no
    simpa using name
  show (parse (extraText extra ++ [42])).rules.foldl
    (fun result r => if matchRule r (compared norm) false then !r.negate else result) false = true
  rw [parse_extra,rule,List.foldl_append,List.foldl_cons,matched]
  rfl

/-! ### The map from ids to rules -/

theorem get_foldl_upsert {V : Type} (rulesOf : WStr → V) (roots : List (Str × WStr)) (distinct : (roots.map Prod.fst).Nodup)
    (table : Table Str V) (id : Str) (rules : V) :
    (roots.foldl (fun (table : Table Str V) root => table.upsert root.1 (rulesOf root.2)) table).get id = some rules ↔
      (∃ root ∈ roots, root.1 = id ∧ rulesOf root.2 = rules) ∨ (id ∉ roots.map Prod.fst ∧ table.get id = some rules) := by
  induction roots generalizing table with
  | nil => simp
  | cons root rest ih =>
    have parts := List.nodup_cons.mp distinct
    rw [List.foldl_cons,ih parts.2,Table.get_upsert,List.exists_mem_cons_iff,List.map_cons,List.mem_cons]
    by_cases here : id = root.1
    · subst here
      have absent : ¬∃ other ∈ rest, other.1 = root.1 ∧ rulesOf other.2 = rules := by
        rintro ⟨other,member,same,-⟩
        exact parts.1 (same ▸ List.mem_map_of_mem member)
      rw [if_pos rfl,Option.some.injEq]
      simp [absent,parts.1]
    · rw [if_neg here]
      simp [here,Ne.symm here]

theorem listSyncRoots_distinct (db : LocalDb) : ((db.listSyncRoots win).map Prod.fst).Nodup := by
  have kept := Table.keys_filter_nodup (fun row => decide (row.2.isFolder = true)) db.syncRoots.rows db.syncRoots.distinct
  unfold LocalDb.listSyncRoots LocalDb.rootsWhere
  rw [List.map_map]
  exact kept

/-- A file is ignored when the settings or the rules of any root ignore its path. -/
theorem fileIgnored_iff (dev : Device) (db : LocalDb) (extra : List Str) (disk : Disk) (norm : Str) :
    fileIgnored win dev db extra disk norm = true ↔ (parse (extraText extra)).ignored norm false = true ∨
      ∃ root ∈ db.listSyncRoots win, root.1 ≠ [] ∧ (parse (rulesText win extra disk root.2)).ignored norm false = true := by
  have rows : fileIgnored win dev db extra disk norm = true ↔
      ∃ id rules, (refreshIgnoreRules win db extra disk).get id = some rules ∧ rules.ignored norm false = true := by
    unfold fileIgnored ignored
    rw [List.any_eq_true]
    constructor
    · rintro ⟨⟨id,rules⟩,member,hides⟩
      exact ⟨id,rules,(Table.mem_rows_iff _ _ _).mp member,hides⟩
    · rintro ⟨id,rules,held,hides⟩
      exact ⟨(id,rules),(Table.mem_rows_iff _ _ _).mpr held,hides⟩
  have held : ∀ id rules, (refreshIgnoreRules win db extra disk).get id = some rules ↔
      (id = [] ∧ parse (extraText extra) = rules) ∨
        (id ≠ [] ∧ ∃ root ∈ db.listSyncRoots win, root.1 = id ∧ parse (rulesText win extra disk root.2) = rules) := by
    intro id rules
    unfold refreshIgnoreRules
    dsimp only
    rw [Table.get_upsert]
    by_cases files : id = []
    · rw [if_pos files]
      simp [files]
    · rw [if_neg files,get_foldl_upsert (fun root => parse (rulesText win extra disk root)) _ (listSyncRoots_distinct win db)]
      simp [files]
  rw [rows]
  constructor
  · rintro ⟨id,rules,stored,hides⟩
    rcases (held id rules).mp stored with ⟨-,rfl⟩ | ⟨named,root,member,rfl,rfl⟩
    · exact .inl hides
    · exact .inr ⟨root,member,named,hides⟩
  · rintro (hides | ⟨root,member,named,hides⟩)
    · exact ⟨[],_,(held _ _).mpr (.inl ⟨rfl,rfl⟩),hides⟩
    · exact ⟨root.1,_,(held _ _).mpr (.inr ⟨named,root,member,rfl,rfl⟩),hides⟩

/-! ### Two disks -/

/-- A disk with the rules file of one root only. -/
def ownFile (disk : Disk) (root : WStr) : Disk :=
  match disk.read win (ignoreFile root) with
  | none => ⟨.empty,[]⟩
  | some content => (⟨.empty,[]⟩ : Disk).write win (ignoreFile root) content

theorem read_write (disk : Disk) (absPath other : WStr) (data : Bytes) : (disk.write win absPath data).read win other =
    if PathUtil.wlower win other = PathUtil.wlower win absPath then some data else disk.read win other :=
  Table.get_upsert _ _ _ _

theorem read_ownFile (disk : Disk) (root path : WStr) : (ownFile win disk root).read win path =
    if PathUtil.wlower win path = PathUtil.wlower win (ignoreFile root) then disk.read win (ignoreFile root) else none := by
  unfold ownFile
  cases held : disk.read win (ignoreFile root) with
  | none =>
    dsimp only
    rw [ite_self]
    rfl
  | some content => exact read_write win _ _ _ _

theorem located_plain {db : LocalDb} {root : Str × WStr} {norm : Str} (located : LocatedIn win db root norm) :
    root ∈ db.listSyncRoots win ∧ 42 ∉ norm := by
  obtain ⟨absPath,first,key⟩ := located
  refine ⟨List.mem_of_find?_eq_some first,?_⟩
  unfold locateInRoot at key
  dsimp only at key
  cases normalized : PathUtil.normalizeRelative (PathUtil.wideToUtf8 win
      ((absPath.drop root.2.length).dropWhile PathUtil.separator)) with
  | none =>
    rw [normalized] at key
    contradiction
  | some path =>
    rw [normalized] at key
    have same : path = norm := List.append_cancel_left (congrArg Prod.fst (Option.some.inj key))
    obtain ⟨-,segs,-,-,legal,-,joined⟩ := (PathUtil.normalizeRelative_some_iff _ _).mp normalized
    rw [joined,same] at legal
    intro star
    exact (PathUtil.hasIllegalChars_false norm legal 42 star).2 (by decide)

/-- The decision on a file of a root depends on the settings and on the root's own
rules file only, exactly when these ignore the file or no other root has one. -/
theorem own_rules_decide_iff (dev : Device) (db : LocalDb) (extra : List Str) (disk : Disk) (root : Str × WStr) (norm : Str)
    (named : root.1 ≠ []) (located : LocatedIn win db root norm) :
    (∀ changed : Disk, changed.read win (ignoreFile root.2) = disk.read win (ignoreFile root.2) →
      fileIgnored win dev db extra changed norm = fileIgnored win dev db extra disk norm) ↔
    (parse (extraText extra)).ignored norm false = true ∨ (parse (rulesText win extra disk root.2)).ignored norm false = true ∨
      ∀ other ∈ db.listSyncRoots win, other.1 ≠ [] → SameRulesFile win root.2 other.2 := by
  obtain ⟨member,unstarred⟩ := located_plain win located
  constructor
  · intro independent
    by_contra none_
    simp only [not_or,not_forall] at none_
    obtain ⟨settings,own,other,there,otherNamed,apart⟩ := none_
    have bare : (ownFile win disk root.2).read win (ignoreFile root.2) = disk.read win (ignoreFile root.2) := by
      rw [read_ownFile,if_pos rfl]
    have shown : ¬fileIgnored win dev db extra (ownFile win disk root.2) norm = true := by
      intro hides
      rcases (fileIgnored_iff win dev db extra _ norm).mp hides with hides | ⟨cause,_,_,hides⟩
      · exact settings hides
      · unfold rulesText at hides own
        rw [read_ownFile] at hides
        split at hides
        · exact own hides
        · rw [Option.getD_none,List.append_nil] at hides
          exact settings hides
    have hidden : fileIgnored win dev db extra ((ownFile win disk root.2).write win (ignoreFile other.2) [42]) norm = true := by
      apply (fileIgnored_iff win dev db extra _ norm).mpr
      refine .inr ⟨other,there,otherNamed,?_⟩
      unfold rulesText
      rw [read_write,if_pos rfl]
      exact starred_ignored extra norm unstarred
    have kept : ((ownFile win disk root.2).write win (ignoreFile other.2) [42]).read win (ignoreFile root.2) =
        disk.read win (ignoreFile root.2) := by
      rw [read_write,if_neg (fun same => apart same.symm),bare]
    rw [independent _ bare,← independent _ kept] at shown
    exact shown hidden
  · intro cause changed same
    have ownText : rulesText win extra changed root.2 = rulesText win extra disk root.2 := by
      unfold rulesText
      rw [same]
    rcases cause with hides | hides | alone
    · rw [(fileIgnored_iff win dev db extra changed norm).mpr (.inl hides),
        (fileIgnored_iff win dev db extra disk norm).mpr (.inl hides)]
    · have before := (fileIgnored_iff win dev db extra disk norm).mpr (.inr ⟨root,member,named,hides⟩)
      have after := (fileIgnored_iff win dev db extra changed norm).mpr (.inr ⟨root,member,named,ownText.symm ▸ hides⟩)
      rw [before,after]
    · have text : ∀ other ∈ db.listSyncRoots win, other.1 ≠ [] →
          rulesText win extra changed other.2 = rulesText win extra disk other.2 := by
        intro other there otherNamed
        have file := alone other there otherNamed
        unfold rulesText Disk.read
        rw [file]
        exact ownText
      rw [Bool.eq_iff_iff,fileIgnored_iff,fileIgnored_iff]
      refine or_congr_right (exists_congr fun other => ?_)
      refine and_congr_right fun there => and_congr_right fun otherNamed => ?_
      rw [text other there otherNamed]

end

/-! ### A second root -/

section
open KnownAnswers

def workRules : Disk := (⟨.empty,[]⟩ : Disk).write ascii (wlit "C:\\work\\.npsyncignore") (lit "*.md")

/-- A pattern of the settings hides a file of `C:\notes`, whatever the rules of `C:\work` are. -/
theorem settings_decide_beside_other_root :
    fileIgnored ascii laptop (rooted.addSyncRoot ascii (lit "work") (wlit "C:\\work") true) [lit "*.tmp"] workRules (lit "draft.tmp") =
      fileIgnored ascii laptop (rooted.addSyncRoot ascii (lit "work") (wlit "C:\\work") true) [lit "*.tmp"] ⟨.empty,[]⟩
        (lit "draft.tmp") := by
  apply (own_rules_decide_iff ascii laptop (rooted.addSyncRoot ascii (lit "work") (wlit "C:\\work") true) [lit "*.tmp"]
    ⟨.empty,[]⟩ (lit "home",wlit "C:\\notes") (lit "draft.tmp") (by decide)
    ⟨wlit "C:\\notes\\draft.tmp",by decide,by decide⟩).mpr
  · exact .inl (by decide)
  · decide

/-- `*.md` in the rules file of `C:\work` hides a file of `C:\notes`. -/
theorem other_root_hides :
    ¬∀ (dev : Device) (db : LocalDb) (extra : List Str) (disk : Disk) (root : Str × WStr) (norm : Str), root.1 ≠ [] →
      LocatedIn ascii db root norm → ∀ changed : Disk,
      changed.read ascii (ignoreFile root.2) = disk.read ascii (ignoreFile root.2) →
      fileIgnored ascii dev db extra changed norm = fileIgnored ascii dev db extra disk norm := by
  intro independent
  have same := independent laptop (rooted.addSyncRoot ascii (lit "work") (wlit "C:\\work") true) [] ⟨.empty,[]⟩
    (lit "home",wlit "C:\\notes") (lit "todo.md") (by decide)
    ⟨wlit "C:\\notes\\todo.md",by decide,by decide⟩ workRules (by decide)
  have differ : fileIgnored ascii laptop (rooted.addSyncRoot ascii (lit "work") (wlit "C:\\work") true) [] workRules
      (lit "todo.md") ≠ fileIgnored ascii laptop (rooted.addSyncRoot ascii (lit "work") (wlit "C:\\work") true) []
      ⟨.empty,[]⟩ (lit "todo.md") := by
    decide
  exact differ same

end
end NPSync.Engine
