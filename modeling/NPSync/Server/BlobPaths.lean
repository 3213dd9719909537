import Mathlib
import NPSync.Library.LexicalPath
import NPSync.Library.NetAddr
import NPSync.Server.Handlers

/-! `blob/fs.go`: where the file of a blob key is. `path/filepath` is the one of Unix. -/
namespace NPSync.Server
open Library

/-! ### `path/filepath` -/

def filepathClean (path : Str) : Str := LexicalPath.clean 47 46 path

def isAbs (path : Str) : Bool := LexicalPath.rooted 47 path

/-- `filepath.Join`; leading empty elements are ignored. -/
def filepathJoin (elems : List Str) : Str :=
  match elems.dropWhile (· = []) with
  | [] => []
  | first::rest => filepathClean (List.intercalate [47] (first::rest))

/-- `filepath.Dir`: up to the last slash. -/
def filepathDir (path : Str) : Str :=
  filepathClean (path.take (path.length - (path.reverse.takeWhile (· ≠ 47)).length))

/-! ### `FS` -/

def shard (key : Str) : Str :=
  let k := NetAddr.trimSpace key
  if 4 ≤ k.length then filepathJoin [k.take 2,(k.drop 2).take 2,k] else k

/-- `safePath` with the directory of the store; `none` is an error. -/
def safePath (dir key : Str) : Option Str :=
  let clean := filepathClean key
  if lit ".." <:+: clean ∨ isAbs clean = true ∨ clean = lit "." then none
  else
    let full := filepathJoin [dir,clean]
    if (filepathClean dir ++ lit "/").isPrefixOf full then some full else none

def blobPath (dir key : Str) : Option Str := safePath dir (shard key)

abbrev PathName (element : Str) : Prop := LexicalPath.Name 47 46 element

/-- A directory that a path below it still names. -/
structure Usable (dir : Str) : Prop where
  apart : filepathClean dir ≠ lit "."
  below : filepathClean dir ≠ lit "/"

/-- A key that leads down. -/
structure Downward (key : Str) : Prop where
  apart : filepathClean key ≠ lit "."
  relative : isAbs (filepathClean key) = false
  down : ¬lit ".." <:+: filepathClean key

instance (dir : Str) : Decidable (Usable dir) :=
  decidable_of_iff (filepathClean dir ≠ lit "." ∧ filepathClean dir ≠ lit "/") ⟨fun h => ⟨h.1,h.2⟩,fun h => ⟨h.apart,h.below⟩⟩

theorem here_iff (path : Str) : filepathClean path = lit "." ↔
    LexicalPath.rooted 47 path = false ∧ LexicalPath.elements 47 46 path = [] :=
  LexicalPath.clean_here_iff path (by decide)

theorem root_iff (path : Str) : filepathClean path = lit "/" ↔
    LexicalPath.rooted 47 path = true ∧ LexicalPath.elements 47 46 path = [] :=
  LexicalPath.clean_root_iff path (by decide)

theorem usable_iff (dir : Str) : Usable dir ↔ LexicalPath.elements 47 46 dir ≠ [] := by
  constructor
  · intro usable empty
    cases root : LexicalPath.rooted 47 dir with
    | false => exact usable.apart ((here_iff dir).mpr ⟨root,empty⟩)
    | true => exact usable.below ((root_iff dir).mpr ⟨root,empty⟩)
  · intro filled
    exact ⟨fun here => filled ((here_iff dir).mp here).2,fun top => filled ((root_iff dir).mp top).2⟩

/-- A key that leads down is names. -/
theorem Downward.names {key : Str} (downward : Downward key) : ∃ names, names ≠ [] ∧ (∀ name ∈ names, PathName name) ∧
    filepathClean key = List.intercalate [47] names := by
  have free : LexicalPath.rooted 47 key = false := by
    rw [← (LexicalPath.clean_rooted key (by decide) : LexicalPath.rooted 47 (LexicalPath.clean 47 (46 : UInt8) key) = _)]
    exact downward.relative
  have filled : LexicalPath.elements 47 46 key ≠ [] := fun empty => downward.apart ((here_iff key).mpr ⟨free,empty⟩)
  have shape : filepathClean key = List.intercalate [47] (LexicalPath.elements 47 46 key) := by
    rw [filepathClean,LexicalPath.clean,free,LexicalPath.render,if_neg Bool.false_ne_true,if_neg filled]
  refine ⟨_,filled,fun name member => ?_,shape⟩
  refine (LexicalPath.elements_stacked key name member).name fun up => downward.down ?_
  rw [shape]
  rw [← show name = lit ".." from up]
  exact LexicalPath.infix_joined member

theorem filepathJoin_below (dir : Str) {names : List Str} (filled : names ≠ []) (all : ∀ name ∈ names, PathName name) :
    filepathJoin [dir,List.intercalate [47] names] =
      LexicalPath.render 47 46 (LexicalPath.rooted 47 dir) (LexicalPath.elements 47 46 dir ++ names) := by
  have solid : List.intercalate [47] names ≠ [] := by
    intro empty
    have split := List.splitOn_intercalate 47 (fun name member => (all name member).whole) filled
    rw [empty,List.splitOn_nil] at split
    rw [← split] at all
    exact (all [] List.mem_cons_self).filled rfl
  by_cases based : dir = []
  · subst based
    have only : ([[],List.intercalate [47] names] : List Str).dropWhile (· = []) = [List.intercalate [47] names] := by
      simp [solid]
    rw [filepathJoin,only]
    dsimp only
    rw [List.intercalate_singleton,filepathClean,LexicalPath.clean_names filled all]
    have none : LexicalPath.elements (47 : UInt8) 46 [] = [] := rfl
    rw [none,List.nil_append,LexicalPath.render,if_neg (by decide),if_neg filled]
  · have both : ([dir,List.intercalate [47] names] : List Str).dropWhile (· = []) = [dir,List.intercalate [47] names] := by
      simp [based]
    rw [filepathJoin,both]
    dsimp only
    rw [List.intercalate_cons_cons,List.intercalate_singleton,List.append_assoc]
    exact LexicalPath.clean_below based filled all

/-- A key that leads down is taken below a usable directory, and no other key is taken. -/
theorem safePath_iff (dir key full : Str) :
    safePath dir key = some full ↔ Usable dir ∧ Downward key ∧ full = filepathClean dir ++ lit "/" ++ filepathClean key := by
  by_cases downward : Downward key
  · obtain ⟨names,filled,all,shape⟩ := downward.names
    have accepted : ¬(lit ".." <:+: filepathClean key ∨ isAbs (filepathClean key) = true ∨ filepathClean key = lit ".") :=
      not_or.mpr ⟨downward.down,not_or.mpr ⟨Bool.eq_false_iff.mp downward.relative,downward.apart⟩⟩
    have unrooted : LexicalPath.rooted 47 (filepathClean key) = false := downward.relative
    rw [safePath,if_neg accepted]
    dsimp only
    rw [shape,filepathJoin_below dir filled all]
    rw [shape] at unrooted
    by_cases usable : Usable dir
    · have deep := (usable_iff dir).mp usable
      have placed : LexicalPath.render 47 46 (LexicalPath.rooted 47 dir) (LexicalPath.elements 47 46 dir ++ names) =
          filepathClean dir ++ lit "/" ++ List.intercalate [47] names := by
        rw [LexicalPath.render_append _ filled deep,List.append_assoc]
        rfl
      have inside : (filepathClean dir ++ lit "/").isPrefixOf (filepathClean dir ++ lit "/" ++ List.intercalate [47] names) = true :=
        List.isPrefixOf_iff_prefix.mpr (List.prefix_append _ _)
      rw [placed,if_pos inside]
      constructor
      · intro same
        exact ⟨usable,downward,(Option.some.inj same).symm⟩
      · rintro ⟨-,-,same⟩
        rw [same]
    · have flat : LexicalPath.elements 47 46 dir = [] := not_not.mp fun deep => usable ((usable_iff dir).mpr deep)
      have outside : (filepathClean dir ++ lit "/").isPrefixOf
          (LexicalPath.render 47 46 (LexicalPath.rooted 47 dir) (LexicalPath.elements 47 46 dir ++ names)) = false := by
        rw [flat,List.nil_append]
        rw [Bool.eq_false_iff,Ne,List.isPrefixOf_iff_prefix]
        rintro ⟨rest,same⟩
        cases root : LexicalPath.rooted 47 dir with
        | true =>
          rw [(root_iff dir).mpr ⟨root,flat⟩,root,LexicalPath.render,if_pos rfl] at same
          have tail : 47::rest = List.intercalate [47] names := (List.cons.inj same).2
          rw [← tail] at unrooted
          simp [LexicalPath.rooted] at unrooted
        | false =>
          rw [(here_iff dir).mpr ⟨root,flat⟩,root,LexicalPath.render,if_neg Bool.false_ne_true,if_neg filled] at same
          have split := List.splitOn_intercalate 47 (fun name member => (all name member).whole) filled
          rw [← same] at split
          have parts := List.splitOn_append_cons_self (a := (47 : UInt8)) (lit ".") rest
          have dotted : ([46] : Str) ∈ names := by
            rw [← split,show lit "." ++ lit "/" ++ rest = lit "." ++ 47::rest from rfl,parts]
            exact List.mem_append_left _ (by decide)
          exact (all _ dotted).apart rfl
      rw [outside]
      constructor
      · intro wrong
        contradiction
      · intro right
        exact absurd right.1 usable
  · have refused : lit ".." <:+: filepathClean key ∨ isAbs (filepathClean key) = true ∨ filepathClean key = lit "." := by
      by_contra free
      obtain ⟨down,rest⟩ := not_or.mp free
      obtain ⟨relative,apart⟩ := not_or.mp rest
      exact downward ⟨apart,Bool.eq_false_iff.mpr relative,down⟩
    rw [safePath,if_pos refused]
    constructor
    · intro wrong
      contradiction
    · intro right
      exact absurd right.2.1 downward

/-- Every path the store uses goes down from its directory. -/
theorem safePath_inside {dir key full : Str} (taken : safePath dir key = some full) :
    ∃ names, names ≠ [] ∧ (∀ name ∈ names, PathName name) ∧
      full.splitOn 47 = (filepathClean dir).splitOn 47 ++ names := by
  obtain ⟨-,downward,placed⟩ := (safePath_iff dir key full).mp taken
  obtain ⟨names,filled,all,shape⟩ := downward.names
  refine ⟨names,filled,all,?_⟩
  rw [placed,shape,List.append_assoc,show lit "/" ++ List.intercalate [47] names = 47::List.intercalate [47] names from rfl,
    List.splitOn_append_cons_self,List.splitOn_intercalate 47 (fun name member => (all name member).whole) filled]

/-! ### The keys of the server -/

theorem hex_letter {key : Str} (hex : isHex64 key = true) {c : UInt8} (member : c ∈ key) : isLowerHex c = true := by
  have letters : key.all isLowerHex = true := (Bool.and_eq_true_iff.mp hex).2
  exact List.all_eq_true.mp letters c member

theorem hex_length {key : Str} (hex : isHex64 key = true) : key.length = 64 := by
  have sized := (Bool.and_eq_true_iff.mp hex).1
  simpa using sized

/-- A letter of a key is no separator, no dot and no space. -/
theorem hex_plain (c : UInt8) (letter : isLowerHex c = true) : c ≠ 47 ∧ c ≠ 46 ∧ 32 < c ∧ c < 128 := by
  have ranges : (48 ≤ c ∧ c ≤ 57) ∨ (97 ≤ c ∧ c ≤ 102) := by simpa [isLowerHex] using letter
  grind

/-- Nothing is dropped from a text when every piece begins with another kind of byte. -/
theorem dropPieces_plain {pieces : List (List UInt8)} {plain : UInt8 → Prop}
    (heads : ∀ piece ∈ pieces, ∃ c, piece.head? = some c ∧ ¬plain c) (fuel : Nat) {text : Str} (all : ∀ c ∈ text, plain c) :
    NetAddr.dropPieces pieces fuel text = text := by
  cases fuel with
  | zero => rfl
  | succ fuel =>
    have missing : pieces.find? (fun piece => piece.isPrefixOf text) = none := by
      apply List.find?_eq_none.mpr
      intro piece member
      obtain ⟨c,first,blank⟩ := heads piece member
      rw [List.isPrefixOf_iff_prefix]
      rintro ⟨after,rfl⟩
      exact blank (all c (List.mem_append_left _ (List.mem_of_mem_head? first)))
    rw [NetAddr.dropPieces,missing]

theorem trimSpace_plain {text : Str} (plain : ∀ c ∈ text, 32 < c ∧ c < 128) : NetAddr.trimSpace text = text := by
  have heads : ∀ piece ∈ NetAddr.spaces, ∃ c, piece.head? = some c ∧ ¬(32 < c ∧ c < 128) := by decide
  have lasts : ∀ piece ∈ NetAddr.spaces.map List.reverse, ∃ c, piece.head? = some c ∧ ¬(32 < c ∧ c < 128) := by decide
  have front := dropPieces_plain heads text.length plain
  have back : NetAddr.dropPieces (NetAddr.spaces.map List.reverse) text.length text.reverse = text.reverse :=
    dropPieces_plain lasts text.length fun c member => plain c (List.mem_reverse.mp member)
  rw [NetAddr.trimSpace,front,back,List.reverse_reverse]

/-- The names of the file of a key. -/
def shardNames (key : Str) : List Str := [key.take 2,(key.drop 2).take 2,key]

theorem shardNames_names {key : Str} (hex : isHex64 key = true) : ∀ name ∈ shardNames key, PathName name := by
  have sized := hex_length hex
  have part : ∀ name : Str, (∀ c ∈ name, c ∈ key) → 1 < name.length → PathName name := by
    intro name letters long
    have clear : ∀ c ∈ name, c ≠ 47 ∧ c ≠ 46 := fun c member =>
      ⟨(hex_plain c (hex_letter hex (letters c member))).1,(hex_plain c (hex_letter hex (letters c member))).2.1⟩
    refine ⟨?_,?_,?_,fun member => (clear 47 member).1 rfl⟩
    · rintro rfl
      simp at long
    · rintro rfl
      exact (clear 46 List.mem_cons_self).2 rfl
    · rintro rfl
      exact (clear 46 List.mem_cons_self).2 rfl
  intro name member
  rcases List.mem_cons.mp member with rfl | member
  · exact part _ (fun c inside => List.mem_of_mem_take inside) (by rw [List.length_take]; omega)
  rcases List.mem_cons.mp member with rfl | member
  · exact part _ (fun c inside => List.mem_of_mem_drop (List.mem_of_mem_take inside))
      (by rw [List.length_take,List.length_drop]; omega)
  · rw [List.mem_singleton.mp member]
    exact part key (fun c inside => inside) (by omega)

theorem shard_hex {key : Str} (hex : isHex64 key = true) : shard key = List.intercalate [47] (shardNames key) := by
  have trimmed : NetAddr.trimSpace key = key := trimSpace_plain fun c member => (hex_plain c (hex_letter hex member)).2.2
  have sized := hex_length hex
  have names := shardNames_names hex
  have solid : key.take 2 ≠ [] := (names _ List.mem_cons_self).filled
  have three : ([key.take 2,(key.drop 2).take 2,key] : List Str).dropWhile (· = []) = [key.take 2,(key.drop 2).take 2,key] := by
    simp [solid]
  rw [shard,trimmed,if_pos (by omega),filepathJoin,three]
  exact LexicalPath.clean_names (by simp) names

theorem clean_shard {key : Str} (hex : isHex64 key = true) : filepathClean (shard key) = List.intercalate [47] (shardNames key) := by
  rw [shard_hex hex]
  exact LexicalPath.clean_names (by simp [shardNames]) (shardNames_names hex)

theorem shard_downward {key : Str} (hex : isHex64 key = true) : Downward (shard key) := by
  have names := shardNames_names hex
  have sized := hex_length hex
  have undotted : (46 : UInt8) ∉ List.intercalate [47] (shardNames key) := by
    intro member
    rcases mem_intercalate member with separator | ⟨name,inside,letter⟩
    · simp at separator
    · have letters : ∀ c ∈ name, c ∈ key := by
        intro c there
        rcases List.mem_cons.mp inside with rfl | inside
        · exact List.mem_of_mem_take there
        rcases List.mem_cons.mp inside with rfl | inside
        · exact List.mem_of_mem_drop (List.mem_of_mem_take there)
        · rw [List.mem_singleton.mp inside] at there
          exact there
      exact (hex_plain 46 (hex_letter hex (letters 46 letter))).2.1 rfl
  refine ⟨?_,?_,?_⟩
  · intro here
    rw [clean_shard hex] at here
    rw [here] at undotted
    exact undotted (by decide)
  · rw [clean_shard hex]
    exact LexicalPath.joined_unrooted fun name member => (names name member).stacked
  · rw [clean_shard hex]
    exact fun inside => undotted (inside.subset (by decide))

/-- A key of the server has a file exactly when the directory is usable. -/
theorem blobPath_iff {key : Str} (hex : isHex64 key = true) (dir path : Str) : blobPath dir key = some path ↔
    Usable dir ∧ path = filepathClean dir ++ lit "/" ++ List.intercalate [47] (shardNames key) := by
  rw [blobPath,safePath_iff,clean_shard hex]
  constructor
  · intro taken
    exact ⟨taken.1,taken.2.2⟩
  · intro placed
    exact ⟨placed.1,shard_downward hex,placed.2⟩

/-- What stands after the last slash. -/
def lastName (path : Str) : Str := (path.reverse.takeWhile (· ≠ 47)).reverse

theorem lastName_append (front : Str) {name : Str} (whole : (47 : UInt8) ∉ name) : lastName (front ++ 47::name) = name := by
  have letters : ∀ c ∈ name.reverse, (decide (c ≠ 47)) = true := by
    intro c member
    have other : c ≠ 47 := fun same => whole (same ▸ List.mem_reverse.mp member)
    exact decide_eq_true other
  have split : (front ++ 47::name).reverse = name.reverse ++ 47::front.reverse := by simp
  rw [lastName,split,List.takeWhile_append_of_pos letters,List.takeWhile_cons_of_neg (by decide),List.append_nil,List.reverse_reverse]

theorem blobPath_split {key path dir : Str} (hex : isHex64 key = true) (placed : blobPath dir key = some path) :
    path = filepathClean dir ++ 47::(List.intercalate [47] [key.take 2,(key.drop 2).take 2] ++ 47::key) := by
  rw [((blobPath_iff hex dir path).mp placed).2,shardNames]
  simp [List.intercalate_cons_cons,lit]

theorem lastName_blobPath {key path dir : Str} (hex : isHex64 key = true) (placed : blobPath dir key = some path) :
    lastName path = key := by
  rw [blobPath_split hex placed,← List.cons_append,← List.append_assoc]
  exact lastName_append _ fun member => (hex_plain 47 (hex_letter hex member)).1 rfl

/-- No two keys share a file. -/
theorem blobPath_injective {dir path first second : Str} (one : isHex64 first = true) (two : isHex64 second = true)
    (here : blobPath dir first = some path) (there : blobPath dir second = some path) : first = second :=
  (lastName_blobPath one here).symm.trans (lastName_blobPath two there)

/-! ### Directories and temporary names -/

/-- The directories that `MkdirAll` makes, outermost first: where the path has a slash, and the path. -/
def parents (path : Str) : List Str :=
  path.inits.filter fun front => front = path || (path.drop front.length).head? = some 47

/-- The name that `CreateTemp` makes of the pattern `.tmp-*`. -/
def tempName (dir : Str) (random : Nat) : Str :=
  (if dir.getLast? = some 47 then dir else dir ++ lit "/") ++ lit ".tmp-" ++ decimalNat random

theorem filepathDir_append (front : Str) {name : Str} (whole : (47 : UInt8) ∉ name) :
    filepathDir (front ++ 47::name) = filepathClean (front ++ [47]) := by
  have last : ((front ++ 47::name).reverse.takeWhile (· ≠ 47)).length = name.length := by
    rw [← List.length_reverse,← lastName,lastName_append front whole]
  have cut : (front ++ 47::name).take ((front ++ 47::name).length - name.length) = front ++ [47] := by
    have split : front ++ 47::name = (front ++ [47]) ++ name := by simp
    have size : ((front ++ [47]) ++ name).length - name.length = (front ++ [47]).length := by
      rw [List.length_append]
      omega
    rw [split,size,List.take_left]
  rw [filepathDir,last,cut]

/-- The directory of a blob. -/
theorem filepathDir_blobPath {key path dir : Str} (hex : isHex64 key = true) (placed : blobPath dir key = some path) :
    filepathDir path = filepathClean dir ++ 47::List.intercalate [47] [key.take 2,(key.drop 2).take 2] := by
  have usable := ((blobPath_iff hex dir path).mp placed).1
  have names : ∀ name ∈ [key.take 2,(key.drop 2).take 2], PathName name := fun name member =>
    shardNames_names hex name (List.mem_append_left [key] member)
  have whole : (47 : UInt8) ∉ key := fun member => (hex_plain 47 (hex_letter hex member)).1 rfl
  rw [blobPath_split hex placed,← List.cons_append,← List.append_assoc,filepathDir_append _ whole,List.append_assoc,List.cons_append,
    filepathClean,filepathClean,LexicalPath.clean_below_slash (by decide) (by simp) names,
    LexicalPath.render_append _ (by simp) ((usable_iff dir).mp usable)]
  rfl

/-- A directory above a blob has a shorter name than every blob. -/
theorem parents_apart {first second path other dir parent : Str} (one : isHex64 first = true) (two : isHex64 second = true)
    (here : blobPath dir first = some path) (there : blobPath dir second = some other) (above : parent ∈ parents (filepathDir path)) :
    parent ≠ other := by
  have short : parent.length ≤ (filepathDir path).length :=
    ((List.mem_inits _ _).mp (List.mem_filter.mp above).1).length_le
  have sized := hex_length two
  rintro rfl
  rw [filepathDir_blobPath one here] at short
  rw [blobPath_split two there] at short
  simp [List.intercalate_cons_cons] at short
  omega

theorem lastName_tempName (dir : Str) (random : Nat) : lastName (tempName dir random) = lit ".tmp-" ++ decimalNat random := by
  have letters : (47 : UInt8) ∉ lit ".tmp-" ++ decimalNat random := by
    intro member
    rcases List.mem_append.mp member with fixed | digit
    · exact absurd fixed (by decide)
    · have number := decimalNat_digit random 47 digit
      contradiction
  rw [tempName]
  split
  · rename_i root
    obtain ⟨front,rfl⟩ := List.getLast?_eq_some_iff.mp root
    rw [List.append_assoc,List.append_assoc]
    exact lastName_append front letters
  · rw [List.append_assoc,List.append_assoc]
    exact lastName_append dir letters

/-- A temporary name is no blob's. -/
theorem tempName_apart {key path dir : Str} (hex : isHex64 key = true) (placed : blobPath dir key = some path) (inside : Str)
    (random : Nat) : tempName inside random ≠ path := by
  intro same
  have dotted : (46 : UInt8) ∈ key := by
    rw [← lastName_blobPath hex placed,← same,lastName_tempName]
    exact List.mem_append_left _ (by decide)
  exact (hex_plain 46 (hex_letter hex dotted)).2.1 rfl

end NPSync.Server
