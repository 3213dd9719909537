import NPSync.PathUtil

/-! `core/IgnoreRules.cpp`. The glob matcher walks suffixes of the pattern and of
the string where the source walks indices; a remembered star is the pattern to
resume with and the string it was met at. -/
namespace NPSync

structure IgnoreRule where
  pattern : Str
  negate : Bool
  dirOnly : Bool
  anchored : Bool

structure IgnoreRules where
  rules : List IgnoreRule

namespace IgnoreRules
open PathUtil (lower)

def blank (c : UInt8) : Bool := c = 32 || c = 9 || c = 13

def trim (s : Str) : Str := (s.dropWhile blank).rdropWhile blank

/-- One line of the rules text after `trim`; `none` is a line that is skipped. -/
def parseLine (line : Str) : Option IgnoreRule :=
  if line = [] ∨ line.head? = some 35 then none
  else
    let negate := line.head? = some 33
    let line := if negate then trim line.tail else line
    if line = [] then none
    else
      let dirOnly := line.getLast? = some 47
      let line := if dirOnly then line.dropLast else line
      let anchored := line.head? = some 47
      let line := if anchored then line.tail else line
      if line = [] then none else some ⟨lower line,negate,dirOnly,anchored⟩

def parse (text : Str) : IgnoreRules := ⟨(text.splitOn 10).filterMap (fun line => parseLine (trim line))⟩

structure Star where
  resume : Str
  text : Str
  double : Bool

/-- Loop of `globMatch`. Between two backtracks the pattern shrinks and every
backtrack moves the star by one, which bounds the rounds by the fuel below. -/
def globLoop : (fuel : Nat) → (pat str : Str) → Option Star → Bool
  | 0,_,_,_ => false
  | _ + 1,pat,[],_ => (pat.dropWhile (· = 42)).isEmpty
  | fuel + 1,pat,c::str,star =>
    let backtrack := match star with
      | none => false
      | some ⟨resume,text,double⟩ =>
        if !double && text.head? = some 47 then false
        else globLoop fuel resume text.tail (some ⟨resume,text.tail,double⟩)
    match pat with
    | [] => backtrack
    | p::pat =>
      if p = 63 || p = c then globLoop fuel pat str star
      else if p = 42 then
        if pat.head? = some 42 then
          let resume := if pat.tail.head? = some 47 then pat.tail.tail else pat.tail
          globLoop fuel resume (c::str) (some ⟨resume,c::str,true⟩)
        else globLoop fuel pat (c::str) (some ⟨pat,c::str,false⟩)
      else backtrack

def globMatch (pat str : Str) : Bool := globLoop ((str.length + 2) * (pat.length + 2)) pat str none

/-- The path and its parent prefixes, in the order `matchRule` tries them. -/
def candidates (relPath : Str) : List Str :=
  relPath::((List.range relPath.length).filter (fun pos => relPath[pos]? = some 47)).map (fun pos => relPath.take pos)

def matchRule (r : IgnoreRule) (relPath : Str) (isDir : Bool) : Bool :=
  (candidates relPath).any fun cand =>
    if r.dirOnly && !(cand ≠ relPath || isDir) then false
    else if r.anchored || r.pattern.contains 47 then globMatch r.pattern cand
    else globMatch r.pattern (cand.rtakeWhile (· ≠ 47))

def ignored (rules : IgnoreRules) (relPath : Str) (isDir : Bool) : Bool :=
  let p := (lower relPath).map (fun c => if c = 92 then 47 else c)
  rules.rules.foldl (fun result r => if matchRule r p isDir then !r.negate else result) false

example : (parse (lit "# build output\nnode_modules/\n!*.keep\n")).ignored (lit "src/node_modules/a.js") false = true := by
  decide

end IgnoreRules
end NPSync
