import NPSync.Text

/-! `core/Merge.cpp`: the line diff and the three-way merge over it. Indices are
unbounded; the cell budget is the source's. -/
namespace NPSync

def kMaxAutoMergeCells : Nat := 16 * 1000 * 1000

/-- `base[aStart, aEnd)` replaced by `lines`. -/
structure Edit where
  aStart : Nat
  aEnd : Nat
  lines : List Str

structure MergeHunk where
  localLines : List Str
  remoteLines : List Str

structure MergeResult where
  clean : Bool
  merged : Str
  hunks : List MergeHunk

namespace Merge

/-- One row of the LCS table from the row below it: `at(i, j)` for every `j`, the
last entry being the zero of column `m`. -/
def lcsRow (line : Str) : (target : List Str) → (below : List Nat) → List Nat
  | t::target,b::below =>
    let right := lcsRow line target below
    (if line = t then below.headD 0 + 1 else max b (right.headD 0))::right
  | _,_ => [0]

/-- The rows of the LCS table from row `i = 0` down to row `n`. -/
def lcsTable (target : List Str) : (source : List Str) → List (List Nat)
  | [] => [List.replicate (target.length + 1) 0]
  | line::rest =>
    let below := lcsTable target rest
    lcsRow line target (below.headD [])::below

/-- The backtracking of `diffLines`: `start` is the open region. -/
structure Walk where
  i : Nat
  start : Option Nat
  lines : List Str
  edits : List Edit

def Walk.close (w : Walk) : Walk :=
  match w.start with
  | some aStart => ⟨w.i,none,[],w.edits ++ [⟨aStart,w.i,w.lines⟩]⟩
  | none => w

def Walk.opened (w : Walk) : Walk := {w with start := some (w.start.getD w.i)}

/-- `rows` and `below` are the table rows `i` and `i + 1` from column `j` on. -/
def backtrack : (source target : List Str) → (table : List (List Nat)) → (fuel : Nat) → Walk → Walk
  | f::source,t::target,row::below::table,fuel + 1,w =>
    if f = t then
      backtrack source target ((below.drop 1)::table.map (·.drop 1)) fuel {w.close with i := w.i + 1}
    else if row.getD 1 0 ≤ below.headD 0 then
      backtrack source (t::target) (below::table) fuel {w.opened with i := w.i + 1}
    else
      backtrack (f::source) target ((row.drop 1)::(below.drop 1)::table.map (·.drop 1)) fuel
        {w.opened with lines := w.opened.lines ++ [t]}
  | source,target,_,_,w =>
    let w := if source = [] then w else {w.opened with i := w.i + source.length}
    let w := if target = [] then w else {w.opened with lines := w.opened.lines ++ target}
    w.close

/-- `diffLines`; `none` is `ok = false`. -/
def diffLines (source target : List Str) : Option (List Edit) :=
  if 0 < source.length ∧ 0 < target.length ∧ kMaxAutoMergeCells < source.length * target.length then none
  else some (backtrack source target (lcsTable target source) (source.length + target.length) ⟨0,none,[],[]⟩).edits

/-- Newlines preceded by a carriage return, and the others. -/
def countEol : (previous : UInt8) → Str → Nat × Nat
  | _,[] => (0,0)
  | previous,c::rest =>
    let counts := countEol c rest
    if c = 10 then if previous = 13 then (counts.1 + 1,counts.2) else (counts.1,counts.2 + 1) else counts

def eolOf (text : Str) : Str :=
  let counts := countEol 0 text
  if counts.2 ≤ counts.1 then lit "\r\n" else lit "\n"

/-- The lines of a text; `line` is the one being read. -/
def splitLoop : Str → (line : Str) → List Str
  | [],line => if line = [] then [] else [line]
  | c::rest,line =>
    if c = 10 then (if line.getLast? = some 13 then line.dropLast else line)::splitLoop rest []
    else splitLoop rest (line ++ [c])

def splitLines (text : Str) : List Str := splitLoop text []

def slice (lines : List Str) (a b : Nat) : List Str := (lines.take b).drop a

def appendLines (eol : Str) (lines : List Str) : Str := lines.flatMap (· ++ eol)

/-- Edits that start inside the region, with the region's new end. -/
def absorb : List Edit → (taken : List Edit) → (regionEnd : Nat) → List Edit × List Edit × Nat
  | [],taken,regionEnd => (taken,[],regionEnd)
  | e::rest,taken,regionEnd =>
    if e.aStart ≤ regionEnd then absorb rest (taken ++ [e]) (max regionEnd e.aEnd) else (taken,e::rest,regionEnd)

structure Region where
  takenL : List Edit
  takenR : List Edit
  restL : List Edit
  restR : List Edit
  regionEnd : Nat

/-- The folding loop: both sides in turn until neither grows the region. -/
def foldRegion : (fuel : Nat) → Region → Region
  | 0,r => r
  | fuel + 1,r =>
    let (takenL,restL,endL) := absorb r.restL r.takenL r.regionEnd
    let (takenR,restR,endR) := absorb r.restR r.takenR endL
    if restL.length = r.restL.length ∧ restR.length = r.restR.length then r
    else foldRegion fuel ⟨takenL,takenR,restL,restR,endR⟩

/-- The `build` lambda. -/
def build (baseLines : List Str) (regionEnd : Nat) : List Edit → (cursor : Nat) → List Str
  | [],cursor => slice baseLines cursor regionEnd
  | e::rest,cursor => slice baseLines cursor e.aStart ++ e.lines ++ build baseLines regionEnd rest e.aEnd

/-- The sweep over both edit lists. -/
def sweep (baseLines : List Str) (eol : Str) : (fuel : Nat) → (editsL editsR : List Edit) →
    (basePos : Nat) → (out : Str) → (hunks : List MergeHunk) → Str × List MergeHunk
  | 0,_,_,_,out,hunks => (out,hunks)
  | _ + 1,[],[],basePos,out,hunks => (out ++ appendLines eol (baseLines.drop basePos),hunks)
  | fuel + 1,editsL,editsR,basePos,out,hunks =>
    let starts := (editsL.head?.map (·.aStart)).toList ++ (editsR.head?.map (·.aStart)).toList
    let nextStart := starts.foldl min (starts.headD 0)
    let out := out ++ appendLines eol (slice baseLines basePos nextStart)
    let region := foldRegion (editsL.length + editsR.length) ⟨[],[],editsL,editsR,nextStart⟩
    let unchanged := slice baseLines nextStart region.regionEnd
    let repL := if region.takenL = [] then unchanged else build baseLines region.regionEnd region.takenL nextStart
    let repR := if region.takenR = [] then unchanged else build baseLines region.regionEnd region.takenR nextStart
    let next := sweep baseLines eol fuel region.restL region.restR region.regionEnd
    if repL = repR then next (out ++ appendLines eol repL) hunks
    else if region.takenR = [] then next (out ++ appendLines eol repL) hunks
    else if region.takenL = [] then next (out ++ appendLines eol repR) hunks
    else next out (hunks ++ [⟨repL,repR⟩])

/-- `ThreeWayMerge::merge`. -/
def merge (base localText remote : Str) : MergeResult :=
  if localText = remote then ⟨true,localText,[]⟩
  else if localText = base then ⟨true,remote,[]⟩
  else if remote = base then ⟨true,localText,[]⟩
  else
    let baseLines := splitLines base
    match diffLines baseLines (splitLines localText),diffLines baseLines (splitLines remote) with
    | some editsL,some editsR =>
      let out := sweep baseLines (eolOf base) (editsL.length + editsR.length + 1) editsL editsR 0 [] []
      if out.2 = [] then ⟨true,out.1,[]⟩ else ⟨false,[],out.2⟩
    | _,_ => ⟨false,[],[]⟩

example : (merge (lit "a\nb\nc\n") (lit "A\nb\nc\n") (lit "a\nb\nC\n")).merged = lit "A\nb\nC\n" := by decide

end Merge
end NPSync
