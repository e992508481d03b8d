import LeakScan.Regex.Search
import LeakScan.Text.Utf8

/-!
# LeakScan.Glob

Path patterns. `?` and `*` stand for one byte and for any bytes, separators included; `**` as a
whole part stands for any number of parts; `[…]` for one byte of a class; `{…,…}` for one of some
patterns; a backslash takes the next character literally.

* `Glob.Piece` — the pieces of a pattern.
* `Glob.parse` — reading a pattern, or the reason why it is none.
* `Glob.toRegex`, `Glob.isMatch` — matching a path, byte by byte.
-/

namespace LeakScan.Glob

open Text

inductive Piece where
  | literal (c : Char)
  | anyOne
  | anyRun
  /-- `**` at the start, with the separator after it. -/
  | anyPartsFirst
  /-- `**` at the end, with the separator before it. -/
  | anyPartsLast
  /-- `**` between two separators, which belong to it. -/
  | anyPartsInside
  | oneOf (negated : Bool) (ranges : List (Char × Char))
  | anyOf (choices : List (List Piece))
  deriving Repr, Inhabited

inductive GlobError where
  | unclosedClass
  | invalidRange (low high : Char)
  | unclosedGroup
  | unopenedGroup
  | danglingEscape
  deriving DecidableEq, Repr

def GlobError.reason : GlobError → String
  | .unclosedClass => "unclosed character class; missing ']'"
  | .invalidRange low high => s!"invalid range; '{low}' > '{high}'"
  | .unclosedGroup =>
    "unclosed alternate group; missing '\x7d' (maybe escape '\x7b' with '[\x7b]'?)"
  | .unopenedGroup =>
    "unopened alternate group; missing '\x7b' (maybe escape '\x7d' with '[\x7d]'?)"
  | .danglingEscape => "dangling '\\'"

def errorText (pattern : String) (e : GlobError) : String :=
  s!"error parsing glob '{pattern}': {e.reason}"

/-! ## Reading -/

/-- A reader inside a pattern: what was read last, the branch that grows, in reverse, and around it
the open groups, each with its finished branches and the branch that it stands in. -/
structure Reader where
  last : Option Char := none
  branch : List Piece := []
  groups : List (List (List Piece) × List Piece) := []

namespace Reader

def push (r : Reader) (p : Piece) : Reader := { r with branch := p :: r.branch }

def openGroup (r : Reader) : Reader :=
  { r with branch := [], groups := ([], r.branch) :: r.groups }

/-- A comma outside of all groups is a literal. -/
def nextChoice (r : Reader) : Reader :=
  match r.groups with
  | [] => r.push (.literal ',')
  | (done, outer) :: rest =>
    { r with branch := [], groups := (done ++ [r.branch.reverse], outer) :: rest }

def closeGroup (r : Reader) : Except GlobError Reader :=
  match r.groups with
  | [] => .error .unopenedGroup
  | (done, outer) :: rest =>
    .ok { r with branch := .anyOf (done ++ [r.branch.reverse]) :: outer, groups := rest }

end Reader

/-- The ranges of a class up to its closing bracket. `pending` says that a dash waits for the upper
end of a range. -/
def readClass (ranges : List (Char × Char)) (first pending : Bool) :
    List Char → Except GlobError (List (Char × Char) × List Char)
  | [] => .error .unclosedClass
  | c :: cs =>
    if c == ']' && !first then
      .ok ((if pending then ('-', '-') :: ranges else ranges).reverse, cs)
    else if c == '-' && !first && !pending then readClass ranges false true cs
    else if pending then
      match ranges with
      | (low, _) :: rest =>
        if c < low then .error (.invalidRange low c)
        else readClass ((low, c) :: rest) false false cs
      | [] => readClass [(c, c)] false false cs
    else readClass ((c, c) :: ranges) false false cs

/-- What `**` stands for after the pieces read so far, and how much of the rest belongs to it. -/
def readParts (r : Reader) (cs : List Char) : Reader × List Char :=
  let runs := ((r.push .anyRun).push .anyRun, cs)
  let replaceLast (p : Piece) : Reader :=
    match r.branch with
    | .anyPartsFirst :: _ => r
    | .anyPartsLast :: _ => r
    | _ :: before => { r with branch := p :: before }
    | [] => r.push p
  if r.branch.isEmpty then
    match cs with
    | [] => (r.push .anyPartsFirst, [])
    | '/' :: rest => ({ r.push .anyPartsFirst with last := some '/' }, rest)
    | _ => runs
  else if r.last != some '/' &&
      (r.groups.isEmpty || (r.last != some ',' && r.last != some '\x7b')) then runs
  else
    match cs with
    | [] => (replaceLast .anyPartsLast, [])
    | '/' :: rest => ({ replaceLast .anyPartsInside with last := some '/' }, rest)
    | c :: _ =>
      if (c == ',' || c == '\x7d') && !r.groups.isEmpty then (replaceLast .anyPartsLast, cs)
      else runs

/-- Reads a pattern; every round consumes a character, so `fuel` starts above their number. -/
def readFrom : Nat → Reader → List Char → Except GlobError (List Piece)
  | 0, r, _ => .ok r.branch.reverse
  | _, r, [] => if r.groups.isEmpty then .ok r.branch.reverse else .error .unclosedGroup
  | fuel + 1, r, c :: cs =>
    let plain (p : Piece) := readFrom fuel { r.push p with last := some c } cs
    if c == '?' then plain .anyOne
    else if c == '*' then
      match cs with
      | '*' :: rest =>
        let (r', rest') := readParts r rest
        readFrom fuel (if rest'.length < rest.length then r' else { r' with last := some '*' })
          rest'
      | _ => plain .anyRun
    else if c == '[' then
      let (negated, body) :=
        match cs with
        | '!' :: rest => (true, rest)
        | '^' :: rest => (true, rest)
        | _ => (false, cs)
      match readClass [] true false body with
      | .error e => .error e
      | .ok (ranges, rest) =>
        readFrom fuel { r.push (.oneOf negated ranges) with last := some ']' } rest
    else if c == '\x7b' then readFrom fuel { r.openGroup with last := some c } cs
    else if c == '\x7d' then
      match r.closeGroup with
      | .error e => .error e
      | .ok r' => readFrom fuel { r' with last := some c } cs
    else if c == ',' then readFrom fuel { r.nextChoice with last := some c } cs
    else if c == '\\' then
      match cs with
      | [] => .error .danglingEscape
      | d :: rest => readFrom fuel { r.push (.literal d) with last := some d } rest
    else plain (.literal c)

end Glob

/-- A path pattern. -/
structure Glob where
  pieces : List Glob.Piece
  deriving Repr, Inhabited

namespace Glob

open Text

def parse (pattern : String) : Except GlobError Glob :=
  match readFrom (pattern.length + 1) {} pattern.toList with
  | .ok pieces => .ok ⟨pieces⟩
  | .error e => .error e

/-! ## Matching -/

/-- A byte as a character, so that a path can be matched byte by byte. -/
def ofByte (b : UInt8) : Char := Char.ofNat b.toNat

def bytesOf (c : Char) : List Char := (encode (String.singleton c)).map ofByte

def anyByte : Regex := .char .everything

def slash : Regex := .one '/'

/-- The bytes of a class. Both ends of a range stand for all their bytes, so the range itself goes
from the last byte of the lower to the first byte of the upper end. -/
def rangeClass (r : Char × Char) : List (Char × Char) :=
  if r.1 == r.2 then (bytesOf r.1).map fun b => (b, b)
  else
    let low := bytesOf r.1
    let high := bytesOf r.2
    low.dropLast.map (fun b => (b, b)) ++
      [(low.getLast?.getD r.1, high.head?.getD r.2)] ++ high.tail.map fun b => (b, b)

mutual

def Piece.toRegex : Piece → Regex
  | .literal c => .seqs ((bytesOf c).map .one)
  | .anyOne => anyByte
  | .anyRun => .many anyByte
  | .anyPartsFirst => .alt (.opt slash) (.seq (.many anyByte) slash)
  | .anyPartsLast => .seq slash (.many anyByte)
  | .anyPartsInside => .alt slash (.seqs [slash, .many anyByte, slash])
  | .oneOf negated ranges =>
    let cls := Regex.CharClass.ofRanges (ranges.flatMap rangeClass)
    .char (if negated then .compl cls else cls)
  | .anyOf choices =>
    match choicesToRegex choices with
    | [] => .empty
    | rs => .alts rs

def piecesToRegex : List Piece → Regex
  | [] => .empty
  | p :: ps => .seq p.toRegex (piecesToRegex ps)

/-- The choices that say something. -/
def choicesToRegex : List (List Piece) → List Regex
  | [] => []
  | [] :: rest => choicesToRegex rest
  | (p :: ps) :: rest => piecesToRegex (p :: ps) :: choicesToRegex rest

end

def toRegex (g : Glob) : Regex :=
  match g.pieces with
  | [.anyPartsFirst] => .seqs [.anchor .textStart, .many anyByte, .anchor .textEnd]
  | ps => .seqs [.anchor .textStart, piecesToRegex ps, .anchor .textEnd]

def isMatch (g : Glob) (path : String) : Bool :=
  g.toRegex.isMatch ((encode path).map ofByte)

/-- All patterns, or the text about the first that is none. -/
def parseAll : List String → Except String (List Glob)
  | [] => .ok []
  | p :: ps =>
    match parse p with
    | .error e => .error (errorText p e)
    | .ok g =>
      match parseAll ps with
      | .ok gs => .ok (g :: gs)
      | .error e => .error e

def anyMatch (globs : List Glob) (path : String) : Bool := globs.any (·.isMatch path)

end Glob

end LeakScan
