import LeakScan.Regex.CharClass
import LeakScan.Text.Span

/-!
# LeakScan.Regex.Basic

Regular expressions with named groups, and their leftmost-first matching.

* `Regex` — the expressions.
* `Cursor` — a place in a text: what stands before it and what follows.
* `Regex.run` — backtracking search in priority order, by a continuation. A greedy repetition
  tries another round first, a lazy one tries to stop first; a round that consumes nothing ends
  its repetition, so the length of the rest of the text bounds every loop.
* `Regex.matchAt` — the preferred match that starts at a cursor.
-/

namespace LeakScan

open Text

/-- Conditions on a place in the text that consume nothing. -/
inductive Regex.Anchor where
  | textStart
  | textEnd
  | lineStart
  | lineEnd
  /-- Like `lineStart` and `lineEnd`, for lines that may end in carriage return and line feed. -/
  | wideLineStart
  | wideLineEnd
  | boundary
  | noBoundary
  | asciiBoundary
  | noAsciiBoundary
  | wordStart
  | wordEnd
  | wordStartHalf
  | wordEndHalf
  deriving Repr, DecidableEq

inductive Regex where
  | empty
  | char (k : Regex.CharClass)
  | anchor (a : Regex.Anchor)
  | seq (a b : Regex)
  | alt (a b : Regex)
  | star (greedy : Bool) (r : Regex)
  /-- At least `least` rounds and, with `most = some m`, at most `m`. -/
  | rep (greedy : Bool) (least : Nat) (most : Option Nat) (r : Regex)
  | group (name : String) (r : Regex)
  deriving Repr, DecidableEq, Inhabited

namespace Regex

/-- A place in a text. `offset` counts the bytes before it. -/
structure Cursor where
  before : Option Char := none
  rest : List Char
  offset : Nat := 0
  deriving Repr, DecidableEq

namespace Cursor

def ofText (cs : List Char) : Cursor := { rest := cs }

/-- One character further on; the end of the text stays where it is. -/
def next (p : Cursor) : Cursor :=
  match p.rest with
  | [] => p
  | c :: cs => { before := some c, rest := cs, offset := p.offset + c.utf8Size }

end Cursor

/-- A path of the search: where it stands and the groups it has closed, latest first. -/
structure Thread where
  cursor : Cursor
  groups : List (String × Span) := []
  deriving Repr, DecidableEq

def isAsciiWord (c : Char) : Bool := c.isAlphanum || c == '_'

def Anchor.holds (a : Anchor) (p : Cursor) : Bool :=
  let before := p.before
  let after := p.rest.head?
  let wordBefore := before.any isWordChar
  let wordAfter := after.any isWordChar
  match a with
  | .textStart => before.isNone
  | .textEnd => after.isNone
  | .lineStart => before.isNone || before == some '\n'
  | .lineEnd => after.isNone || after == some '\n'
  | .wideLineStart =>
    before.isNone || before == some '\n' || (before == some '\r' && after != some '\n')
  | .wideLineEnd =>
    after.isNone || after == some '\r' || (after == some '\n' && before != some '\r')
  | .boundary => wordBefore != wordAfter
  | .noBoundary => wordBefore == wordAfter
  | .asciiBoundary => before.any isAsciiWord != after.any isAsciiWord
  | .noAsciiBoundary => before.any isAsciiWord == after.any isAsciiWord
  | .wordStart => !wordBefore && wordAfter
  | .wordEnd => wordBefore && !wordAfter
  | .wordStartHalf => !wordBefore
  | .wordEndHalf => !wordAfter

/-- What is left to match after a path reaches some place. -/
abbrev Cont := Thread → Option Thread

/-- Repeats `body` up to `fuel` times. After a round that consumes nothing only stopping is
left. -/
def loop (body : Cont → Cont) (greedy : Bool) : Nat → Cont → Cont
  | 0, k, t => k t
  | fuel + 1, k, t =>
    let more := fun (_ : Unit) =>
      body (fun u => if t.cursor.offset < u.cursor.offset then loop body greedy fuel k u else k u) t
    if greedy then
      match more () with
      | some u => some u
      | none => k t
    else
      match k t with
      | some u => some u
      | none => more ()

/-- Exactly `n` rounds. -/
def times (body : Cont → Cont) : Nat → Cont → Cont
  | 0, k => k
  | n + 1, k => body (times body n k)

/-- At most `n` rounds, one at a time. -/
def upTo (body : Cont → Cont) (greedy : Bool) : Nat → Cont → Cont
  | 0, k, t => k t
  | n + 1, k, t =>
    if greedy then
      match body (upTo body greedy n k) t with
      | some u => some u
      | none => k t
    else
      match k t with
      | some u => some u
      | none => body (upTo body greedy n k) t

def run : Regex → Cont → Cont
  | .empty, k, t => k t
  | .char c, k, t =>
    match t.cursor.rest with
    | [] => none
    | x :: _ => if c.contains x then k { t with cursor := t.cursor.next } else none
  | .anchor a, k, t => if a.holds t.cursor then k t else none
  | .seq a b, k, t => run a (fun u => run b k u) t
  | .alt a b, k, t =>
    match run a k t with
    | some u => some u
    | none => run b k t
  | .star greedy r, k, t =>
    loop (fun k' u => run r k' u) greedy (t.cursor.rest.length + 1) k t
  | .rep greedy least none r, k, t =>
    times (fun k' u => run r k' u) least
      (fun u => loop (fun k' v => run r k' v) greedy (u.cursor.rest.length + 1) k u) t
  | .rep greedy least (some most) r, k, t =>
    times (fun k' u => run r k' u) least
      (upTo (fun k' u => run r k' u) greedy (most - least) k) t
  | .group name r, k, t =>
    run r (fun u =>
      k { u with groups := (name, ⟨t.cursor.offset, u.cursor.offset⟩) :: u.groups }) t

/-- A match: its span and the groups that took part in it. -/
structure Match where
  span : Span
  groups : List (String × Span)
  deriving Repr, DecidableEq

namespace Match

def group? (m : Match) (name : String) : Option Span := m.groups.lookup name

end Match

/-- The preferred match that starts at `p`, with the place where it ends. -/
def matchAt (r : Regex) (p : Cursor) : Option (Match × Cursor) :=
  match run r some { cursor := p } with
  | some t => some (⟨⟨p.offset, t.cursor.offset⟩, t.groups⟩, t.cursor)
  | none => none

/-! ## Building expressions -/

def one (c : Char) : Regex := .char (.one c)

def chars (s : String) : Regex := .char (.ofChars s)

def noneOf (s : String) : Regex := .char (.noneOf s)

def word : Regex := .char .word

def blank : Regex := .char .blank

def decimal : Regex := .char .decimal

def seqs : List Regex → Regex
  | [] => .empty
  | [r] => r
  | r :: rs => .seq r (seqs rs)

def alts : List Regex → Regex
  | [] => .char .nothing
  | [r] => r
  | r :: rs => .alt r (alts rs)

/-- The text itself. -/
def text (s : String) : Regex := seqs (s.toList.map one)

/-- The first of the texts that fits. -/
def oneOf (ss : List String) : Regex := alts (ss.map text)

def opt (r : Regex) : Regex := .alt r .empty

def many (r : Regex) : Regex := .star true r

def plus (r : Regex) : Regex := .seq r (.star true r)

end Regex

end LeakScan
