import LeakScan.Grammar.Tree
import LeakScan.Regex.CharClass

/-!
# LeakScan.Grammar.Phrase

Grammars as data, and how they read a text.

* `Item` — a character with its place, or a mark that the layout of the text puts in.
* `Phrase` — what a grammar can ask for: characters, words, sequences, choices, repetitions, other
  symbols, and constructs to be reported. Choices are tried in order.
* `Lexicon` — words, and what may stand between them.
* `Grammar`, `Grammar.parse?` — a phrase for each symbol. Reading a symbol uses the rules with one
  unit of fuel less.
-/

namespace LeakScan.Grammar

open Text Regex

inductive Mark where
  | newline
  | indent
  | dedent
  deriving DecidableEq, Repr, Inhabited

inductive Item where
  | char (c : Char) (offset : Nat)
  | mark (m : Mark) (offset : Nat)
  deriving DecidableEq, Repr, Inhabited

/-- The characters of a text with their byte offsets. -/
def itemsFrom (offset : Nat) : List Char → List Item
  | [] => []
  | c :: cs => .char c offset :: itemsFrom (offset + c.utf8Size) cs

def items (cs : List Char) : List Item := itemsFrom 0 cs

inductive Phrase (σ : Type) where
  | empty
  | one (c : CharClass)
  | text (s : List Char)
  | mark (m : Mark)
  /-- The end of the text. -/
  | ending
  /-- A whole word that is none of some. -/
  | word (excluded : List String)
  | keyword (s : String)
  /-- What may stand between words; line ends only where they do not count. -/
  | gap
  /-- What may stand between words, line ends included. -/
  | wideGap
  /-- What may stand between words on one line. -/
  | lineGap
  | seq (a b : Phrase σ)
  | alt (a b : Phrase σ)
  | many (a : Phrase σ)
  | ahead (a : Phrase σ)
  | absent (a : Phrase σ)
  | symbol (s : σ)
  | node (k : Kind) (a : Phrase σ)
  | part (p : Part) (a : Phrase σ)
  /-- A phrase and what makes it grow to the right. -/
  | grow (a b : Phrase σ)
  /-- A phrase and what follows it; the second says what both are together. -/
  | finish (a b : Phrase σ)
  /-- A construct whose first part is what has been read so far. -/
  | suffix (k : Kind) (p : Part) (a : Phrase σ)
  /-- Nothing, unless what has been read so far is of some kind. -/
  | notAfter (ks : List Kind)
  /-- Line ends count inside, or not. -/
  | lines (count : Bool) (a : Phrase σ)
  deriving Inhabited

structure Lexicon where
  isStart : Char → Bool
  isPart : Char → Bool
  /-- Leaves out all that may stand between words. -/
  skip : List Item → List Item
  /-- Leaves out what may stand between words on one line. -/
  skipLine : List Item → List Item

/-- What was read: constructs, the stretch from the first to the last character, and the rest. -/
structure Found where
  trees : List (Part × Tree) := []
  span : Option Span := none
  rest : List Item

/-- The stretch that covers two stretches, the first of which comes first. -/
def hull : Option Span → Option Span → Option Span
  | some a, some b => some ⟨a.start, b.stop⟩
  | some a, none => some a
  | none, b => b

/-- What the constructs so far are, for a suffix. -/
structure Left where
  trees : List (Part × Tree) := []
  span : Option Span := none

structure Setting (σ : Type) where
  lexicon : Lexicon
  /-- More than the number of items. -/
  size : Nat
  read : σ → Bool → List Item → Option Found

namespace Phrase

def readText : List Char → Option Span → List Item → Option Found
  | [], span, rest => some { span := span, rest := rest }
  | c :: cs, span, .char d offset :: rest =>
    if c == d then readText cs (hull span (some ⟨offset, offset + d.utf8Size⟩)) rest else none
  | _ :: _, _, _ => none

/-- The characters of a word from its second on. -/
def wordTail (isPart : Char → Bool) (acc : List Char) (stop : Nat) :
    List Item → List Char × Nat × List Item
  | .char c offset :: rest =>
    if isPart c then wordTail isPart (c :: acc) (offset + c.utf8Size) rest
    else (acc.reverse, stop, .char c offset :: rest)
  | rest => (acc.reverse, stop, rest)

def readWord (l : Lexicon) (wanted : String → Bool) : List Item → Option Found
  | .char c offset :: rest =>
    if l.isStart c then
      let (letters, stop, after) := wordTail l.isPart [c] (offset + c.utf8Size) rest
      if wanted (String.ofList letters) then some { span := some ⟨offset, stop⟩, rest := after }
      else none
    else none
  | _ => none

/-- Repeats a phrase as long as it takes something in; `fuel` bounds the rounds. The constructs so
far are kept from the last one to the first. -/
def repeatFrom (body : List Item → Option Found) : Nat → Found → Found
  | 0, found => found
  | fuel + 1, found =>
    match body found.rest with
    | none => found
    | some more =>
      if more.span.isSome then
        repeatFrom body fuel {
          trees := more.trees.reverse ++ found.trees, span := hull found.span more.span
          rest := more.rest }
      else found

def repeated (body : List Item → Option Found) (fuel : Nat) (rest : List Item) : Found :=
  let found := repeatFrom body fuel { rest := rest }
  { found with trees := found.trees.reverse }

/-- Lets a phrase grow as long as it takes something in. -/
def growing (body : Left → List Item → Option Found) : Nat → Found → Found
  | 0, found => found
  | fuel + 1, found =>
    match body ⟨found.trees, found.span⟩ found.rest with
    | none => found
    | some more =>
      if (found.span.map (·.stop)) != (more.span.map (·.stop)) then growing body fuel more
      else found

def spanOr (span : Option Span) (rest : List Item) : Span :=
  match span, rest with
  | some s, _ => s
  | none, .char _ o :: _ => ⟨o, o⟩
  | none, .mark _ o :: _ => ⟨o, o⟩
  | none, [] => ⟨0, 0⟩

def run (s : Setting σ) (count : Bool) (left : Left) : Phrase σ → List Item → Option Found
  | .empty, rest => some { rest := rest }
  | .one cls, rest =>
    match rest with
    | .char c offset :: after =>
      if cls.contains c then some { span := some ⟨offset, offset + c.utf8Size⟩, rest := after }
      else none
    | _ => none
  | .text cs, rest => readText cs none rest
  | .mark m, rest =>
    match rest with
    | .mark n offset :: after =>
      if m == n then some { span := some ⟨offset, offset⟩, rest := after } else none
    | _ => none
  | .ending, rest => if rest.isEmpty then some { rest := rest } else none
  | .word excluded, rest => readWord s.lexicon (fun w => !excluded.contains w) rest
  | .keyword w, rest => readWord s.lexicon (· == w) rest
  | .gap, rest => some { rest := if count then s.lexicon.skipLine rest else s.lexicon.skip rest }
  | .wideGap, rest => some { rest := s.lexicon.skip rest }
  | .lineGap, rest => some { rest := s.lexicon.skipLine rest }
  | .seq a b, rest =>
    match run s count left a rest with
    | none => none
    | some x =>
      match run s count left b x.rest with
      | none => none
      | some y =>
        some { trees := x.trees ++ y.trees, span := hull x.span y.span, rest := y.rest }
  | .alt a b, rest =>
    match run s count left a rest with
    | some x => some x
    | none => run s count left b rest
  | .many a, rest =>
    some (repeated (fun r => run s count left a r) s.size rest)
  | .ahead a, rest =>
    match run s count left a rest with
    | some _ => some { rest := rest }
    | none => none
  | .absent a, rest =>
    match run s count left a rest with
    | some _ => none
    | none => some { rest := rest }
  | .symbol x, rest => s.read x count rest
  | .node k a, rest =>
    match run s count left a rest with
    | none => none
    | some x =>
      some { trees := [(.plain, .node k (spanOr x.span rest) x.trees)], span := x.span
             rest := x.rest }
  | .part p a, rest =>
    match run s count left a rest with
    | none => none
    | some x => some { x with trees := x.trees.map fun t => (p, t.2) }
  | .grow a b, rest =>
    match run s count left a rest with
    | none => none
    | some x => some (growing (fun l r => run s count l b r) s.size x)
  | .finish a b, rest =>
    match run s count left a rest with
    | none => none
    | some x => run s count ⟨x.trees, x.span⟩ b x.rest
  | .suffix k p a, rest =>
    match run s count {} a rest with
    | none => none
    | some x =>
      let span := hull left.span x.span
      let first := left.trees.map fun t => (p, t.2)
      some { trees := [(.plain, .node k (spanOr span rest) (first ++ x.trees))], span := span
             rest := x.rest }
  | .notAfter ks, rest =>
    match left.trees.getLast? with
    | some (_, t) => if ks.contains t.kind then none else some { rest := rest }
    | none => some { rest := rest }
  | .lines c a, rest => run s c left a rest

/-! ## Building phrases -/

def seqs : List (Phrase σ) → Phrase σ
  | [] => .empty
  | [p] => p
  | p :: ps => .seq p (seqs ps)

def never : Phrase σ := .one .nothing

def alts : List (Phrase σ) → Phrase σ
  | [] => never
  | [p] => p
  | p :: ps => .alt p (alts ps)

def opt (p : Phrase σ) : Phrase σ := .alt p .empty

def plus (p : Phrase σ) : Phrase σ := .seq p (.many p)

/-- A sign after what may stand before it. -/
def sign (s : String) : Phrase σ := .seq .gap (.text s.toList)

/-- A sign that is not the start of a longer one. -/
def signNot (s : String) (next : String) : Phrase σ :=
  seqs [.gap, .text s.toList, .absent (.one (.ofChars next))]

/-- The longest of some signs, which are given with the longer ones first. -/
def signs (ss : List String) : Phrase σ := .seq .gap (alts (ss.map fun s => .text s.toList))

def kw (s : String) : Phrase σ := .seq .gap (.keyword s)

def kws (ss : List String) : Phrase σ := .seq .gap (alts (ss.map .keyword))

/-- Items with separators between them. -/
def sep (p divider : Phrase σ) : Phrase σ := .seq p (.many (.seq divider p))

/-- A list in which the last divider may be left open, or nothing. -/
def listOf (p divider : Phrase σ) : Phrase σ := opt (.seq (sep p divider) (opt divider))

/-- One phrase, or several of them as a construct of their own. -/
def other (p : Phrase σ) : Phrase σ := .node .other p

/-- A construct only if something follows the first phrase. -/
def chain (first rest : Phrase σ) : Phrase σ := .grow first (.suffix .other .plain rest)

end Phrase

/-! ## Reading -/

end Grammar

structure Grammar (σ : Type) where
  lexicon : Grammar.Lexicon
  rule : σ → Grammar.Phrase σ
  start : σ

namespace Grammar

/-- Reads a symbol with at most `fuel` symbols inside each other. -/
def read (g : Grammar σ) (size : Nat) : Nat → σ → Bool → List Item → Option Found
  | 0, _, _, _ => none
  | fuel + 1, x, count, rest =>
    (g.rule x).run ⟨g.lexicon, size, g.read size fuel⟩ count {} rest

/-- How deep symbols may stand inside each other for each character of a text. -/
def depthPerItem : Nat := 40

/-- The constructs of a whole text. -/
def parse? (g : Grammar σ) (text : List Item) : Option Tree :=
  let size := text.length + 1
  match g.read size (depthPerItem * size) g.start true text with
  | some found =>
    if (g.lexicon.skip found.rest).isEmpty then
      some (.node .other (Phrase.spanOr found.span text) found.trees)
    else none
  | none => none

end Grammar

end LeakScan
