import LeakScan.Json.Number
import LeakScan.Text.Split

/-!
# LeakScan.Yaml.Scalar

Strings as YAML scalars.

* `looksTyped` — texts that a reader would take for a number, a truth value or nothing.
* `Style`, `styleOf` — how a text is written: plain if that reads back, else in single quotes, as a
  block of lines, or in double quotes with escapes.
* `scalar`, `field` — the scalar of a string, and a field with a scalar.
-/

namespace LeakScan.Yaml

open Text

/-! ## Texts that would be read as something else -/

def isDigitIn (base : Nat) (c : Char) : Bool :=
  let value :=
    if '0' ≤ c ∧ c ≤ '9' then c.toNat - '0'.toNat
    else if 'a' ≤ c ∧ c ≤ 'z' then c.toNat - 'a'.toNat + 10
    else if 'A' ≤ c ∧ c ≤ 'Z' then c.toNat - 'A'.toNat + 10
    else 99
  value < base

/-- The value of digits up to base sixteen. -/
def digitValue (c : Char) : Nat :=
  if '0' ≤ c ∧ c ≤ '9' then c.toNat - '0'.toNat
  else if 'a' ≤ c ∧ c ≤ 'f' then c.toNat - 'a'.toNat + 10
  else c.toNat - 'A'.toNat + 10

/-- Digits of a base whose value is below a limit. -/
def isNatural (base limit : Nat) (cs : List Char) : Bool :=
  !cs.isEmpty && cs.all (isDigitIn base) &&
    cs.foldl (fun n c => n * base + digitValue c) 0 < limit

def stripSign (cs : List Char) : List Char :=
  match cs with
  | '-' :: rest => rest
  | '+' :: rest => rest
  | _ => cs

/-- Several digits of which the first is zero are a text, not a number. -/
def isZeroPadded (cs : List Char) : Bool :=
  match stripSign cs with
  | '0' :: d :: rest => (d :: rest).all Char.isDigit
  | _ => false

/-- An integer with an optional sign and an optional mark of its base. -/
def isInteger (cs : List Char) : Bool :=
  let (negative, body) :=
    match cs with
    | '-' :: rest => (true, rest)
    | '+' :: rest => (false, rest)
    | _ => (false, cs)
  let limit := if negative then Nat.pow 2 127 + 1 else Nat.pow 2 128
  match body with
  | '0' :: 'x' :: ds => isNatural 16 limit ds
  | '0' :: 'o' :: ds => isNatural 8 limit ds
  | '0' :: 'b' :: ds => isNatural 2 limit ds
  | _ => !isZeroPadded cs && isNatural 10 limit body

/-- A decimal number that is not too large, or one of the words for infinity and no number. -/
def isDecimalText (cs : List Char) : Bool :=
  let unsigned := stripSign cs
  let whole := unsigned.takeWhile Char.isDigit
  let rest := unsigned.dropWhile Char.isDigit
  let (places, rest) :=
    match rest with
    | '.' :: r => (r.takeWhile Char.isDigit, r.dropWhile Char.isDigit)
    | _ => ([], rest)
  let value := (whole ++ places).foldl (fun n c => n * 10 + digitValue c) 0
  let finite (exponent : Int) : Bool :=
    ((⟨false, value, exponent - Int.ofNat places.length⟩ : Json.Decimal).toBinary?).isSome
  let word := String.ofList cs
  if [".inf", ".Inf", ".INF", "+.inf", "+.Inf", "+.INF", "-.inf", "-.Inf", "-.INF", ".nan", ".NaN",
      ".NAN"].contains word then true
  else if whole.isEmpty && places.isEmpty then false
  else
    match rest with
    | [] => finite 0
    | e :: r =>
      let ds := stripSign r
      let sign : Int := if r.head? == some '-' then -1 else 1
      (e == 'e' || e == 'E') && !ds.isEmpty && ds.all Char.isDigit &&
        finite (sign * Int.ofNat (ds.foldl (fun n c => n * 10 + digitValue c) 0))

/-- Words for truth values and for nothing, old spellings included. -/
def reservedWords : List String :=
  ["", "~", "null", "Null", "NULL", "y", "Y", "yes", "Yes", "YES", "n", "N", "no", "No", "NO",
    "true", "True", "TRUE", "false", "False", "FALSE", "on", "On", "ON", "off", "Off", "OFF"]

def looksTyped (s : String) : Bool :=
  reservedWords.contains s || isZeroPadded s.toList || isInteger s.toList ||
    isDecimalText s.toList

/-! ## Choice of style -/

inductive Style where
  | plain
  | single
  | double
  | block
  deriving DecidableEq, Repr

def isBreak (c : Char) : Bool :=
  c == '\n' || c == '\r' || c == '\x85' || c == '\u2028' || c == '\u2029'

/-- Characters that may stand unescaped. -/
def isPrintable (c : Char) : Bool :=
  let n := c.toNat
  n == 0x0A || (0x20 ≤ n && n ≤ 0x7E) || (0xA0 ≤ n && n ≤ 0xD7FF) ||
    (0xE000 ≤ n && n ≤ 0xFFFD && n != 0xFEFF)

def isBlankOrEnd (c : Option Char) : Bool :=
  match c with
  | none => true
  | some c => c == ' ' || c == '\t' || isBreak c

/-- A character at the start of a text that has a meaning there. -/
def indicatesAtStart (c : Char) (next : Option Char) : Bool :=
  "#,[]\x7b\x7d&*!|>'\"%@\x60".toList.contains c ||
    ((c == '?' || c == ':' || c == '-') && isBlankOrEnd next)

/-- A character inside a text that has a meaning there. -/
def indicatesInside (before c : Char) (next : Option Char) : Bool :=
  (c == ':' && isBlankOrEnd next) || (c == '#' && isBlankOrEnd (some before))

def hasIndicatorAfter (before : Char) : List Char → Bool
  | [] => false
  | c :: cs => indicatesInside before c cs.head? || hasIndicatorAfter c cs

/-- The text holds something that would end or start a structure when written plainly. -/
def hasIndicator (cs : List Char) : Bool :=
  match cs with
  | [] => false
  | c :: rest =>
    startsWith ['-', '-', '-'] cs || startsWith ['.', '.', '.'] cs ||
      indicatesAtStart c rest.head? || hasIndicatorAfter c rest

/-- Two neighbours with given properties. -/
def hasNeighbours (p q : Char → Bool) : List Char → Bool
  | a :: b :: rest => (p a && q b) || hasNeighbours p q (b :: rest)
  | _ => false

def isSpace (c : Char) : Bool := c == ' '

/-- Blanks before a break, or a character that has to be escaped. -/
def needsEscapes (cs : List Char) : Bool :=
  hasNeighbours isSpace isBreak cs || cs.any fun c => !isPrintable c

def allowsSingle (cs : List Char) : Bool :=
  !needsEscapes cs && !hasNeighbours isBreak isSpace cs

def allowsBlock (cs : List Char) : Bool :=
  !needsEscapes cs && !cs.isEmpty && !cs.getLast?.any isSpace

def allowsPlain (cs : List Char) : Bool :=
  let atEnd (c : Char) : Bool := isSpace c || isBreak c
  allowsSingle cs && !hasIndicator cs && !cs.any isBreak && !cs.head?.any atEnd &&
    !cs.getLast?.any atEnd

def styleOf (s : String) : Style :=
  let cs := s.toList
  let quotes : Style := if allowsSingle cs then .single else .double
  if looksTyped s then quotes
  else if cs.contains '\n' then if allowsBlock cs then .block else .double
  else if allowsPlain cs then .plain
  else quotes

/-! ## Writing -/

/-- The text between single quotes. A break stands on a line of its own, and the line after it is
indented. -/
def singleBody (indent : List Char) (broken : Bool) : List Char → List Char
  | [] => if broken then indent else []
  | c :: cs =>
    if isSpace c then c :: singleBody indent broken cs
    else if isBreak c then
      (if !broken && c == '\n' then ['\n'] else []) ++ c :: singleBody indent true cs
    else
      (if broken then indent else []) ++ (if c == '\'' then ['\''] else []) ++
        c :: singleBody indent false cs

def hexText (width n : Nat) : List Char :=
  let digits := (Nat.toDigits 16 n).map Char.toUpper
  List.replicate (width - digits.length) '0' ++ digits

def escapeOf (c : Char) : List Char :=
  match c with
  | '\x00' => ['0']
  | '\x07' => ['a']
  | '\x08' => ['b']
  | '\t' => ['t']
  | '\n' => ['n']
  | '\x0b' => ['v']
  | '\x0c' => ['f']
  | '\r' => ['r']
  | '\x1b' => ['e']
  | '"' => ['"']
  | '\\' => ['\\']
  | '\x85' => ['N']
  | '\u2028' => ['L']
  | '\u2029' => ['P']
  | _ =>
    let n := c.toNat
    if n ≤ 0xFF then 'x' :: hexText 2 n
    else if n ≤ 0xFFFF then 'u' :: hexText 4 n
    else 'U' :: hexText 8 n

def doubleBody (cs : List Char) : List Char :=
  cs.flatMap fun c =>
    if !isPrintable c || isBreak c || c == '"' || c == '\\' then '\\' :: escapeOf c else [c]

/-- The lines of a block, each indented unless it is empty. -/
def blockBody (indent : List Char) (fresh : Bool) : List Char → List Char
  | [] => []
  | c :: cs =>
    if isBreak c then c :: blockBody indent true cs
    else (if fresh then indent else []) ++ c :: blockBody indent false cs

/-- Marks of a block: how deep it is indented when its start does not show it, and what to do with
the breaks at its end. -/
def blockHints (cs : List Char) : List Char :=
  let depth := if cs.head?.any (fun c => isSpace c || isBreak c) then ['2'] else []
  match cs.reverse with
  | [] => depth ++ ['-']
  | last :: rest =>
    if !isBreak last then depth ++ ['-']
    else if rest.head?.all isBreak then depth ++ ['+']
    else depth

/-- A string as the value of a field, `level` being the indentation of what belongs to it. -/
def scalar (level : Nat) (s : String) : String :=
  let cs := s.toList
  let indent := List.replicate level ' '
  String.ofList <|
    match styleOf s with
    | .plain => cs
    | .single => '\'' :: singleBody indent false cs ++ ['\'']
    | .double => '"' :: doubleBody cs ++ ['"']
    | .block => '|' :: blockHints cs ++ '\n' :: blockBody indent true cs

/-- A field on a line of its own. A block may already end its last line. -/
def field (level : Nat) (name value : String) : String :=
  let body := scalar (level + 2) value
  String.ofList (List.replicate level ' ') ++ name ++ ": " ++ body ++
    if body.toList.getLast? == some '\n' then "" else "\n"

end LeakScan.Yaml
