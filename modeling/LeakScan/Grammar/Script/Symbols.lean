import LeakScan.Grammar.Blank

/-!
# LeakScan.Grammar.Script.Symbols

What the grammars of JavaScript and TypeScript share: symbols, words, literals and the end of a
statement.

* `Dialect` — with or without types and markup.
* `semicolon` — the end of a statement: a semicolon, a closing brace, the end of the text, or a line
  end after which the statement cannot go on.
-/

namespace LeakScan.Grammar.Script

open Text Regex Phrase

structure Dialect where
  types : Bool
  markup : Bool
  deriving DecidableEq, Repr

inductive Symbol where
  | file
  | statement
  | block
  | classBody
  /-- Expressions with commas between them. -/
  | expression
  /-- One expression. -/
  | value
  | unary
  | operand
  | template
  | object
  | arguments
  | parameters
  | pattern
  | decorator
  | element
  | type
  | unionType
  | objectType
  deriving DecidableEq, Repr

abbrev P := Phrase Symbol

def reserved : List String :=
  ["break", "case", "catch", "class", "const", "continue", "debugger", "default", "delete", "do",
    "else", "export", "extends", "false", "finally", "for", "function", "if", "import", "in",
    "instanceof", "new", "null", "return", "super", "switch", "this", "throw", "true", "try",
    "typeof", "var", "void", "while", "with"]

def ident : P := .seq .gap (.word reserved)

/-- Any word, as the name of a property. -/
def anyWord : P := .seq .gap (.word [])

def name : P := .part .name (other ident)

def comma : P := sign ","

def value : P := .symbol .value

/-- A phrase that only some dialects have. -/
def whenever (b : Bool) (p : P) : P := if b then p else never

/-- A phrase that some dialects allow. -/
def maybe (b : Bool) (p : P) : P := if b then opt p else .empty

/-- A word on the same line as what follows it. -/
def kwHere (s : String) : P :=
  .seq (kw s) (.absent (.seq .lineGap (.text ['\n'])))

/-! ## Literals -/

def string : P := .node .literal (.seq .gap (.alt (quotedText '"') (quotedText '\'')))

def decimals : P := .seq (.one digit) (.many (.one (.union digit (.one '_'))))

def exponent : P := seqs [.one (.ofChars "eE"), opt (.one (.ofChars "+-")), decimals]

def hexDigit : CharClass :=
  .union digit (.union (.range 'a' 'f') (.union (.range 'A' 'F') (.one '_')))

def numeral : P :=
  .node .literal (seqs [.gap, alts [
    seqs [.text ['0'], .one (.ofChars "xXoObB"), plus (.one hexDigit)],
    seqs [.text ['.'], decimals, opt exponent],
    seqs [decimals, opt (.seq (.text ['.']) (opt decimals)), opt exponent]], opt (.text ['n'])])

def regex : P :=
  let escape : P := .seq (.text ['\\']) (.one (.noneOf "\n"))
  other (seqs [.gap, .text ['/'], .absent (.one (.ofChars "/*")),
    plus (alts [escape,
      seqs [.text ['['], .many (.alt escape (.one (.noneOf "]\\\n"))), .text [']']],
      .one (.noneOf "/\\[\n")]),
    .text ['/'], .many (.one (.range 'a' 'z'))])

def templateRule : P :=
  other (seqs [.gap, .text ['\x60'], .many (alts [
      .seq (.text ['\\']) (.one .everything),
      other (seqs [.text "$\x7b".toList, .symbol .expression, sign "\x7d"]),
      .seq (.absent (.text "$\x7b".toList)) (.one (.noneOf "\x60\\"))]),
    .text ['\x60']])

/-- A template of types. -/
def templateType : P :=
  seqs [.gap, .text ['\x60'], .many (alts [
      .seq (.text ['\\']) (.one .everything),
      seqs [.text "$\x7b".toList, .symbol .type, sign "\x7d"],
      .seq (.absent (.text "$\x7b".toList)) (.one (.noneOf "\x60\\"))]),
    .text ['\x60']]

def privateName : P := seqs [sign "#", .word []]

def computedName : P := seqs [sign "[", .symbol .value, sign "]"]

/-- The name of a property or member. -/
def propertyName : P :=
  other (alts [anyWord, string, numeral, computedName, privateName])

/-! ## Ends of statements -/

/-- What goes on with an expression on the next line. -/
def goesOn (opening : String) : P :=
  alts [.one (.ofChars ("\x60,:;*%><=?^|&/" ++ opening)),
    .seq (.text ['.']) (.absent (.one digit)),
    .seq (.text ['+']) (.absent (.text ['+'])),
    .seq (.text ['-']) (.absent (.text ['-'])),
    .text "!=".toList,
    .keyword "in", .keyword "instanceof"]

def endHere (opening : String) : P :=
  .ahead (alts [
    .seq .wideGap (.text ['\x7d']),
    .seq .wideGap .ending,
    seqs [.lineGap, .text ['\n'], .wideGap, .absent (goesOn opening)]])

def semicolon : P := .alt (sign ";") (endHere "[(")

/-- The end of a declaration that no expression ends. -/
def typeEnd : P := .alt (sign ";") (endHere "")

end LeakScan.Grammar.Script
