import LeakScan.Grammar.Blank
import LeakScan.Grammar.Python.Layout

/-!
# LeakScan.Grammar.Python

The grammar of Python, as far as scopes need it. Line ends are white space; the marks of the layout
end statements and delimit blocks.

* `Python.Symbol`, `Python.grammar` — the grammar.
-/

namespace LeakScan.Grammar.Python

open Text Regex Phrase

inductive Symbol where
  | file
  | statement
  | suite
  | assignment
  | expressions
  | expression
  /-- An expression without a condition after it. -/
  | test
  | unary
  | primary
  | string
  | field
  deriving DecidableEq, Repr

abbrev P := Phrase Symbol

def reserved : List String :=
  ["False", "None", "True", "and", "as", "assert", "break", "class", "continue", "def", "del",
    "elif", "else", "except", "finally", "for", "from", "global", "if", "import", "in", "is",
    "lambda", "nonlocal", "not", "or", "pass", "raise", "return", "try", "while", "with", "yield"]

def ident : P := .seq .gap (.word reserved)

def name : P := .part .name (other ident)

def comma : P := sign ","

def newline : P := .seq .gap (.mark .newline)

def expression : P := .symbol .expression

/-! ## Strings -/

def quotes : List String := ["\"\"\"", "'''", "\"", "'"]

/-- What may stand in a string between two marks of a kind. -/
def plainChar (quote : String) : P :=
  let excluded := if quote.length == 1 then quote ++ "\\\n" else "\\"
  .seq (.absent (.text quote.toList)) (.one (.noneOf excluded))

def formattedChar (quote : String) : P :=
  let excluded := if quote.length == 1 then quote ++ "\\\n\x7b\x7d" else "\\\x7b\x7d"
  .seq (.absent (.text quote.toList)) (.one (.noneOf excluded))

def escape : P := .seq (.text ['\\']) (.one .everything)

def namedEscape : P :=
  seqs [.text "\\N\x7b".toList, .many (.one (.noneOf "\x7d")), .text ['\x7d']]

def formattedEscape : P :=
  .alt namedEscape (.seq (.text ['\\']) (opt (.one (.noneOf "\x7b\x7d"))))

def plainString : P :=
  seqs [.many (.one (.ofChars "rRbBuU")), alts (quotes.map fun q =>
    seqs [.text q.toList, .many (.alt escape (plainChar q)), .text q.toList])]

def formattedString : P :=
  seqs [.many (.one (.ofChars "rRbBuU")), .one (.ofChars "fF"), .many (.one (.ofChars "rRbBuU")),
    alts (quotes.map fun q => seqs [.text q.toList,
      .many (alts [formattedEscape, .text "\x7b\x7b".toList, .text "\x7d\x7d".toList,
        .symbol .field, formattedChar q]),
      .text q.toList])]

def stringRule : P := other (plus (.seq .gap (.alt formattedString plainString)))

/-- A value inside a string, with how it is to be written. -/
def fieldRule : P :=
  other (seqs [.text ['\x7b'], .alt (kw "yield") (.symbol .expressions), opt (sign "="),
    opt (seqs [sign "!", .one (.range 'a' 'z')]),
    opt (seqs [sign ":", .many (.alt (.symbol .field) (.one (.noneOf "\x7b\x7d\n")))]),
    sign "\x7d"])

/-! ## Expressions -/

def starred : P := .seq .gap (.alt (.text "**".toList) (.text ['*']))

def lambdaParameter : P :=
  .alt (sign "/") (seqs [opt starred, .alt (.seq ident (opt (.seq (sign "=") expression)))
    (.ahead (signs [",", ":"]))])

def lambda : P :=
  .node .closure (seqs [kw "lambda", listOf lambdaParameter comma, sign ":", expression])

/-- Nothing is assigned to what a call gives or to a value that is written out. -/
def place : P := .finish (.symbol .primary) (.notAfter [.call, .literal])

def target : P := seqs [opt (sign "*"), .ahead place, .symbol .primary]

def targets : P := .seq (sep target comma) (opt comma)

/-- The clauses of a comprehension. -/
def clauses : P :=
  plus (.alt
    (seqs [opt (kw "async"), kw "for", targets, kw "in", sep (.alt lambda (.symbol .test)) comma,
      opt comma])
    (seqs [kw "if", .alt lambda (.symbol .test)]))

def element : P := .grow expression (.suffix .other .plain clauses)

def entry : P :=
  .alt (seqs [sign "**", expression])
    (.grow expression (.suffix .binding .name (seqs [sign ":", expression])))

def argument : P :=
  alts [
    other (seqs [ident, signNot "=" "=", expression]),
    other (seqs [sign "**", expression]),
    element]

def arguments : P :=
  .node .arguments (seqs [sign "(", opt (sep argument comma), opt comma, sign ")"])

def yielded : P :=
  other (seqs [kw "yield", .alt (.seq (kw "from") expression) (opt (.symbol .expressions))])

/-- What an opening parenthesis starts: one value, several, or a generator. -/
def parenthesized : P :=
  .finish (seqs [sign "(", opt (.alt yielded expression)])
    (alts [.suffix .parenthesized .plain (sign ")"),
      .suffix .other .plain (seqs [clauses, sign ")"]),
      .suffix .other .plain (seqs [comma, listOf expression comma, sign ")"])])

def slice : P :=
  .alt
    (seqs [opt expression, sign ":", opt expression, opt (.seq (sign ":") (opt expression))])
    expression

def operand : P :=
  alts [.node .literal (.symbol .string), parenthesized,
    other (seqs [sign "[", opt (seqs [element, .many (.seq comma element), opt comma]), sign "]"]),
    .node .literal (seqs [sign "\x7b",
      opt (seqs [.grow entry (.suffix .other .plain clauses), .many (.seq comma entry), opt comma]),
      sign "\x7d"]),
    .node .literal (alts [sign "...", number, kws ["True", "False", "None"]]),
    other ident]

def suffixes : P :=
  alts [
    .suffix .call .callee arguments,
    .suffix .other .plain (seqs [sign ".", .gap, .word []]),
    .suffix .other .plain (seqs [sign "[", listOf slice comma, sign "]"])]

def primaryRule : P :=
  .alt (other (seqs [kw "await", .symbol .primary])) (.grow operand suffixes)

def unaryRule : P :=
  alts [
    other (seqs [.gap,
      .alt (.keyword "not") (alts [.text ['+'], .text ['-'], .text ['~'], .text ['*']]),
      .alt lambda (.symbol .unary)]),
    .symbol .primary]

def augmented : P :=
  signs ["**=", "//=", ">>=", "<<=", "+=", "-=", "*=", "/=", "@=", "%=", "&=", "^=", "|="]

def binaryOperators : List String :=
  ["**", "//", "<<", ">>", "<=", ">=", "==", "!=", "<>", "+", "-", "*", "/", "@", "%", "&", "|",
    "^", "<", ">"]

def binary : P :=
  alts [
    seqs [.absent augmented, .absent (sign "->"), signs binaryOperators, .symbol .unary],
    seqs [kws ["and", "or"], .alt lambda (.symbol .unary)],
    seqs [kw "not", kw "in", .symbol .unary],
    seqs [kw "is", opt (kw "not"), .symbol .unary],
    seqs [kw "in", .symbol .unary]]

def testRule : P := chain (.symbol .unary) binary

def expressionRule : P :=
  alts [lambda,
    other (seqs [ident, sign ":=", expression]),
    .grow (.symbol .test) (alts [
      .suffix .other .plain (seqs [kw "if", .alt lambda (.symbol .test), kw "else", expression]),
      .suffix .other .plain (seqs [kw "as", .symbol .test])])]

/-- One expression, or several with commas between them as a construct of their own. -/
def expressionsRule : P :=
  .grow expression (.suffix .expressions .plain (seqs [comma, listOf expression comma]))

/-! ## Statements -/

/-- Expressions, or their assignment to targets; the right side may be an assignment again. -/
def assignmentRule : P :=
  alts [yielded,
    .seq (.ahead (seqs [sep (.seq (opt (sign "*")) place) comma, opt comma,
        alts [signNot "=" "=", signNot ":" "=", augmented]]))
      (.finish (.symbol .expressions) (alts [
        .suffix .binding .name (seqs [signNot "=" "=", .symbol .assignment]),
        .suffix .binding .name (seqs [signNot ":" "=", expression,
          opt (seqs [signNot "=" "=", .symbol .assignment])]),
        .suffix .other .plain (seqs [augmented, .symbol .assignment])])),
    .symbol .expressions]

def dotted : P := sep ident (sign ".")

def importNames : P := sep (seqs [dotted, opt (.seq (kw "as") ident)]) comma

def importStatement : P :=
  .alt (seqs [kw "import", importNames])
    (seqs [kw "from", .alt (.seq (plus (sign ".")) (opt dotted)) dotted, kw "import", alts [
      sign "*",
      seqs [sign "(", importNames, opt comma, sign ")"],
      importNames]])

def printStatement : P :=
  seqs [kws ["print", "exec"], .lineGap,
    .ahead (.one (.union (.range 'a' 'z') (.union (.range 'A' 'Z') (.ofChars "\"'_0123456789")))),
    sep expression comma, opt comma, .ahead (.alt (sign ";") newline)]

def typeParameters : P :=
  seqs [sign "[", listOf (seqs [opt starred, ident, opt (.seq (sign ":") expression),
    opt (.seq (sign "=") expression)]) comma, sign "]"]

def typeAlias : P := seqs [kw "type", ident, opt typeParameters, sign "=", expression]

def simple : P :=
  alts [
    .node .return (seqs [kw "return", opt (.symbol .expressions)]),
    importStatement,
    seqs [kw "assert", other (sep expression comma)],
    seqs [kw "del", .symbol .expressions],
    seqs [kw "raise", opt (.seq (.symbol .expressions) (opt (.seq (kw "from") expression)))],
    kws ["pass", "break", "continue"],
    seqs [kws ["global", "nonlocal"], sep ident comma],
    .seq typeAlias (.ahead (.alt (sign ";") newline)),
    printStatement,
    .symbol .assignment]

def simpleLine : P := seqs [sep simple (sign ";"), opt (sign ";"), newline]

/-- The block after a colon; it may be missing. -/
def suiteRule : P :=
  alts [
    seqs [newline, .mark .indent, .many (.symbol .statement), .gap, .mark .dedent],
    newline,
    simpleLine]

def block : P := .seq (sign ":") (.symbol .suite)

def parameter : P :=
  alts [sign "/",
    seqs [starred, ident, opt (.seq (sign ":") expression)],
    seqs [ident, opt (.seq (sign ":") expression), opt (.seq (sign "=") expression)],
    seqs [sign "*", .ahead (signs [",", ")"])],
    seqs [parenthesized, opt (.seq (sign "=") expression)]]

def parameters : P := seqs [sign "(", listOf parameter comma, sign ")"]

def functionDefinition : P :=
  .node .function (seqs [opt (kw "async"), kw "def", name, opt typeParameters, parameters,
    opt (.seq (sign "->") expression), block])

def classDefinition : P :=
  .node .classLike (seqs [kw "class", name, opt typeParameters, opt arguments, block])

def decorator : P := seqs [sign "@", other expression, newline]

def withClause : P :=
  .node .managed (.alt
    (seqs [sign "(", sep expression comma, opt comma, sign ")", .ahead (sign ":")])
    (seqs [sep expression comma, opt comma]))

def finallyClause : P := .node .finally (.seq (kw "finally") block)

def elseClause : P := .seq (kw "else") block

def exceptClause : P :=
  seqs [kw "except", opt (sign "*"), opt (seqs [expression, .many (.seq comma expression)]), block]

def caseClause : P :=
  seqs [kw "case", .symbol .expressions, opt (.seq (kw "if") expression), block]

def matchStatement : P :=
  seqs [kw "match", .symbol .expressions, sign ":", newline, .mark .indent, .many caseClause, .gap,
    .mark .dedent]

def compound : P :=
  alts [
    seqs [.many decorator, .alt functionDefinition classDefinition],
    seqs [kw "if", expression, block, .many (seqs [kw "elif", expression, block]), opt elseClause],
    seqs [opt (kw "async"), kw "for", targets, kw "in", .symbol .expressions, block,
      opt elseClause],
    seqs [kw "while", expression, block, opt elseClause],
    seqs [opt (kw "async"), kw "with", withClause, block],
    seqs [kw "try", block, .alt
      (seqs [plus exceptClause, opt elseClause, opt finallyClause])
      finallyClause],
    matchStatement]

def rule : Symbol → P
  | .file => .seq (.many (.symbol .statement)) .gap
  | .statement => .alt compound simpleLine
  | .suite => suiteRule
  | .assignment => assignmentRule
  | .expressions => expressionsRule
  | .expression => expressionRule
  | .test => testRule
  | .unary => unaryRule
  | .primary => primaryRule
  | .string => stringRule
  | .field => fieldRule

/-- Leaves out white space, comments and joined line ends; the first argument tells whether a
comment is being read. -/
def skip : Bool → List Item → List Item
  | true, .char c _ :: rest => skip (c != '\n') rest
  | false, .char '\\' _ :: .char '\n' _ :: rest => skip false rest
  | false, .char '\\' _ :: .char '\r' _ :: .char '\n' _ :: rest => skip false rest
  | false, .char c offset :: rest =>
    if c == '#' then skip true rest
    else if isBlank c || c == '\uFEFF' then skip false rest
    else .char c offset :: rest
  | _, rest => rest

def lexicon : Lexicon where
  isStart c := isAlphabetic c || c == '_'
  isPart c := isAlphanumeric c || c == '_'
  skip := skip false
  skipLine := skip false

def grammar : Grammar Symbol := { lexicon := lexicon, rule := rule, start := .file }

end LeakScan.Grammar.Python
