import LeakScan.Grammar.Blank

/-!
# LeakScan.Grammar.Go

The grammar of Go, as far as scopes need it. Statements end at the end of a line wherever they may.
Before the block of a condition a type followed by a brace is no literal.

* `Go.Symbol`, `Go.grammar` — the grammar.
-/

namespace LeakScan.Grammar.Go

open Text Regex Phrase

inductive Symbol where
  | file
  | declaration
  | type
  | parameters
  | block
  | statement
  /-- A statement without a block of its own; a literal may end in braces or not. -/
  | simple (braces : Bool)
  | expressions (braces : Bool)
  | expression (braces : Bool)
  | unary (braces : Bool)
  | literal
  deriving DecidableEq, Repr

abbrev P := Phrase Symbol

def reserved : List String :=
  ["break", "case", "chan", "const", "continue", "default", "defer", "else", "fallthrough", "for",
    "func", "go", "goto", "if", "import", "interface", "map", "package", "range", "return",
    "select", "struct", "switch", "type", "var"]

def ident : P := .seq .gap (.word reserved)

def name : P := .part .name (.node .other ident)

def comma : P := .seq (sign ",") .wideGap

/-- The end of a statement. -/
def terminator : P := .alt (sign ";") (.seq .lineGap (.text ['\n']))

/-- Phrases that each end like a statement, up to a closing sign. -/
def body (p : P) (closing : String) : P :=
  .lines true (seqs [.many (.alt terminator
    (.seq p (.ahead (alts [terminator, .seq .wideGap (.text closing.toList),
      .seq .wideGap .ending])))),
    .wideGap, .text closing.toList])

/-- An opening brace, also on a later line. -/
def openBrace : P := .seq .wideGap (.text ['\x7b'])

def inParens (p : P) : P := .lines false (seqs [p, .wideGap, .text [')']])

def string : P :=
  .seq .gap (.alt (quotedText '"')
    (seqs [.text ['\x60'], .many (.one (.compl (.one '\x60'))), .text ['\x60']]))

def rune : P := .seq .gap (quotedText '\'')

def type : P := .symbol .type

def typeArguments : P :=
  seqs [sign "[", .lines false (.seq (listOf type comma) (.seq .wideGap (.text [']'])))]

/-- One declared parameter or several names of one type, or a type alone. -/
def parameter : P :=
  alts [
    seqs [sep ident comma, .gap, opt (sign "..."), type, .ahead (signs [",", ")", "]"])],
    seqs [opt (sign "..."), type]]

def parameters : P := seqs [sign "(", inParens (listOf parameter comma)]

def typeParameters : P :=
  seqs [sign "[", .lines false (seqs [sep (.seq (sep ident comma) type) comma, opt comma, .wideGap,
    .text [']']])]

def result : P := opt (.alt parameters type)

def fieldLine : P :=
  seqs [.alt (seqs [sep ident comma, type]) (.seq (opt (sign "*")) type), opt string]

def interfaceLine : P :=
  .alt (seqs [ident, parameters, result]) type

def baseType : P :=
  alts [
    seqs [sign "*", .wideGap, type],
    seqs [sign "(", inParens type],
    seqs [sign "[", .lines false (seqs [opt (.alt (sign "...") (.symbol (.expression true))),
      .wideGap, .text [']']]), type],
    seqs [kw "map", sign "[", .lines false (seqs [type, .wideGap, .text [']']]), type],
    seqs [opt (sign "<-"), kw "chan", opt (sign "<-"), type],
    seqs [kw "func", parameters, result],
    seqs [kw "struct", openBrace, body fieldLine "\x7d"],
    seqs [kw "interface", openBrace, body interfaceLine "\x7d"],
    seqs [ident, opt (seqs [sign ".", .wideGap, ident]), opt typeArguments]]

def typeRule : P :=
  seqs [opt (sign "~"), baseType,
    .many (seqs [signNot "|" "|=", .wideGap, opt (sign "~"), baseType])]

/-! ## Expressions -/

def binaryOperators : List String :=
  ["<<", ">>", "&^", "&&", "||", "==", "!=", "<=", ">=", "+", "-", "*", "/", "%", "&", "|", "^",
    "<", ">"]

/-- A binary operator that is not part of an assignment. -/
def binary : P :=
  seqs [.absent (signs ["<-", "++", "--", "<<=", ">>=", "&^=", "+=", "-=", "*=", "/=", "%=", "&=",
      "|=", "^="]),
    signs binaryOperators, .wideGap]

def closure : P :=
  .node .closure (seqs [kw "func", .symbol .parameters, result, .symbol .block])

def parenthesized : P :=
  .node .parenthesized (seqs [sign "(",
    inParens (.alt (.seq (.symbol (.expression true)) (.ahead (sign ")"))) type)])

/-- Types that start an expression: those of literals and conversions. -/
def typeOperand : P :=
  other (seqs [.ahead (.alt (sign "[") (kws ["map", "struct", "chan", "interface", "func"])), type,
    .alt (.symbol .literal)
      (seqs [sign "(", inParens (seqs [.symbol (.expression true), opt comma])])])

def operand : P :=
  alts [closure, typeOperand, parenthesized, string, rune, number, other ident]

def argument : P :=
  seqs [.alt (.seq (.symbol (.expression true)) (.ahead (signs [",", ")", "..."]))) type,
    opt (sign "...")]

def arguments : P :=
  .node .arguments (seqs [sign "(", inParens (listOf argument comma)])

def indexing : P :=
  seqs [sign "[", .lines false (seqs [
    .alt
      (seqs [opt (.symbol (.expression true)), sign ":", opt (.symbol (.expression true)),
        opt (seqs [sign ":", .symbol (.expression true)])])
      (listOf (.alt (.seq (.symbol (.expression true)) (.ahead (signs [",", "]"]))) type) comma),
    .wideGap, .text [']']])]

def suffixes (braces : Bool) : P :=
  alts [
    .suffix .call .callee (.seq (opt (.seq typeArguments (.ahead (sign "(")))) arguments),
    .suffix .other .plain (seqs [sign ".", .wideGap,
      .alt (seqs [.text ['('], inParens (.alt (kw "type") type)]) ident]),
    .suffix .other .plain indexing,
    if braces then .suffix .other .plain (.symbol .literal) else never]

def primary (braces : Bool) : P := .grow operand (suffixes braces)

def unaryRule (braces : Bool) : P :=
  .alt
    (other (seqs [signs ["+", "-", "!", "^", "*", "&", "<-"], .wideGap, .symbol (.unary braces)]))
    (primary braces)

def expressionRule (braces : Bool) : P :=
  chain (.symbol (.unary braces)) (.seq binary (.symbol (.unary braces)))

def element : P :=
  .alt (.symbol .literal) (.symbol (.expression true))

/-- The braces of a literal. -/
def literalRule : P :=
  other (seqs [sign "\x7b", .lines false (seqs [
    listOf (seqs [element, opt (seqs [sign ":", .wideGap, element])]) comma, .wideGap,
    .text ['\x7d']])])

/-! ## Statements -/

def expressions (braces : Bool) : P := .symbol (.expressions braces)

def assignment : P :=
  signs [":=", "<<=", ">>=", "&^=", "+=", "-=", "*=", "/=", "%=", "&=", "|=", "^=", "="]

def simpleRule (braces : Bool) : P :=
  other (seqs [expressions braces, opt (alts [
    seqs [assignment, .wideGap, opt (kw "range"), expressions braces],
    signs ["++", "--"],
    seqs [sign "<-", .wideGap, .symbol (.expression braces)]])])

def varSpec : P :=
  other (seqs [sep ident comma, .alt
    (seqs [sign "=", .wideGap, expressions true])
    (seqs [type, opt (seqs [sign "=", .wideGap, expressions true])])])

def constSpec : P :=
  other (seqs [sep ident comma, opt (seqs [opt (.seq (.absent (sign "=")) type), sign "=", .wideGap,
    expressions true])])

def typeSpec : P :=
  other (seqs [ident, opt (.seq typeParameters (.ahead (.seq .gap (.absent (.text [']']))))),
    opt (sign "="), type])

def importSpec : P := seqs [opt (.alt (sign ".") ident), string]

def groupOf (word : String) (p : P) : P :=
  seqs [kw word, .alt (seqs [sign "(", body p ")"]) p]

def declarationRule : P :=
  alts [groupOf "var" varSpec, groupOf "const" constSpec, groupOf "type" typeSpec]

def functionDeclaration : P :=
  .node .function (seqs [kw "func", opt (.seq parameters (.ahead ident)), name, opt typeParameters,
    .symbol .parameters, result, opt (.symbol .block)])

/-- A block that must follow, and what stands before it; line ends do not count there. -/
def headed (p : P) : P := .seq (.lines false (.seq p .gap)) (.symbol .block)

def ifStatement : P :=
  seqs [kw "if", headed (seqs [opt (.seq (opt (.symbol (.simple false))) (sign ";")),
      .symbol (.expression false)]),
    opt (seqs [kw "else", .alt (.seq (.ahead (kw "if")) (.symbol .statement)) (.symbol .block)])]

def forStatement : P :=
  seqs [kw "for", headed (opt (.seq (.absent (sign "\x7b")) (alts [
      seqs [opt (.symbol (.simple false)), sign ";", opt (.symbol (.expression false)), sign ";",
        opt (.symbol (.simple false)), .ahead (sign "\x7b")],
      seqs [opt (.seq (expressions false) (signs [":=", "="])), kw "range",
        .symbol (.expression false)],
      .symbol (.simple false)])))]

/-- What ends a case: another one, or the end of the switch. -/
def caseEnd : P := .seq .wideGap (.alt (kws ["case", "default"]) (.text ['\x7d']))

/-- The cases of a switch; each runs up to the next one. -/
def cases (head : P) : P :=
  seqs [openBrace, .lines true (seqs [
    .many (.alt terminator (seqs [
      .alt (seqs [kw "case", head]) (kw "default"), sign ":",
      .many (.alt terminator
        (seqs [.absent caseEnd, .symbol .statement, .ahead (.alt terminator caseEnd)]))])),
    .wideGap, .text ['\x7d']])]

def switchStatement : P :=
  seqs [kw "switch", .alt
    (seqs [.lines false (seqs [opt (.seq (opt (.symbol (.simple false))) (sign ";")),
        opt (.seq (sep ident comma) (sign ":=")), .symbol (.expression false),
        .ahead (sign "\x7b")]),
      cases (.lines false (sep
        (.alt (.seq (.symbol (.expression true)) (.ahead (signs [",", ":"]))) type) comma))])
    (seqs [.lines false (opt (.seq (opt (.symbol (.simple false))) (sign ";"))),
      cases (.lines false (expressions true))])]

def selectStatement : P := seqs [kw "select", cases (.symbol (.simple true))]

def returnStatement : P :=
  .node .return (seqs [kw "return", opt (expressions true)])

def labelled : P := seqs [ident, signNot ":" "=", .many terminator, opt (.symbol .statement)]

def statementRule : P :=
  alts [.symbol .declaration, returnStatement,
    seqs [kw "go", .wideGap, other (.symbol (.expression true))],
    .node .deferred (seqs [kw "defer", .wideGap, .symbol (.expression true)]),
    ifStatement, forStatement, switchStatement, selectStatement, .symbol .block,
    seqs [kws ["break", "continue"], opt ident], seqs [kw "goto", ident], kw "fallthrough",
    labelled, .symbol (.simple true)]

def fileRule : P :=
  .seq (.many (.alt terminator (.seq (alts [
      seqs [kw "package", ident],
      groupOf "import" importSpec,
      functionDeclaration,
      .symbol .statement]) (.ahead (.alt terminator (.seq .wideGap .ending))))))
    .wideGap

def rule : Symbol → P
  | .file => fileRule
  | .declaration => declarationRule
  | .type => typeRule
  | .parameters => parameters
  | .block => seqs [sign "\x7b", body (.symbol .statement) "\x7d"]
  | .statement => statementRule
  | .simple braces => simpleRule braces
  | .expressions braces =>
    .node .expressions (sep (.symbol (.expression braces)) comma)
  | .expression braces => expressionRule braces
  | .unary braces => unaryRule braces
  | .literal => literalRule

def lexicon : Lexicon where
  isStart c := isAlphabetic c || c == '_'
  isPart c := isAlphanumeric c || c == '_'
  skip := skipAll
  skipLine := skipLine

def grammar : Grammar Symbol := { lexicon := lexicon, rule := rule, start := .file }

end LeakScan.Grammar.Go
