import LeakScan.Grammar.Blank

/-!
# LeakScan.Grammar.Java

The grammar of Java, as far as scopes need it. Line ends never count.

* `Java.Symbol`, `Java.grammar` — the grammar.
-/

namespace LeakScan.Grammar.Java

open Text Regex Phrase

inductive Symbol where
  | file
  | annotationUse
  | modifiers
  | type
  | parameters
  | declaration
  | classBody
  | block
  | statement
  | expression
  /-- An expression that is neither a closure nor an assignment. -/
  | choice
  | unary
  | arguments
  | arrayValue
  | switch
  | pattern
  deriving DecidableEq, Repr

abbrev P := Phrase Symbol

def primitives : List String :=
  ["boolean", "byte", "char", "double", "float", "int", "long", "short", "void"]

def reserved : List String :=
  primitives ++ ["abstract", "assert", "break", "case", "catch", "class", "const", "continue",
    "default", "do", "else", "enum", "extends", "false", "final", "finally", "for", "goto", "if",
    "implements", "import", "instanceof", "interface", "native", "new", "null", "package",
    "private", "protected", "public", "return", "static", "strictfp", "super", "switch", "synchronized",
    "this", "throw", "throws", "transient", "true", "try", "volatile", "while"]

def ident : P := .seq .gap (.word reserved)

def name : P := .part .name (.node .other ident)

def comma : P := sign ","

def qualified : P := sep ident (.seq (signNot "." ".") .gap)

def string : P :=
  .seq .gap (.alt
    (seqs [.text "\"\"\"".toList,
      .many (.alt (.seq (.text ['\\']) (.one .everything))
        (.seq (.absent (.text "\"\"\"".toList)) (.one (.compl (.one '\\'))))),
      .text "\"\"\"".toList])
    (quotedText '"'))

def character : P := .seq .gap (quotedText '\'')

/-! ## Types and modifiers -/

def annotations : P := .many (.symbol .annotationUse)

def elementValue : P :=
  alts [.symbol .annotationUse,
    seqs [sign "\x7b",
      listOf (alts [.symbol .annotationUse, .symbol .arrayValue, .symbol .choice]) comma,
      sign "\x7d"],
    .symbol .choice]

def annotationRule : P :=
  seqs [sign "@", .absent (kw "interface"), qualified, opt (seqs [sign "(",
    listOf (.alt (seqs [ident, signNot "=" "=", elementValue]) elementValue) comma, sign ")"])]

def modifierWords : List String :=
  ["public", "protected", "private", "abstract", "static", "final", "strictfp", "default",
    "synchronized", "native", "transient", "volatile"]

/-- Words that modify a declaration only when more of it follows. -/
def softModifier : P :=
  .alt (.seq (sign "non") (.seq (.text ['-']) (.keyword "sealed")))
    (.seq (kw "sealed") (.ahead (kws ["abstract", "public", "protected", "private", "static",
      "class", "interface", "strictfp"])))

def modifiersRule : P := .many (alts [.symbol .annotationUse, kws modifierWords, softModifier])

def typeArgument : P :=
  .seq annotations (.alt
    (seqs [sign "?", opt (seqs [kws ["extends", "super"], .symbol .type])])
    (.symbol .type))

def typeArguments : P := seqs [sign "<", listOf typeArgument comma, sign ">"]

def dimension : P := seqs [annotations, sign "[", sign "]"]

/-- A type without brackets at its end. -/
def plainType : P :=
  .seq annotations (.alt (kws primitives)
    (sep (seqs [annotations, ident, opt typeArguments]) (signNot "." ".")))

def typeRule : P := .seq plainType (.many dimension)

def type : P := .symbol .type

def typeParameters : P :=
  seqs [sign "<", sep (seqs [annotations, ident,
    opt (.seq (kw "extends") (sep type (signNot "&" "&")))]) comma, sign ">"]

def typeList : P := sep type comma

def parameter : P :=
  seqs [.symbol .modifiers, type, opt (.seq annotations (sign "...")),
    .alt (.seq (opt (seqs [ident, sign "."])) (kw "this")) (.seq ident (.many dimension))]

def parametersRule : P := seqs [sign "(", listOf parameter comma, sign ")"]

/-! ## Declarations -/

def modifiers : P := .symbol .modifiers

def throwsClause : P := opt (.seq (kw "throws") typeList)

def typeHead : P :=
  .many (.seq (kws ["extends", "implements", "permits"]) typeList)

def declarator : P :=
  .node .binding (seqs [.part .name (other ident), .many dimension,
    opt (seqs [signNot "=" "=", .alt (.symbol .arrayValue) (.symbol .expression)])])

def declarators : P := sep declarator comma

/-- The start of a declaration of variables, up to the first name. -/
def variableAhead : P :=
  .ahead (seqs [modifiers, type, ident, .alt (signs ["=", ",", ";", "["]) (signNot ":" ":")])

def variableDeclaration : P := seqs [variableAhead, modifiers, type, declarators]

def methodDeclaration : P :=
  .node .function (seqs [modifiers, opt (.seq typeParameters annotations), type, name,
    .symbol .parameters, .many dimension, throwsClause, .alt (.symbol .block) (sign ";")])

def constructorDeclaration : P :=
  .node .function (seqs [modifiers, opt typeParameters, name, .symbol .parameters, throwsClause,
    .symbol .block])

def compactConstructor : P := seqs [modifiers, ident, .symbol .block]

def enumConstant : P :=
  seqs [modifiers, ident, opt (.symbol .arguments), opt (.symbol .classBody)]

def member : P :=
  alts [sign ";", .symbol .block, .seq (kw "static") (.symbol .block), .symbol .declaration,
    constructorDeclaration, compactConstructor, methodDeclaration,
    .seq variableDeclaration (sign ";")]

def annotationElement : P :=
  seqs [modifiers, type, ident, sign "(", sign ")", .many dimension,
    opt (.seq (kw "default") elementValue), sign ";"]

def enumBody : P :=
  seqs [sign "\x7b", listOf enumConstant comma, opt comma, opt (.seq (sign ";") (.many member)),
    sign "\x7d"]

def declarationRule : P :=
  alts [
    .node .classLike (seqs [modifiers, kw "class", name, opt typeParameters, typeHead,
      .symbol .classBody]),
    .node .classLike (seqs [modifiers, kw "interface", name, opt typeParameters, typeHead,
      .symbol .classBody]),
    .node .classLike (seqs [modifiers, kw "enum", name, typeHead, enumBody]),
    .node .classLike (seqs [modifiers, kw "record", name, opt typeParameters, .symbol .parameters,
      typeHead, .symbol .classBody]),
    seqs [modifiers, sign "@", kw "interface", ident, sign "\x7b",
      .many (.alt annotationElement member), sign "\x7d"]]

/-! ## Expressions -/

def expression : P := .symbol .expression

def inferred : P := seqs [sign "(", listOf ident comma, sign ")"]

def closure : P :=
  .node .closure (seqs [alts [ident, inferred, .symbol .parameters], sign "->",
    .alt (.symbol .block) expression])

def arguments : P := .symbol .arguments

def callee : P := .part .callee (other ident)

def creation : P :=
  other (seqs [kw "new", annotations, opt typeArguments, plainType, .alt
    (seqs [arguments, opt (.node .classLike (.symbol .classBody))])
    (.alt
      (seqs [plus dimension, .symbol .arrayValue])
      (seqs [plus (seqs [annotations, sign "[", expression, sign "]"]), .many dimension]))])

def parenthesized : P := .node .parenthesized (seqs [sign "(", expression, sign ")"])

/-- A type where a value may stand: before `::` or `.class`. -/
def typeOperand : P :=
  other (.seq type (.ahead (.alt (sign "::") (seqs [sign ".", kw "class"]))))

def operand : P :=
  alts [.node .literal (alts [string, character, number]), creation, .symbol .switch, parenthesized, typeOperand,
    .node .call (seqs [callee, arguments]),
    other (alts [kws ["this", "super", "true", "false", "null"], ident])]

def suffixes : P :=
  alts [
    .suffix .call .plain (seqs [signNot "." ".", opt typeArguments, callee, arguments]),
    .suffix .other .plain (seqs [signNot "." ".", creation]),
    .suffix .other .plain (seqs [signNot "." ".", alts [kws ["this", "class"],
      .seq (kw "super") (.absent (sign "(")), ident]]),
    .suffix .other .plain (seqs [sign "[", expression, sign "]"]),
    .suffix .other .plain (seqs [sign "::", opt typeArguments, .alt (kw "new") ident]),
    .suffix .other .plain (signs ["++", "--"])]

def castOperand : P :=
  alts [closure, .seq (.absent (signs ["+", "-"])) (.symbol .unary)]

def cast : P :=
  other (.alt
    (seqs [sign "(", kws primitives, .many dimension, sign ")", .symbol .unary])
    (seqs [sign "(", sep type (signNot "&" "&"), sign ")", castOperand]))

def unaryRule : P :=
  alts [
    other (seqs [signs ["++", "--", "+", "-", "!", "~"], .symbol .unary]),
    cast,
    .grow operand suffixes]

def binaryOperators : List String :=
  [">>>", "<<", ">>", "&&", "||", "==", "!=", "<=", ">=", "+", "-", "*", "/", "%", "&", "|", "^",
    "<", ">"]

def assignmentOperators : List String :=
  [">>>=", "<<=", ">>=", "+=", "-=", "*=", "/=", "%=", "&=", "|=", "^="]

def binary : P :=
  .alt
    (seqs [.absent (signs assignmentOperators), .absent (sign "->"), signs binaryOperators,
      .symbol .unary])
    (seqs [kw "instanceof", opt (kw "final"), .alt (.symbol .pattern) type])

/-- A choice between two values, or one value. -/
def choiceRule : P :=
  .grow (chain (.symbol .unary) binary)
    (.suffix .other .plain (seqs [sign "?", expression, sign ":", .alt closure (.symbol .choice)]))

def assignment : P := .alt (signNot "=" "=") (signs assignmentOperators)

def expressionRule : P :=
  .alt closure (.grow (.symbol .choice)
    (.seq (.notAfter [.call, .literal]) (.suffix .binding .name (.seq assignment expression))))

def patternRule : P :=
  seqs [modifiers, type, .alt
    (seqs [sign "(", listOf (.symbol .pattern) comma, sign ")"])
    (.seq (.absent (kw "when")) ident)]

def arrayValueRule : P :=
  other (seqs [sign "\x7b", listOf (.alt (.symbol .arrayValue) expression) comma, sign "\x7d"])

/-! ## Statements -/

def caseLabel : P :=
  .alt
    (.seq (kw "case") (seqs [
      sep (alts [
        .seq (.symbol .pattern) (.ahead (.alt (signs ["->", ":", ","]) (kw "when"))),
        kw "default", .symbol .choice]) comma,
      opt (.seq (kw "when") (.symbol .choice))]))
    (kw "default")

def switchRule : P :=
  other (seqs [kw "switch", parenthesized, sign "\x7b",
    .many (.seq caseLabel (.alt
      (.seq (sign "->") (alts [.symbol .block, seqs [kw "throw", other expression, sign ";"],
        .seq (other expression) (sign ";")]))
      (.seq (sign ":") (.many (.seq (.absent caseLabel) (.symbol .statement)))))),
    sign "\x7d"])

def constructorCall : P :=
  other (seqs [opt (seqs [qualified, sign "."]), opt typeArguments, kws ["this", "super"],
    arguments, sign ";"])

def resource : P :=
  other (.alt (seqs [modifiers, type, ident, .many dimension, sign "=", expression])
    (.symbol .unary))

def resources : P :=
  .node .managed (seqs [sign "(", sep resource (sign ";"), opt (sign ";"), sign ")"])

def catchClause : P :=
  seqs [kw "catch", sign "(", modifiers, sep type (sign "|"), ident, sign ")", .symbol .block]

def finallyClause : P := .node .finally (.seq (kw "finally") (.symbol .block))

/-- Without resources there is a clause that says what the attempt is for. -/
def tryStatement : P :=
  .seq (kw "try") (.alt
    (seqs [resources, .symbol .block, .many catchClause, opt finallyClause])
    (seqs [.symbol .block, .alt (seqs [catchClause, .many catchClause, opt finallyClause])
      finallyClause]))

def forStatement : P :=
  seqs [kw "for", sign "(", .alt
    (seqs [modifiers, type, ident, .many dimension, signNot ":" ":", expression])
    (seqs [opt (.alt variableDeclaration (sep expression comma)), sign ";", opt expression,
      sign ";", opt (sep expression comma)]),
    sign ")", .symbol .statement]

def statementRule : P :=
  alts [sign ";", .symbol .block,
    seqs [kw "if", parenthesized, .symbol .statement, opt (.seq (kw "else") (.symbol .statement))],
    seqs [kw "while", parenthesized, .symbol .statement],
    seqs [kw "do", .symbol .statement, kw "while", parenthesized, sign ";"],
    forStatement,
    .node .return (seqs [kw "return", opt expression, sign ";"]),
    seqs [kw "throw", other expression, sign ";"],
    seqs [kws ["break", "continue"], opt ident, sign ";"],
    seqs [kw "assert", other expression, opt (.seq (sign ":") (other expression)), sign ";"],
    seqs [kw "synchronized", parenthesized, .symbol .block],
    tryStatement,
    .seq (.symbol .switch) (.ahead (.absent (signs [".", ";"]))),
    .symbol .declaration,
    seqs [kw "yield", .absent (signs ["=", "(", "."]), other expression, sign ";"],
    .seq variableDeclaration (sign ";"),
    seqs [ident, signNot ":" ":", .symbol .statement],
    constructorCall,
    .seq (other expression) (sign ";")]

def moduleDeclaration : P :=
  seqs [annotations, opt (kw "open"), kw "module", qualified, sign "\x7b",
    .many (seqs [.absent (sign "\x7d"), .gap, .one .everything]), sign "\x7d"]

def fileRule : P :=
  .lines false (.seq (.many (alts [
    seqs [annotations, kw "package", qualified, sign ";"],
    seqs [kw "import", opt (kw "static"), qualified, opt (.seq (sign ".") (sign "*")), sign ";"],
    .symbol .declaration,
    moduleDeclaration,
    .seq (.ahead (seqs [modifiers, opt (.seq typeParameters annotations), type, ident, sign "("]))
      methodDeclaration,
    .symbol .statement])) .gap)

def rule : Symbol → P
  | .file => fileRule
  | .annotationUse => annotationRule
  | .modifiers => modifiersRule
  | .type => typeRule
  | .parameters => parametersRule
  | .declaration => declarationRule
  | .classBody => seqs [sign "\x7b", .many member, sign "\x7d"]
  | .block => seqs [sign "\x7b", .many (.symbol .statement), sign "\x7d"]
  | .statement => statementRule
  | .expression => expressionRule
  | .choice => choiceRule
  | .unary => unaryRule
  | .arguments => .node .arguments (seqs [sign "(", listOf expression comma, sign ")"])
  | .arrayValue => arrayValueRule
  | .switch => switchRule
  | .pattern => patternRule

def lexicon : Lexicon where
  isStart c := isAlphabetic c || c == '_' || c == '$'
  isPart c := isAlphanumeric c || c == '_' || c == '$'
  skip := skipAll
  skipLine := skipLine

def grammar : Grammar Symbol := { lexicon := lexicon, rule := rule, start := .file }

end LeakScan.Grammar.Java
