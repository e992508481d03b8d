import LeakScan.Grammar.Script.Types

/-!
# LeakScan.Grammar.Script.Expressions

Expressions, patterns and classes.
-/

namespace LeakScan.Grammar.Script

open Text Regex Phrase

/-! ## Patterns and parameters -/

def withDefault (p : P) : P := .seq p (opt (.seq (signNot "=" "=>") value))

def patternRule : P :=
  other (alts [
    seqs [sign "\x7b", listOf (alts [
        .seq (sign "...") (.symbol .pattern),
        seqs [propertyName, sign ":", withDefault (.alt (.symbol .pattern) (.symbol .unary))],
        withDefault ident]) comma, sign "\x7d"],
    seqs [sign "[", .many comma, opt (seqs [
        sep (seqs [opt (sign "..."), withDefault (.symbol .pattern)]) (plus comma), .many comma]),
      sign "]"],
    ident])

def accessWords : List String := ["public", "private", "protected", "readonly", "override"]

def parameter (d : Dialect) : P :=
  seqs [.many (.symbol .decorator),
    if d.types then .many (.seq (kws accessWords) (.ahead (.alt anyWord (signs ["\x7b", "["]))))
    else .empty,
    opt (sign "..."), .alt (.symbol .pattern) (kw "this"),
    maybe d.types (sign "?"), maybe d.types annotated, opt (.seq (signNot "=" "=>") value)]

def parametersRule (d : Dialect) : P :=
  seqs [sign "(", listOf (parameter d) comma, sign ")"]

/-! ## Functions -/

def arrow (d : Dialect) : P :=
  .node .arrow (seqs [
    .alt
      (seqs [opt (kwHere "async"), .absent (.seq (kw "async") (kw "function")), ident])
      (seqs [opt (kwHere "async"), maybe d.types typeParameters, .symbol .parameters,
        maybe d.types returnType]),
    sign "=>", .alt (.symbol .block) (.part .body value)])

def functionExpression (d : Dialect) : P :=
  .node .closure (seqs [opt (kwHere "async"), kw "function", opt (sign "*"), opt ident, signature d,
    .symbol .block])

/-- The words before the name of a method, the kind of method included. -/
def methodWords (words : List String) : P :=
  seqs [.many (alts (words.map memberWord)),
    opt (alts [sign "*", .seq (memberWord "get") .empty, .seq (memberWord "set") .empty])]

def objectMethod (d : Dialect) : P :=
  .node .function (seqs [methodWords ["async"], .part .name propertyName, signature d,
    .symbol .block])

def pair : P := .node .binding (seqs [.part .name propertyName, sign ":", value])

def objectRule (d : Dialect) : P :=
  other (seqs [sign "\x7b", .many comma, opt (seqs [sep (alts [
      other (seqs [sign "...", value]),
      objectMethod d,
      pair,
      seqs [anyWord, opt (other (seqs [signNot "=" "=>", value]))]]) (plus comma),
    .many comma]), sign "\x7d"])

/-! ## Classes -/

def decoratorRule (d : Dialect) : P :=
  seqs [sign "@", .grow
    (.alt (.node .parenthesized (seqs [sign "(", .symbol .expression, sign ")"]))
      (other (sep (.alt anyWord privateName) (sign "."))))
    (.suffix .call .callee (seqs [maybe d.types typeArguments, .symbol .arguments]))]

def decorators : P := .many (.symbol .decorator)

def memberWords : List String :=
  ["public", "private", "protected", "static", "abstract", "override", "readonly", "declare",
    "accessor", "async"]

def method (d : Dialect) : P :=
  .node .function (seqs [
    if d.types then .empty else decorators,
    methodWords (if d.types then memberWords else ["static", "async"]),
    .part .name propertyName, maybe d.types (sign "?"), signature d, .symbol .block])

def methodSignature (d : Dialect) : P :=
  seqs [methodWords memberWords, propertyName, opt (sign "?"), signature d, memberEnd]

def field (d : Dialect) : P :=
  .node .binding (seqs [
    if d.types then .empty else decorators,
    .many (alts ((if d.types then memberWords else ["static", "accessor"]).map memberWord)),
    .part .name propertyName,
    maybe d.types (signs ["?", "!"]), maybe d.types annotated,
    opt (.seq (signNot "=" "=>") value)])

def fieldEnd (d : Dialect) : P :=
  alts [sign ";", whenever d.types comma, endHere "[(", whenever d.types (endHere "")]

def classBodyRule (d : Dialect) : P :=
  seqs [sign "\x7b", .many (alts [
      sign ";",
      seqs [kw "static", .symbol .block],
      method d,
      whenever d.types (.symbol .decorator),
      whenever d.types (seqs [indexMember, memberEnd]),
      whenever d.types (methodSignature d),
      .seq (field d) (fieldEnd d)]),
    sign "\x7d"]

def heritage (d : Dialect) : P :=
  if d.types then
    .seq
      (opt (.seq (kw "extends") (sep (seqs [.symbol .operand, opt typeArguments]) comma)))
      (opt (.seq (kw "implements") (sep type comma)))
  else opt (.seq (kw "extends") (.symbol .operand))

def classWith (d : Dialect) (named : P) : P :=
  .node .classLike (seqs [decorators, maybe d.types (kw "abstract"), kw "class", named,
    maybe d.types typeParameters, heritage d, .symbol .classBody])

def classExpression (d : Dialect) : P :=
  classWith d (opt (.seq (.absent (kws ["extends", "implements"])) name))

/-! ## Expressions -/

def parenthesized : P := .node .parenthesized (seqs [sign "(", .symbol .expression, sign ")"])

/-- Values with commas between them, some of which may be left out. -/
def values : P :=
  .seq (.many comma) (opt (.seq
    (sep (.alt (other (seqs [sign "...", value])) value) (plus comma)) (.many comma)))

def array : P := other (seqs [sign "[", values, sign "]"])

def argumentsRule : P := .node .arguments (seqs [sign "(", values, sign ")"])

def dot : P := .alt (.seq (sign "?.") (.absent (.one digit))) (signNot "." ".0123456789")

def memberSuffixes (d : Dialect) : P :=
  alts [
    .suffix .other .plain (seqs [dot, .alt anyWord privateName]),
    .suffix .other .plain (seqs [opt (sign "?."), sign "[", .symbol .expression, sign "]"]),
    .suffix .other .plain (.symbol .template),
    whenever d.types (.suffix .other .plain (seqs [.lineGap, .text ['!'], .absent (.text ['='])]))]

def callSuffixes (d : Dialect) : P :=
  .alt (.suffix .call .callee (seqs [opt (sign "?."), .symbol .arguments]))
    (whenever d.types
      (.suffix .call .callee (seqs [opt (sign "?."), typeArguments, .symbol .arguments])))

def construction (d : Dialect) : P :=
  other (seqs [kw "new", .alt (seqs [sign ".", kw "target"]) (seqs [
    .grow (.seq (.absent (kw "import")) (.symbol .operand)) (memberSuffixes d),
    maybe d.types typeArguments, opt (.symbol .arguments)])])

/-- What an expression is built from, without what follows it. -/
def atom (d : Dialect) : P :=
  alts [
    functionExpression d,
    .seq (.ahead (.alt (sign "@") (kws (["class"] ++ if d.types then ["abstract"] else []))))
      (classExpression d),
    parenthesized, array, .symbol .object, .symbol .template, string, numeral, regex,
    whenever d.markup (.symbol .element),
    other (.seq (kw "import") (.alt (seqs [sign ".", kw "meta"]) (.ahead (sign "(")))),
    other (.alt (kws ["this", "super", "null", "true", "false"]) ident),
    other privateName]

/-- A value with its members and calls. -/
def operandRule (d : Dialect) : P :=
  .grow (.alt (construction d) (atom d)) (.alt (memberSuffixes d) (callSuffixes d))

def unaryRule (d : Dialect) : P :=
  alts [
    other (seqs [signs ["++", "--", "!", "~", "+", "-"], .symbol .unary]),
    other (seqs [kws ["typeof", "void", "delete", "await"], .symbol .unary]),
    whenever (d.types && !d.markup) (other (seqs [sign "<", type, sign ">", .symbol .unary])),
    .grow (.symbol .operand)
      (.suffix .other .plain (.seq .lineGap (.alt (.text "++".toList) (.text "--".toList))))]

def augmented : List String :=
  [">>>=", "**=", "<<=", ">>=", "&&=", "||=", "??=", "+=", "-=", "*=", "/=", "%=", "&=", "|=", "^="]

def binaryOperators : List String :=
  ["===", "!==", ">>>", "**", "<<", ">>", "<=", ">=", "==", "!=", "&&", "||", "??", "*", "/", "%",
    "&", "|", "^", "<", ">"]

def binary (d : Dialect) : P :=
  alts [
    .suffix .other .plain (seqs [.absent (signs augmented), .absent (sign "=>"),
      alts [signs binaryOperators, signNot "+" "+", signNot "-" "-"], .symbol .unary]),
    .suffix .other .plain (seqs [kws ["instanceof", "in"], .symbol .unary]),
    whenever d.types (.suffix .other .plain (seqs [.lineGap,
      .alt (.keyword "as") (.keyword "satisfies"), .alt (kw "const") type]))]

def conditional : P :=
  .suffix .other .plain (seqs [.gap, .text ['?'], .absent (.one (.one '?')),
    .absent (.seq (.text ['.']) (.absent (.one digit))), value, sign ":", value])

/-- Nothing is assigned to what a call gives or to a value that is written out. -/
def assignment : P :=
  .seq (.notAfter [.call, .literal])
    (.alt (.suffix .binding .name (seqs [signNot "=" "=>", value]))
      (.suffix .other .plain (seqs [signs augmented, value])))

def yielded : P :=
  other (seqs [kw "yield", .absent (sign "=>"),
    opt (.seq (.absent (endHere "[(")) (.alt (.seq (sign "*") value) value))])

def valueRule (d : Dialect) : P :=
  alts [arrow d, yielded,
    .grow (.grow (.grow (.symbol .unary) (binary d)) conditional) assignment]

def expressionRule : P :=
  .grow value (.suffix .other .plain (plus (.seq comma value)))

end LeakScan.Grammar.Script
