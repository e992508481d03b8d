import LeakScan.Grammar.Script.Symbols

/-!
# LeakScan.Grammar.Script.Types

Types, type parameters and annotated parameters.
-/

namespace LeakScan.Grammar.Script

open Text Regex Phrase

def type : P := .symbol .type

def typeArguments : P := seqs [sign "<", listOf type comma, sign ">"]

def typeParameters : P :=
  seqs [sign "<", listOf (seqs [.many (.seq (kws ["const", "in", "out"]) (.ahead anyWord)), ident,
    opt (.seq (kw "extends") type), opt (.seq (sign "=") type)]) comma, sign ">"]

/-- What a function gives back; it may say something about a parameter. -/
def returnType : P :=
  .seq (sign ":") (alts [
    seqs [kw "asserts", .alt (kw "this") ident, opt (.seq (kw "is") type)],
    seqs [.alt (kw "this") ident, .lineGap, .keyword "is", type],
    type])

def annotated : P := .seq (sign ":") type

/-- Parameters and result of a function or method. -/
def signature (d : Dialect) : P :=
  seqs [maybe d.types typeParameters, .symbol .parameters, maybe d.types returnType]

def functionType : P :=
  seqs [opt (kw "abstract"), opt (kw "new"), opt typeParameters, .symbol .parameters, sign "=>",
    .alt (seqs [.alt (kw "this") ident, .lineGap, .keyword "is", type]) type]

def tupleElement : P :=
  seqs [opt (sign "..."), .alt (seqs [anyWord, opt (sign "?"), annotated])
    (.seq type (opt (sign "?")))]

def namedType : P :=
  seqs [sep anyWord (sign "."), opt (.seq .lineGap typeArguments)]

def primaryType : P :=
  alts [
    seqs [sign "(", type, sign ")"],
    seqs [sign "[", listOf tupleElement comma, sign "]"],
    .symbol .objectType,
    templateType, string, seqs [opt (sign "-"), numeral],
    seqs [kw "typeof", .alt (seqs [kw "import", sign "(", type, sign ")"]) anyWord,
      .many (.seq (sign ".") (.alt anyWord privateName)), opt typeArguments],
    seqs [kw "import", sign "(", type, sign ")", .many (.seq (sign ".") anyWord),
      opt typeArguments],
    namedType]

def typeSuffix : P := seqs [.lineGap, .text ['['], opt type, sign "]"]

/-- Words that stand before a type. -/
def operatorType : P :=
  alts [
    seqs [kws ["keyof", "unique", "readonly"],
      .absent (signs [",", ";", ")", ">", "=", "[", "|", "&"]), primaryType, .many typeSuffix],
    seqs [kw "readonly", primaryType, .many typeSuffix],
    seqs [kw "keyof", primaryType, .many typeSuffix],
    seqs [kw "infer", ident],
    .seq primaryType (.many typeSuffix)]

def unionTypeRule : P :=
  .seq (opt (signs ["|", "&"]))
    (sep (.alt functionType operatorType) (.alt (signNot "|" "|=") (signNot "&" "&=")))

def typeRule : P :=
  seqs [.symbol .unionType, opt (seqs [kw "extends", .symbol .unionType, sign "?", type, sign ":",
    type])]

def memberEnd : P := .alt (signs [";", ","]) (endHere "")

def mappedMember : P :=
  seqs [opt (.seq (opt (signs ["+", "-"])) (kw "readonly")), sign "[", ident, kw "in", type,
    opt (.seq (kw "as") type), sign "]", opt (.seq (opt (signs ["+", "-"])) (sign "?")),
    opt annotated]

def indexMember : P :=
  seqs [.many (kws ["static", "readonly"]), sign "[", ident, annotated, sign "]", annotated]

/-- Words before the name of a member, unless they are the name. -/
def memberWord (w : String) : P :=
  .seq (kw w) (.absent (.alt (signs ["(", "=", ";", "\x7d", ",", ":", "?", "<", "!"])
    (.seq .wideGap .ending)))

def propertySignature : P :=
  seqs [.many (alts (["readonly", "get", "set"].map memberWord)), propertyName, opt (sign "?"),
    .alt (seqs [opt typeParameters, .symbol .parameters, opt returnType]) (opt annotated)]

def objectTypeRule : P :=
  seqs [sign "\x7b", .many (.alt (signs [";", ","]) (seqs [
      alts [mappedMember, indexMember,
        seqs [opt (kw "new"), opt typeParameters, .symbol .parameters, opt returnType],
        propertySignature],
      memberEnd])),
    sign "\x7d"]

end LeakScan.Grammar.Script
