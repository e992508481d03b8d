import LeakScan.Grammar.Script.Expressions

/-!
# LeakScan.Grammar.Script.Statements

Statements and declarations.
-/

namespace LeakScan.Grammar.Script

open Text Regex Phrase

def statement : P := .symbol .statement

def declarator (d : Dialect) : P :=
  .node .binding (seqs [.part .name (.symbol .pattern), maybe d.types (sign "!"),
    maybe d.types annotated, opt (.seq (signNot "=" "=>") value)])

def variableDeclaration (d : Dialect) : P :=
  seqs [kws ["const", "let", "var"], sep (declarator d) comma]

def functionHead (d : Dialect) : P :=
  seqs [opt (kwHere "async"), kw "function", opt (sign "*"), name, signature d]

def functionDeclaration (d : Dialect) : P :=
  .alt (.node .function (.seq (functionHead d) (.symbol .block)))
    (whenever d.types (seqs [other (functionHead d), typeEnd]))

def classDeclaration (d : Dialect) : P := classWith d name

/-! ## Modules -/

def exportName : P := .alt anyWord string

def specifier : P :=
  seqs [opt (.seq (kw "type") (.ahead exportName)), exportName, opt (.seq (kw "as") exportName)]

def specifiers : P := seqs [sign "\x7b", listOf specifier comma, sign "\x7d"]

def importAttributes : P := opt (.seq (kws ["with", "assert"]) (.symbol .object))

def from' : P := seqs [kw "from", string, importAttributes]

def importDeclaration (d : Dialect) : P :=
  seqs [kw "import", alts [
      seqs [string, importAttributes],
      whenever d.types (seqs [opt (.seq (kw "type") (.ahead ident)), ident, sign "=", .alt
        (seqs [kw "require", sign "(", string, sign ")"])
        (sep ident (sign "."))]),
      seqs [maybe d.types (seqs [kws ["type", "typeof"], .absent (kw "from"), .absent comma]),
        opt (.seq ident (opt comma)),
        opt (.alt (seqs [sign "*", kw "as", ident]) specifiers), from']],
    semicolon]

def exportDeclaration (d : Dialect) (declaration : P) : P :=
  seqs [decorators, kw "export", alts [
    seqs [kw "default", .alt declaration (.seq value semicolon)],
    seqs [sign "*", opt (.seq (kw "as") exportName), from', semicolon],
    seqs [maybe d.types (kw "type"), specifiers, opt from', semicolon],
    whenever d.types (seqs [kw "as", kw "namespace", ident, semicolon]),
    whenever d.types (seqs [sign "=", .symbol .expression, semicolon]),
    whenever d.types (importDeclaration d),
    declaration]]

/-! ## Declarations of types -/

def interfaceDeclaration : P :=
  seqs [kw "interface", .lineGap, ident, opt typeParameters,
    opt (.seq (kw "extends") (sep type comma)), .symbol .objectType]

def typeAlias : P :=
  seqs [kw "type", .lineGap, ident, opt typeParameters, sign "=", type, typeEnd]

def enumDeclaration : P :=
  seqs [opt (kw "const"), kw "enum", ident, sign "\x7b",
    listOf (other (.seq propertyName (opt (.seq (sign "=") value)))) comma, sign "\x7d"]

def moduleDeclaration : P :=
  .alt
    (seqs [kws ["namespace", "module"], .lineGap, .alt string (sep ident (sign ".")),
      .alt (.symbol .block) typeEnd])
    (seqs [kw "global", .symbol .block])

def typeDeclaration : P :=
  alts [interfaceDeclaration, typeAlias, enumDeclaration, moduleDeclaration]

def plainDeclaration (d : Dialect) : P :=
  alts [functionDeclaration d, classDeclaration d,
    whenever d.types typeDeclaration,
    .seq (variableDeclaration d) semicolon]

def declaration (d : Dialect) : P :=
  .alt (plainDeclaration d)
    (whenever d.types (seqs [kwHere "declare", .alt (plainDeclaration d) statement]))

/-! ## Statements -/

def forHead (d : Dialect) : P :=
  .alt
    (seqs [.alt (.seq (kws ["const", "let", "var"]) (.symbol .pattern)) (.symbol .operand),
      maybe d.types annotated, kws ["in", "of"], .symbol .expression])
    (seqs [opt (.alt (variableDeclaration d) (.symbol .expression)), sign ";",
      opt (.symbol .expression), sign ";", opt (.symbol .expression)])

def forStatement (d : Dialect) : P :=
  seqs [kw "for", opt (kw "await"), sign "(", forHead d, sign ")", statement]

def switchStatement : P :=
  seqs [kw "switch", parenthesized, sign "\x7b",
    .many (seqs [.alt (.seq (kw "case") (other (.symbol .expression))) (kw "default"), sign ":",
      .many statement]),
    sign "\x7d"]

def tryStatement (d : Dialect) : P :=
  seqs [kw "try", .symbol .block,
    opt (seqs [kw "catch",
      opt (seqs [sign "(", .symbol .pattern, maybe d.types annotated, sign ")"]), .symbol .block]),
    opt (.node .finally (.seq (kw "finally") (.symbol .block)))]

/-- A line end right after `return` ends the statement. -/
def returnStatement : P :=
  .node .return (.seq (kw "return") (.alt semicolon (.seq (.symbol .expression) semicolon)))

def statementRule (d : Dialect) : P :=
  alts [
    .symbol .block,
    sign ";",
    declaration d,
    importDeclaration d,
    exportDeclaration d (declaration d),
    seqs [kw "if", parenthesized, statement, opt (.seq (kw "else") statement)],
    forStatement d,
    seqs [kw "while", parenthesized, statement],
    seqs [kw "do", statement, kw "while", parenthesized, opt (sign ";")],
    switchStatement,
    tryStatement d,
    returnStatement,
    seqs [kw "throw", other (.symbol .expression), semicolon],
    seqs [kws ["break", "continue"], opt (.seq .lineGap (.word reserved)), semicolon],
    seqs [kw "debugger", semicolon],
    seqs [kw "with", parenthesized, statement],
    seqs [ident, sign ":", statement],
    seqs [other (.symbol .expression), semicolon]]

end LeakScan.Grammar.Script
