import LeakScan.Grammar.Script.Expressions

/-!
# LeakScan.Grammar.Script.Markup

Elements of markup as values.
-/

namespace LeakScan.Grammar.Script

open Text Regex Phrase

def tagPart : P :=
  .seq (.word []) (.many (.seq (.text ['-']) (.many (.one (.union .word (.one '$'))))))

def tagName : P := .seq .gap (sep tagPart (seqs [.gap, .one (.ofChars ".:"), .gap]))

def braced (p : P) : P := other (seqs [sign "\x7b", p, sign "\x7d"])

def spread : P := seqs [sign "...", value]

def property : P :=
  .alt (braced spread)
    (other (seqs [tagName, opt (.seq (sign "=") (alts [
      other (.seq .gap (.alt
        (seqs [.text ['"'], .many (.one (.noneOf "\"")), .text ['"']])
        (seqs [.text ['\''], .many (.one (.noneOf "'")), .text ['\'']]))),
      braced (.symbol .expression),
      .symbol .element]))]))

def child : P :=
  alts [
    .one (.noneOf "\x7b\x7d<>"),
    seqs [.text ['\x7b'], other (.seq (opt (.alt spread (.symbol .expression))) (sign "\x7d"))],
    .symbol .element]

def elementRule (d : Dialect) : P :=
  other (seqs [sign "<", .alt
    (seqs [sign ">", .many child, sign "</", sign ">"])
    (seqs [tagName, maybe d.types typeArguments, .many property, .alt
      (sign "/>")
      (seqs [.gap, .text ['>'], .many child, sign "</", tagName, sign ">"])])])

end LeakScan.Grammar.Script
