import LeakScan.Grammar.Script.Markup
import LeakScan.Grammar.Script.Statements

/-!
# LeakScan.Grammar.Script

The grammars of JavaScript and TypeScript, as far as scopes need them.

* `Script.grammar` — the grammar of a dialect.
* `Script.plain`, `Script.typed`, `Script.typedMarkup` — the dialects.
-/

namespace LeakScan.Grammar.Script

open Text Regex Phrase

/-- A first line that names an interpreter. -/
def hashbang : P := opt (seqs [.text "#!".toList, .many (.one (.noneOf "\n"))])

def rule (d : Dialect) : Symbol → P
  | .file => .lines false (seqs [hashbang, .many statement, .gap])
  | .statement => statementRule d
  | .block => seqs [sign "\x7b", .many statement, sign "\x7d"]
  | .classBody => classBodyRule d
  | .expression => expressionRule
  | .value => valueRule d
  | .unary => unaryRule d
  | .operand => operandRule d
  | .template => templateRule
  | .object => objectRule d
  | .arguments => argumentsRule
  | .parameters => parametersRule d
  | .pattern => patternRule
  | .decorator => decoratorRule d
  | .element => elementRule d
  | .type => typeRule
  | .unionType => unionTypeRule
  | .objectType => objectTypeRule

def lexicon : Lexicon where
  isStart c := isAlphabetic c || c == '_' || c == '$'
  isPart c := isAlphanumeric c || c == '_' || c == '$' || c == '\u200c' || c == '\u200d'
  skip := skipAll
  skipLine := skipLine

def grammar (d : Dialect) : Grammar Symbol :=
  { lexicon := lexicon, rule := rule d, start := .file }

/-- JavaScript, which may hold markup. -/
def plain : Dialect := ⟨false, true⟩

def typed : Dialect := ⟨true, false⟩

def typedMarkup : Dialect := ⟨true, true⟩

end LeakScan.Grammar.Script
