import LeakScan.Grammar.Go
import LeakScan.Grammar.Java
import LeakScan.Grammar.Python
import LeakScan.Grammar.Script
import LeakScan.Grammar.Skeleton
import LeakScan.Language

/-!
# LeakScan.Grammar

The languages that have a grammar.

* `parseSource?` — the constructs of a text that its grammar accepts.
* `grammarSkeleton?` — the skeleton of such a text.
-/

namespace LeakScan

open Grammar Scope

/-- The constructs of a text. Which grammar holds may hang on the name of the file. -/
def parseSource? (language : Language) (path : String) (text : List Char) : Option Tree :=
  match language with
  | .go => Go.grammar.parse? (items text)
  | .java => Java.grammar.parse? (items text)
  | .python => Python.grammar.parse? (Python.arrange text)
  | .javascript => (Script.grammar Script.plain).parse? (items text)
  | .typescript =>
    let dialect := if Language.isTsx path then Script.typedMarkup else Script.typed
    (Script.grammar dialect).parse? (items text)
  | _ => none

def grammarSkeleton? (language : Language) (path : String) (text : List Char) : Option Skeleton :=
  (parseSource? language path text).map (Tree.skeleton text)

end LeakScan
