import LeakScan.Imports
import LeakScan.Language
import LeakScan.Severity

/-!
# LeakScan.Rule

Rules: a kind of resource, how it is acquired and cleaned up, and where a cleanup counts.

* `Role` — acquisition or cleanup.
* `TextualPattern`, `Pattern` — the forms in which code is recognised.
* `CleanupContext` — places where a cleanup counts.
* `Rule` — one rule of a catalog.
-/

namespace LeakScan

open Text

inductive Role where
  | acquire
  | cleanup
  deriving DecidableEq, Repr, Inhabited

def Role.name : Role → String
  | .acquire => "acquire"
  | .cleanup => "cleanup"

def Role.all : List Role := [.acquire, .cleanup]

def Role.ofName? (s : String) : Option Role := all.find? fun r => r.name == s

/-- A regular expression for code, with call placeholders. `regex` is compiled from `expanded`,
the source with each placeholder at its default spelling. -/
structure TextualPattern where
  source : String
  expanded : String
  regex : Regex
  calls : List String

def TextualPattern.ofSource (source : String) : Except Regex.PatternError TextualPattern :=
  let expanded := ImportAliases.expand {} source
  match Regex.ofPattern expanded with
  | .ok regex =>
    .ok { source := source, expanded := expanded, regex := regex, calls := placeholderCalls source }
  | .error e => .error e

/-- A pattern has a structural form, a textual form, or both. -/
structure Pattern where
  structural : Option String
  textual : Option TextualPattern

inductive CleanupContext where
  | sameScope
  | finally
  | returnedClosure
  | pairedLifecycle
  | teardownMethod
  deriving DecidableEq, Repr, Inhabited

namespace CleanupContext

def all : List CleanupContext :=
  [.sameScope, .finally, .returnedClosure, .pairedLifecycle, .teardownMethod]

def name : CleanupContext → String
  | .sameScope => "same_scope"
  | .finally => "finally"
  | .returnedClosure => "returned_closure"
  | .pairedLifecycle => "paired_lifecycle"
  | .teardownMethod => "teardown_method"

def ofName? (s : String) : Option CleanupContext := all.find? fun c => c.name == s

end CleanupContext

structure Rule where
  id : String
  language : Language
  kind : String
  category : String
  severity : Severity
  acquire : List Pattern
  cleanup : List Pattern
  anchors : List String
  summary : String
  remediation : Option String
  contexts : List CleanupContext

namespace Rule

def patterns (r : Rule) : Role → List Pattern
  | .acquire => r.acquire
  | .cleanup => r.cleanup

def hasStructural (r : Rule) : Bool := (r.acquire ++ r.cleanup).any (·.structural.isSome)

/-- The calls named by placeholders of its textual patterns. -/
def textualCalls (r : Rule) : List String :=
  (r.acquire ++ r.cleanup).flatMap fun p =>
    match p.textual with
    | some t => t.calls
    | none => []

/-- A rule without anchors may match anywhere; otherwise one of them has to occur in the text. -/
def anchorsPresent (r : Rule) (text : List Char) : Bool :=
  r.anchors.isEmpty || r.anchors.any fun a => occursIn a.toList text

/-- Rules for JavaScript apply to TypeScript too. -/
def appliesTo (r : Rule) (l : Language) : Bool :=
  r.language == l || (l == .typescript && r.language == .javascript)

end Rule

end LeakScan
