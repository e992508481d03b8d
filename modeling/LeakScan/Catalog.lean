import LeakScan.Catalog.Builtin

/-!
# LeakScan.Catalog

The rules of a scan.

* `Catalog` — rules with distinct ids in the order of loading, the merged lifecycle table, and
  diagnostics for everything that was left out.
* `Catalog.absorb` — adds a document; a rule whose id is taken is left out.
* `Catalog.load` — the built-in document, then rule files in order.
* `CategorySelection`, `Catalog.select` — the part of a catalog that a scan asks for.
* `Catalog.anchors` — texts of which one occurs in every file with a match.
-/

namespace LeakScan

open Text

/-- Which categories of rules apply. When `only` names any, `skip` is not looked at. -/
structure CategorySelection where
  only : List String := []
  skip : List String := []
  deriving DecidableEq, Repr, Inhabited

def CategorySelection.allows (s : CategorySelection) (category : String) : Bool :=
  if s.only.isEmpty then !s.skip.contains category else s.only.contains category

structure Catalog where
  rules : List Rule := []
  lifecycle : Lifecycle := {}
  diagnostics : List Diagnostic := []

namespace Catalog

/-- Adds one rule, or a diagnostic when its id is taken. -/
def add (c : Catalog) (r : Rule) : Catalog :=
  if c.rules.any (·.id == r.id) then
    { c with diagnostics := c.diagnostics ++
        [Diagnostic.ofFailure (.malformedRule r.id "duplicate rule id")] }
  else { c with rules := c.rules ++ [r] }

def absorb (c : Catalog) (d : LoadedRules) : Catalog :=
  let c := { c with
    diagnostics := c.diagnostics ++ d.diagnostics
    lifecycle := match d.lifecycle with
      | some t => c.lifecycle.merge t
      | none => c.lifecycle }
  d.rules.foldl add c

def builtin : Catalog := absorb {} Builtin.document.load

/-- A rule file: its path and its text, or why it cannot be read. -/
structure RuleFile where
  path : String
  content : Except Failure String

def RuleFile.document (f : RuleFile) : Except Failure RuleDocument :=
  match f.content with
  | .ok text => RuleDocument.parse text f.path
  | .error e => .error e

/-- Adds a rule file. One that cannot be read or is no document leaves a warning only. -/
def addFile (c : Catalog) (f : RuleFile) : Catalog :=
  match f.document with
  | .ok d => c.absorb d.load
  | .error e =>
    { c with diagnostics := c.diagnostics ++
        [(Diagnostic.warning .malformedRule s!"cannot load rule file: {e.message}").withPath
          f.path] }

def load (files : List RuleFile) : Catalog := files.foldl addFile builtin

/-- The rules that apply to a language, in catalog order. -/
def rulesFor (c : Catalog) (l : Language) : List Rule := c.rules.filter (·.appliesTo l)

def select (c : Catalog) (s : CategorySelection) : Catalog :=
  { c with rules := c.rules.filter fun r => s.allows r.category }

def rule? (c : Catalog) (id : String) : Option Rule := c.rules.find? (·.id == id)

/-- All anchors, sorted, each once; none when some rule has no anchor. -/
def anchors (c : Catalog) : List String :=
  if c.rules.any (·.anchors.isEmpty) then []
  else (SortedMap.ofList ((c.rules.flatMap (·.anchors)).map (·, ()))).keys

end Catalog

end LeakScan
