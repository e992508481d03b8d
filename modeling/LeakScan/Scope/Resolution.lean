import LeakScan.Configuration
import LeakScan.Grammar
import LeakScan.Scope.Outline
import LeakScan.Source

/-!
# LeakScan.Scope.Resolution

The scope tree of a file.

* `grammarTree` — by the grammar of its language. The tree is precise for a text that the grammar
  accepts; any other text is taken by its look.
* `resolveScopes` — by the grammar or, for a language without one, by the look of the text.
-/

namespace LeakScan

open Text Scope

def grammarTree (lifecycle : Lifecycle) (s : Source) : Except Failure ScopeTree :=
  if s.language.hasGrammar then
    match grammarSkeleton? s.language s.path s.text with
    | some skeleton => .ok (ScopeTree.build skeleton s.size true lifecycle)
    | none => .ok (outlineTree s.language lifecycle s.text)
  else .error (.toolFailed "tree-sitter" s!"no grammar for {s.language.name}")

def resolveScopes (mode : ScopeMode) (lifecycle : Lifecycle) (s : Source) : ScopeTree :=
  match mode with
  | .heuristic => outlineTree s.language lifecycle s.text
  | .auto =>
    match grammarTree lifecycle s with
    | .ok t => t
    | .error _ => outlineTree s.language lifecycle s.text

end LeakScan
