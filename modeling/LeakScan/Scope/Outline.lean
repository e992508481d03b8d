import LeakScan.Scope.Outline.Braces
import LeakScan.Scope.Outline.Indentation
import LeakScan.Scope.Outline.Keywords
import LeakScan.Scope.Tree

/-!
# LeakScan.Scope.Outline

Outlines by the look of a text, without a grammar. Braces, indentation or keywords delimit blocks,
depending on the language; the trees built from such outlines are never precise.

* `outline` — the skeleton of a text.
* `outlineTree` — its scope tree.
-/

namespace LeakScan.Scope

open Text Outline

def outline (language : Language) (cs : List Char) : Skeleton :=
  let lines := linesOf cs
  let blocks :=
    match language with
    | .python => indentationBlocks lines (byteSize cs)
    | .ruby => keywordBlocks lines (byteSize cs)
    | _ => braceBlocks language cs
  blocks ++ lineStatements language lines

def outlineTree (language : Language) (lifecycle : Lifecycle) (cs : List Char) : ScopeTree :=
  ScopeTree.build (outline language cs) (byteSize cs) false lifecycle

end LeakScan.Scope
