import LeakScan.Match
import LeakScan.Regex.Search

/-!
# LeakScan.Match.Textual

Matching by regular expressions. Named groups are bindings.

* `Coverage` — all patterns, or only those of roles that have no structural form.
* `TextualPattern.regexFor` — the expression for a file; imports that rename a call change it.
* `textualMatches` — the matches of one rule. A match on a comment line does not count.
-/

namespace LeakScan

open Text

/-- Which roles the textual matcher runs. -/
inductive Coverage where
  | everything
  /-- Roles without any structural pattern. -/
  | gaps
  deriving DecidableEq, Repr

/-- The roles of a rule to be matched as text. -/
def Coverage.roles (c : Coverage) (rule : Rule) : List Role :=
  match c with
  | .everything => Role.all
  | .gaps => Role.all.filter fun role => !(rule.patterns role).any (·.structural.isSome)

def TextualPattern.regexFor (p : TextualPattern) (imports : ImportAliases) (ruleId : String) :
    Except Failure Regex :=
  if imports.affects p.calls then
    match Regex.ofPattern (imports.expand p.source) with
    | .ok regex => .ok regex
    | .error e => .error (.malformedRule ruleId s!"aliased pattern: {e.message}")
  else .ok p.regex

/-- The bindings of a match, by the names of its groups. The latest text of a group counts, and
stands first. -/
def groupBindings (text : List Char) (m : Regex.Match) : Bindings :=
  m.groups.foldr (fun (name, span) b => b.bind name ((slice? text span).getD [])) .empty

/-- A match that says something and does not stand on a comment line. -/
def counts (source : Source) (m : Regex.Match) : Bool :=
  !m.span.isEmpty && !source.isCommentLine m.span.start

def regexMatches (source : Source) (ruleId : String) (role : Role) (index : Nat) (regex : Regex) :
    List RawMatch :=
  ((regex.findAll source.text).filter (counts source)).map fun m =>
    { ruleId := ruleId, role := role, pattern := index, span := m.span
      bindings := groupBindings source.text m
      text := String.ofList ((slice? source.text m.span).getD []), mode := .textual }

/-- The textual patterns of a rule with their roles and places. -/
def textualPatterns (coverage : Coverage) (rule : Rule) : List (Role × Nat × TextualPattern) :=
  (coverage.roles rule).flatMap fun role =>
    (rule.patterns role).zipIdx.filterMap fun (p, index) =>
      p.textual.map fun t => (role, index, t)

def matchPatterns (source : Source) (cancelled : Bool) (rule : Rule) :
    List (Role × Nat × TextualPattern) → Except Failure (List RawMatch)
  | [] => .ok []
  | (role, index, pattern) :: rest =>
    if cancelled then .error .cancelled
    else
      match pattern.regexFor source.imports rule.id with
      | .error e => .error e
      | .ok regex =>
        match matchPatterns source cancelled rule rest with
        | .error e => .error e
        | .ok more => .ok (regexMatches source rule.id role index regex ++ more)

def textualMatches (coverage : Coverage) (source : Source) (cancelled : Bool) (rule : Rule) :
    Except Failure (List RawMatch) :=
  matchPatterns source cancelled rule (textualPatterns coverage rule)

end LeakScan
