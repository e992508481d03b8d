import LeakScan.Report

/-!
# LeakScan.Report.Console

Reports as text for a terminal, with or without colours.

* `Style`, `paint` — how a piece of text is set off.
* `padRight`, `padLeft` — columns of fixed width.
* `Report.console` — the whole text.
-/

namespace LeakScan

/-! ## Styles -/

structure Style where
  bold : Bool := false
  dimmed : Bool := false
  color : Option String := none
  deriving DecidableEq, Repr

namespace Style

def bright (color : String) : Style := { bold := true, color := some ("bright " ++ color) }

def strong (color : String) : Style := { bold := true, color := some color }

def inColor (color : String) : Style := { color := some color }

/-- The code of a color; one that is not known is white. -/
def colorCode : String → Nat
  | "red" => 31
  | "green" => 32
  | "yellow" => 33
  | "blue" => 34
  | "cyan" => 36
  | "bright red" => 91
  | "bright blue" => 94
  | _ => 37

def codes (s : Style) : List Nat :=
  (if s.bold then [1] else []) ++ (if s.dimmed then [2] else []) ++
    (s.color.map colorCode).toList

end Style

/-- What ends a style. -/
def resetSequence : String := "\x1b[0m"

/-- Sets text off by escape sequences. A style goes on after a reset inside the text. -/
def paint (colored : Bool) (style : Style) (text : String) : String :=
  if colored then
    let start := "\x1b[" ++ String.intercalate ";" (style.codes.map toString) ++ "m"
    start ++ text.replace resetSequence (resetSequence ++ start) ++ resetSequence
  else text

def padRight (width : Nat) (s : String) : String :=
  s ++ String.ofList (List.replicate (width - s.length) ' ')

def padLeft (width : Nat) (s : String) : String :=
  String.ofList (List.replicate (width - s.length) ' ') ++ s

namespace Report

def consoleHead (colored : Bool) (r : Report) : String :=
  let s := r.summary
  "\n" ++ paint colored (.bright "blue") "Resource lifecycle scan:" ++ s!" {s.root}\n" ++
    s!"   {s.filesScanned} files scanned, {s.filesSkipped} skipped, {s.rulesLoaded} rules, " ++
    s!"{s.matcherMode.name} matching, {s.elapsed}ms\n" ++
    (match s.structuralVersion with
      | some v => "   " ++ paint colored { dimmed := true } v ++ "\n"
      | none => "") ++
    if r.findings.isEmpty then
      "\n" ++ paint colored (.inColor "green") "✅" ++ " No unreleased resources found\n"
    else s!"\n⚠️  {s.leaked} leaked and {s.ambiguous} ambiguous acquisitions:\n"

def consoleLocation (colored : Bool) (l : Location) : String :=
  let place := paint colored (.inColor "cyan") l.text
  match l.snippet with
  | some s => s!"     - {place}  " ++ paint colored { dimmed := true } s ++ "\n"
  | none => s!"     - {place}\n"

def upperCase (s : String) : String := String.ofList (s.toList.map Char.toUpper)

def verdictStyle : Verdict → Style
  | .ambiguous => .inColor "yellow"
  | _ => .inColor "red"

def consoleFinding (colored : Bool) (number : Nat) (f : Finding) : String :=
  let severity := paint colored (.strong f.severity.color) (upperCase f.severity.name)
  let rule := paint colored { bold := true } f.ruleId
  let verdict := paint colored (verdictStyle f.verdict) f.verdict.name
  s!"\n{number}. {f.severity.emoji} {severity} {rule} [{verdict}] " ++
    s!"x{f.occurrences} in {f.files} file(s), confidence {f.confidence.title}\n   {f.title}\n" ++
    String.join (f.locations.map (consoleLocation colored)) ++
    (if f.locations.length < f.occurrences.toNat then
        s!"     ... and {f.occurrences.toNat - f.locations.length} more\n"
      else "") ++
    match f.remediation with
    | some r => "   " ++ paint colored (.inColor "green") "Fix:" ++ s!" {r}\n"
    | none => ""

def consoleCategory (name : String) (c : CategoryTally) : String :=
  s!"   {padRight 20 name} cleaned {padLeft 4 (toString c.cleaned)}  " ++
    s!"leaked {padLeft 4 (toString c.leaked)}  ambiguous {padLeft 4 (toString c.ambiguous)}\n"

def consoleLint (colored : Bool) (l : LintFinding) : String :=
  "\n" ++ paint colored { bold := true } "Linter" ++ s!" {l.linter}: {l.count} issue(s)\n" ++
    String.join (l.samples.map fun s => s!"     - {s.text}\n")

def consoleStatus (colored : Bool) : RunStatus → String
  | .clean => paint colored (.strong "green") "clean"
  | .cleanDegraded => paint colored (.strong "yellow") "clean (some checks degraded)"
  | .issues => paint colored (.strong "red") "issues"

def console (colored : Bool) (r : Report) : String :=
  r.consoleHead colored ++
    String.join (r.findings.zipIdx.map fun (f, i) => consoleFinding colored (i + 1) f) ++
    (if r.categories.isEmpty then ""
      else "\n" ++ paint colored { bold := true } "Categories" ++ "\n" ++
        String.join (r.categories.entries.map fun (n, c) => consoleCategory n c)) ++
    String.join (r.lints.map (consoleLint colored)) ++
    (if r.diagnosticCounts.isEmpty then ""
      else
        let counts := r.diagnosticCounts.entries.map fun (n, c) => s!"{n} {c}"
        "\n" ++ paint colored { dimmed := true } "Diagnostics:" ++ " " ++
          String.intercalate ", " counts ++ "\n") ++
    (match r.baseline with
      | some d =>
        "\n" ++ paint colored { bold := true } "Baseline:" ++
          s!" {d.new.length} new, {d.resolved.length} resolved, {d.changed.length} changed\n"
      | none => "") ++
    "\nStatus: " ++ consoleStatus colored r.summary.status ++
    (if r.summary.cancelled then
        " " ++ paint colored (.inColor "yellow") "(cancelled, partial results)"
      else "") ++
    "\n"

end Report

end LeakScan
