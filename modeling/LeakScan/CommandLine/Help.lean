import LeakScan.CommandLine.Arguments
import LeakScan.Report.Console

/-!
# LeakScan.CommandLine.Help

Help pages.

* `OptionSpec.label` — how an option is written on a page.
* `isTall` — texts stand below their options when a wide left column would push one past the margin.
* `Topic.page` — the page of a topic.
-/

namespace LeakScan.CommandLine

def programName : String := "tether"

namespace OptionSpec

/-- The option with its short form or the room for it, and its value. -/
def label (o : OptionSpec) : String :=
  let short :=
    match o.short with
    | some c => String.ofList ['-', c, ',', ' ']
    | none => "    "
  let value := if o.takesValue then s!" <{o.valueName}>" else if o.repeats then "..." else ""
  s!"{short}--{o.long}{value}"

/-- What a page says about an option. -/
def text (o : OptionSpec) : String :=
  let names := ", ".intercalate o.choices
  let choices := if o.choices.isEmpty then "" else s!"[possible values: {names}]"
  if o.about == "" then choices else if choices == "" then o.about else s!"{o.about} {choices}"

end OptionSpec

/-- The width of a page. -/
def pageWidth : Nat := 100

def widest (labels : List String) : Nat := labels.foldl (fun n s => max n s.length) 2

def isTall (options : List OptionSpec) : Bool :=
  let taken := widest (options.map (·.label)) + 12
  decide (taken ≤ pageWidth) && decide (40 < taken) &&
    options.any fun o => decide (pageWidth - taken < o.text.length)

def optionLine (tall : Bool) (width : Nat) (o : OptionSpec) : String :=
  if tall then s!"  {o.label}\n          {o.text}" else s!"  {padRight width o.label}  {o.text}"

def optionLines (options : List OptionSpec) : String :=
  let width := widest (options.map (·.label))
  "Options:\n" ++ "\n".intercalate (options.map (optionLine (isTall options) width)) ++ "\n"

def helpCommand : String × String :=
  ("help", "Print this message or the help of the given subcommand(s)")

def commandLines (commands : List (String × String)) : String :=
  let width := widest (commands.map (·.1))
  "Commands:\n" ++ String.join (commands.map fun (name, about) =>
    s!"  {padRight width name}  {about}\n") ++ "\n"

/-- A page of a command that has other commands below it. -/
def groupPage (about path : String) (commands : List (String × String))
    (options : List OptionSpec) : String :=
  s!"{about}\n\nUsage: {path} [OPTIONS] <COMMAND>\n\n" ++
    commandLines (commands ++ [helpCommand]) ++ optionLines options

def scanAbout : String := "Scan a project for unreleased resources"

def scanRunAbout : String := "Scan a file or directory"

def rulesAbout : String := "Inspect the rule catalog"

def rulesListAbout : String := "List the rules that would run"

def Topic.page : Topic → String
  | .program =>
    groupPage "Find resources that are acquired but never released" programName
      [("scan", scanAbout), ("rules", rulesAbout)] topOptions
  | .scan => groupPage scanAbout s!"{programName} scan" [("run", scanRunAbout)] groupOptions
  | .rules => groupPage rulesAbout s!"{programName} rules" [("list", rulesListAbout)] groupOptions
  | .scanRun =>
    s!"{scanRunAbout}\n\nUsage: {programName} scan run [OPTIONS] --input <INPUT>\n\n" ++
      optionLines scanOptions
  | .rulesList =>
    s!"{rulesListAbout}\n\nUsage: {programName} rules list [OPTIONS]\n\n" ++
      optionLines listOptions

end LeakScan.CommandLine
