import LeakScan.Diagnostic
import LeakScan.Json.Value
import LeakScan.Rule

/-!
# LeakScan.Rule.Draft

Rules as a document writes them, before they are checked.

* `RuleDraft`, `PatternDraft` — the fields of an entry, all of them still texts.
* `RuleDraft.ofJson` — reading an entry. The fields of an object are read in the order of their
  names, so the first ill-typed one in that order is reported, before any missing one. An array
  gives the fields in the order of declaration.
* `RuleDraft.check` — the rule that a draft describes, or the first thing wrong with it.
-/

namespace LeakScan

open Text

structure PatternDraft where
  structural : Option String := none
  textual : Option String := none
  deriving DecidableEq, Repr

structure RuleDraft where
  id : String
  language : String
  kind : String
  category : String
  severity : String
  anchors : List String := []
  summary : String
  remediation : Option String := none
  acquire : List PatternDraft
  cleanup : List PatternDraft
  contexts : List String := ["same_scope", "finally"]
  deriving DecidableEq, Repr

namespace Json

/-! ## Typed reading of values -/

def mismatch (v : Json) (expected : String) : String :=
  s!"invalid type: {v.kind}, expected {expected}"

def asString : Json → Except String String
  | .str s => .ok s
  | v => .error (mismatch v "a string")

def asOption (f : Json → Except String α) : Json → Except String (Option α)
  | .null => .ok none
  | v =>
    match f v with
    | .ok a => .ok (some a)
    | .error e => .error e

def mapItems (f : Json → Except String α) : List Json → Except String (List α)
  | [] => .ok []
  | v :: vs =>
    match f v with
    | .error e => .error e
    | .ok a =>
      match mapItems f vs with
      | .ok as => .ok (a :: as)
      | .error e => .error e

def asList (f : Json → Except String α) : Json → Except String (List α)
  | .arr items => mapItems f items
  | v => .error (mismatch v "a sequence")

/-- The typed value of a field, if the object has it. -/
def readField (fields : List (String × Json)) (name : String) (f : Json → Except String α) :
    Except String (Option α) :=
  match fields.lookup name with
  | none => .ok none
  | some v =>
    match f v with
    | .ok a => .ok (some a)
    | .error e => .error e

def required (name : String) : Option α → Except String α
  | some a => .ok a
  | none => .error s!"missing field `{name}`"

/-- The typed value at a position of an array, if the array is long enough. -/
def readItem (items : List Json) (index : Nat) (f : Json → Except String α) :
    Except String (Option α) :=
  match items[index]? with
  | none => .ok none
  | some v =>
    match f v with
    | .ok a => .ok (some a)
    | .error e => .error e

def requiredAt (index : Nat) (expected : String) : Option α → Except String α
  | some a => .ok a
  | none => .error s!"invalid length {index}, expected {expected}"

/-- An array given for a record may not be longer than the record. -/
def notLonger (items : List Json) (count : Nat) : Except String Unit :=
  if items.length ≤ count then .ok ()
  else .error s!"invalid length {items.length}, expected fewer elements in array"

end Json

open Json

def PatternDraft.ofJson : Json → Except String PatternDraft
  | .obj fields => do
    let structural ← readField fields "structural" (asOption asString)
    let textual ← readField fields "textual" (asOption asString)
    return { structural := structural.join, textual := textual.join }
  | .arr items => do
    let structural ← readItem items 0 (asOption asString)
    let textual ← readItem items 1 (asOption asString)
    notLonger items 2
    return { structural := structural.join, textual := textual.join }
  | v => .error (mismatch v "struct RawPattern")

def RuleDraft.defaultContexts : List String := ["same_scope", "finally"]

def RuleDraft.ofJson : Json → Except String RuleDraft
  | .obj fields => do
    let acquire ← readField fields "acquire" (asList PatternDraft.ofJson)
    let anchors ← readField fields "anchors" (asList asString)
    let category ← readField fields "category" asString
    let cleanup ← readField fields "cleanup" (asList PatternDraft.ofJson)
    let contexts ← readField fields "contexts" (asList asString)
    let id ← readField fields "id" asString
    let kind ← readField fields "kind" asString
    let language ← readField fields "language" asString
    let remediation ← readField fields "remediation" (asOption asString)
    let severity ← readField fields "severity" asString
    let summary ← readField fields "summary" asString
    let id ← required "id" id
    let language ← required "language" language
    let kind ← required "kind" kind
    let category ← required "category" category
    let severity ← required "severity" severity
    let summary ← required "summary" summary
    let acquire ← required "acquire" acquire
    let cleanup ← required "cleanup" cleanup
    return {
      id := id, language := language, kind := kind, category := category, severity := severity
      anchors := anchors.getD [], summary := summary, remediation := remediation.join
      acquire := acquire, cleanup := cleanup, contexts := contexts.getD defaultContexts }
  | .arr items => do
    let expected := "struct RawRule with 11 elements"
    let id ← requiredAt 0 expected (← readItem items 0 asString)
    let language ← requiredAt 1 expected (← readItem items 1 asString)
    let kind ← requiredAt 2 expected (← readItem items 2 asString)
    let category ← requiredAt 3 expected (← readItem items 3 asString)
    let severity ← requiredAt 4 expected (← readItem items 4 asString)
    let anchors ← readItem items 5 (asList asString)
    let summary ← requiredAt 6 expected (← readItem items 6 asString)
    let remediation ← readItem items 7 (asOption asString)
    let acquire ← requiredAt 8 expected (← readItem items 8 (asList PatternDraft.ofJson))
    let cleanup ← requiredAt 9 expected (← readItem items 9 (asList PatternDraft.ofJson))
    let contexts ← readItem items 10 (asList asString)
    notLonger items 11
    return {
      id := id, language := language, kind := kind, category := category, severity := severity
      anchors := anchors.getD [], summary := summary, remediation := remediation.join
      acquire := acquire, cleanup := cleanup, contexts := contexts.getD defaultContexts }
  | v => .error (mismatch v "struct RawRule")

/-! ## Checking -/

/-- The text without white space around it, unless nothing is left. -/
def nonBlank? (s : String) : Option String :=
  let t := trimString s
  if t == "" then none else some t

def PatternDraft.check (role : Role) (index : Nat) (d : PatternDraft) : Except String Pattern :=
  let structural := d.structural.bind nonBlank?
  match d.textual.filter (· != "") with
  | some source =>
    match TextualPattern.ofSource source with
    | .ok t => .ok { structural := structural, textual := some t }
    | .error e => .error s!"{role.name}#{index}: bad regex: {e.message}"
  | none =>
    if structural.isSome then .ok { structural := structural, textual := none }
    else .error s!"{role.name}#{index} has neither a structural nor a textual form"

def PatternDraft.checkAll (role : Role) (index : Nat) :
    List PatternDraft → Except String (List Pattern)
  | [] => .ok []
  | d :: ds =>
    match d.check role index with
    | .error e => .error e
    | .ok p =>
      match checkAll role (index + 1) ds with
      | .ok ps => .ok (p :: ps)
      | .error e => .error e

/-- The contexts by name, each once, in the order of their first mention. -/
def RuleDraft.checkContexts (acc : List CleanupContext) :
    List String → Except String (List CleanupContext)
  | [] => if acc.isEmpty then .error "no cleanup contexts" else .ok acc
  | n :: ns =>
    match CleanupContext.ofName? n with
    | none => .error s!"unknown cleanup context `{n}`"
    | some c => checkContexts (if acc.contains c then acc else acc ++ [c]) ns

/-- The rule of a draft whose id is `id`. -/
def RuleDraft.checkBody (d : RuleDraft) (id : String) : Except String Rule := do
  let some language := Language.ofName? d.language
    | .error s!"unknown language `{d.language}`"
  let some severity := Severity.ofName? d.severity
    | .error s!"unknown severity `{d.severity}`"
  let some kind := nonBlank? d.kind
    | .error "empty resource kind"
  let some category := nonBlank? d.category
    | .error "empty category"
  if d.acquire.isEmpty then .error "no acquisition patterns"
  if d.cleanup.isEmpty then .error "no cleanup patterns"
  let contexts ← checkContexts [] d.contexts
  let acquire ← PatternDraft.checkAll .acquire 0 d.acquire
  let cleanup ← PatternDraft.checkAll .cleanup 0 d.cleanup
  return {
    id := id, language := language, kind := kind, category := category, severity := severity
    acquire := acquire, cleanup := cleanup, anchors := d.anchors.filter (· != "")
    summary := d.summary, remediation := d.remediation, contexts := contexts }

/-- The rule, or a failure under the id of the draft, or `fallbackId` when that is blank. -/
def RuleDraft.check (d : RuleDraft) (fallbackId : String) : Except Failure Rule :=
  match nonBlank? d.id with
  | none => .error (.malformedRule fallbackId "empty rule id")
  | some id =>
    match d.checkBody id with
    | .ok r => .ok r
    | .error reason => .error (.malformedRule id reason)

end LeakScan
