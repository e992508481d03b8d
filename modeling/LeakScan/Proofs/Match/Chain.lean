import Mathlib.Data.List.Forall2
import LeakScan.Match.Chain
import LeakScan.Proofs.Match.Textual

/-!
# LeakScan.Proofs.Match.Chain

Rules do not disturb each other, and a failing matcher costs a rule its structure only.

* `share`, `degradation?` — what becomes of one rule, from the matcher's answer for it.
* `matchFile_eq_ok` — the result for a list of rules, put together from these.
* `matchFile_isolated` — the same in terms of the routes a rule can take.
-/

namespace LeakScan

/-- What one rule finds. -/
def share (structural : Option StructuralMatcher) (source : Source) (rule : Rule) : List RawMatch :=
  match structuralFor structural source rule with
  | none => textShare .everything source rule
  | some matcher =>
    match matcher source rule with
    | .ok records => records ++ textShare .gaps source rule
    | .error _ => textShare .everything source rule

/-- Why a rule is matched as text though it was to be matched by structure. -/
def degradation? (structural : Option StructuralMatcher) (source : Source) (rule : Rule) :
    Option Failure :=
  match structuralFor structural source rule with
  | none => none
  | some matcher =>
    match matcher source rule with
    | .ok _ => none
    | .error e => some e

/-- The matcher is asked for the rule. -/
def Rule.Asked (source : Source) (rule : Rule) : Prop :=
  rule.hasStructural = true ∧ source.imports.affects rule.textualCalls = false

instance (source : Source) (rule : Rule) : Decidable (rule.Asked source) :=
  inferInstanceAs (Decidable (_ ∧ _))

variable {tool : StructuralMatcher} {structural : Option StructuralMatcher} {source : Source}
  {rule : Rule}

/-! ## One rule -/

theorem structuralFor_none : structuralFor none source rule = none := by
  rw [structuralFor]
  exact ite_self _

theorem structuralFor_of_asked (h : rule.Asked source) :
    structuralFor (some tool) source rule = some tool := by
  rw [structuralFor, h.1, h.2]
  rfl

theorem structuralFor_of_not_asked (h : ¬ rule.Asked source) :
    structuralFor structural source rule = none := by
  rw [structuralFor, if_neg]
  intro hboth
  rw [Bool.and_eq_true, Bool.not_eq_true'] at hboth
  exact h hboth

theorem eq_some_of_structuralFor (h : structuralFor structural source rule = some tool) :
    structural = some tool := by
  rw [structuralFor] at h
  split at h
  · exact h
  · cases h

theorem share_none : share none source rule = textShare .everything source rule := by
  rw [share, structuralFor_none]

theorem share_of_not_asked (h : ¬ rule.Asked source) :
    share structural source rule = share none source rule := by
  rw [share_none, share, structuralFor_of_not_asked h]

theorem share_of_error {e : Failure} (h : tool source rule = .error e) :
    share (some tool) source rule = share none source rule := by
  by_cases hasked : rule.Asked source
  · rw [share_none, share, structuralFor_of_asked hasked]
    simp only [h]
  · exact share_of_not_asked hasked

theorem share_of_ok {records : List RawMatch} (hasked : rule.Asked source)
    (h : tool source rule = .ok records) :
    share (some tool) source rule = records ++ textShare .gaps source rule := by
  rw [share, structuralFor_of_asked hasked]
  simp only [h]

/-- Only the answer for the rule itself counts. -/
theorem share_congr {tool' : StructuralMatcher} (h : tool' source rule = tool source rule) :
    share (some tool') source rule = share (some tool) source rule := by
  by_cases hasked : rule.Asked source
  · rw [share, share, structuralFor_of_asked hasked, structuralFor_of_asked hasked]
    simp only [h]
  · exact (share_of_not_asked hasked).trans (share_of_not_asked hasked).symm

theorem degradation?_none : degradation? none source rule = none := by
  rw [degradation?, structuralFor_none]

theorem degradation?_eq_some_iff {e : Failure} :
    degradation? (some tool) source rule = some e ↔ rule.Asked source ∧ tool source rule = .error e := by
  by_cases hasked : rule.Asked source
  · rw [degradation?, structuralFor_of_asked hasked]
    cases htool : tool source rule <;> simp [hasked, htool]
  · rw [degradation?, structuralFor_of_not_asked hasked]
    simp [hasked]

/-- The matcher does not report a cancellation. -/
def Uncancelled (structural : Option StructuralMatcher) (source : Source) (rule : Rule) : Prop :=
  ∀ tool, structural = some tool → tool source rule ≠ .error .cancelled

theorem contribution_eq_ok (hread : rule.Readable source)
    (hcancel : Uncancelled structural source rule) :
    contribution structural source false rule =
      .ok { found := share structural source rule, degraded := degradation? structural source rule } := by
  have htext (degraded : Option Failure) : asText source false rule degraded =
      .ok { found := textShare .everything source rule, degraded := degraded } := by
    rw [asText, textualMatches_eq_ok hread]
  rw [contribution, share, degradation?]
  cases hfor : structuralFor structural source rule with
  | none => exact htext none
  | some matcher =>
    have hanswer := hcancel matcher (eq_some_of_structuralFor hfor)
    simp only
    cases h : matcher source rule with
    | ok records => simp only [textualMatches_eq_ok hread]
    | error e =>
      cases e with
      | cancelled => exact absurd h hanswer
      | _ => exact htext _

/-! ## All rules -/

/-- The diagnostic of a rule that was matched as text instead. -/
def degradedDiagnostic (source : Source) (rule : Rule) (e : Failure) : Diagnostic :=
  { Diagnostic.ofFailure e with path := some source.display, ruleId := some rule.id }

def degraded? (structural : Option StructuralMatcher) (source : Source) (rule : Rule) :
    Option Diagnostic :=
  (degradation? structural source rule).map (degradedDiagnostic source rule)

/-- The rules that may match in the file. -/
def anchored (source : Source) (rules : List Rule) : List Rule :=
  rules.filter fun rule => rule.anchorsPresent source.text

theorem FileMatches.append_eq (a b : FileMatches) :
    a ++ b = {
      found := a.found ++ b.found
      rulesRun := a.rulesRun + b.rulesRun
      degradedRules := a.degradedRules + b.degradedRules
      diagnostics := a.diagnostics ++ b.diagnostics } := rfl

/-- By induction on the rules; each step puts the result of one rule in front. -/
theorem matchFile_eq_ok {rules : List Rule}
    (hread : ∀ rule ∈ anchored source rules, rule.Readable source)
    (hcancel : ∀ rule ∈ rules, Uncancelled structural source rule) :
    matchFile structural source false rules = .ok {
      found := (anchored source rules).flatMap (share structural source)
      rulesRun := (anchored source rules).length
      degradedRules := ((anchored source rules).filterMap (degraded? structural source)).length
      diagnostics := (anchored source rules).filterMap (degraded? structural source) } := by
  induction rules with
  | nil => rfl
  | cons rule rest ih =>
    have hrest := fun h => ih h fun r hr => hcancel r (List.mem_cons_of_mem _ hr)
    rw [matchFile, if_neg Bool.false_ne_true]
    cases hanchor : rule.anchorsPresent source.text with
    | false =>
      have hskip : anchored source (rule :: rest) = anchored source rest :=
        List.filter_cons_of_neg (by simp [hanchor])
      rw [hskip] at hread ⊢
      simpa using hrest hread
    | true =>
      have hkeep : anchored source (rule :: rest) = rule :: anchored source rest :=
        List.filter_cons_of_pos hanchor
      rw [hkeep] at hread ⊢
      rw [contribution_eq_ok (hread rule List.mem_cons_self) (hcancel rule List.mem_cons_self),
        hrest fun r hr => hread r (List.mem_cons_of_mem _ hr)]
      simp only [Bool.not_true, Bool.false_eq_true, if_false, Except.ok.injEq]
      rw [FileMatches.append_eq]
      cases hdegraded : degradation? structural source rule <;>
        simp [FileMatches.ofContribution, hdegraded, degraded?, degradedDiagnostic,
          Diagnostic.withPath, Diagnostic.withRule, Nat.add_comm]

theorem filterMap_degraded?_none (rules : List Rule) :
    rules.filterMap (degraded? none source) = [] := by
  rw [List.filterMap_eq_nil_iff]
  intro rule _
  rw [degraded?, degradation?_none]
  rfl

/-- The matcher is asked for the rule and fails. -/
def Rule.FailsIn (source : Source) (tool : StructuralMatcher) (rule : Rule) : Prop :=
  rule.Asked source ∧ (tool source rule).isOk = false

instance (source : Source) (tool : StructuralMatcher) (rule : Rule) :
    Decidable (rule.FailsIn source tool) :=
  inferInstanceAs (Decidable ((_ ∧ _) ∧ _))

/-- One diagnostic for each failing rule, in order. -/
theorem degraded_forall₂ (tool : StructuralMatcher) (source : Source) (rules : List Rule) :
    List.Forall₂ (fun rule d => ∃ e, tool source rule = .error e ∧ d = degradedDiagnostic source rule e)
      (rules.filter fun rule => rule.FailsIn source tool)
      (rules.filterMap (degraded? (some tool) source)) := by
  induction rules with
  | nil => exact .nil
  | cons rule rest ih =>
    cases hdegraded : degradation? (some tool) source rule with
    | none =>
      have hkept : ¬ rule.FailsIn source tool := by
        rintro ⟨hasked, hanswer⟩
        cases h : tool source rule with
        | ok records =>
          rw [h] at hanswer
          cases hanswer
        | error e =>
          rw [degradation?_eq_some_iff.2 ⟨hasked, h⟩] at hdegraded
          cases hdegraded
      rw [List.filter_cons_of_neg (by simp [hkept]),
        List.filterMap_cons_none (by rw [degraded?, hdegraded]; rfl)]
      exact ih
    | some e =>
      obtain ⟨hasked, h⟩ := degradation?_eq_some_iff.1 hdegraded
      have hfails : rule.FailsIn source tool := ⟨hasked, by rw [h]; rfl⟩
      rw [List.filter_cons_of_pos (by simp [hfails]),
        List.filterMap_cons_some (by rw [degraded?, hdegraded]; rfl)]
      exact .cons ⟨e, h, rfl⟩ ih

theorem uncancelled_none : Uncancelled none source rule := by
  intro tool h
  cases h

theorem uncancelled_some (h : tool source rule ≠ .error .cancelled) :
    Uncancelled (some tool) source rule := by
  intro tool' h'
  cases h'
  exact h

theorem mem_anchored {rules : List Rule} :
    rule ∈ anchored source rules ↔ rule ∈ rules ∧ rule.anchorsPresent source.text = true := by
  rw [anchored, List.mem_filter]

/-- A rule by itself. -/
theorem matchFile_singleton (hanchor : rule.anchorsPresent source.text = true)
    (hread : rule.Readable source) (hcancel : Uncancelled structural source rule) :
    ∃ one, matchFile structural source false [rule] = .ok one ∧
      one.found = share structural source rule := by
  have hone : anchored source [rule] = [rule] := List.filter_cons_of_pos hanchor
  have hread' : ∀ r ∈ anchored source [rule], r.Readable source := by
    intro r hr
    rw [hone, List.mem_singleton] at hr
    rw [hr]
    exact hread
  have hcancel' : ∀ r ∈ [rule], Uncancelled structural source r := by
    intro r hr
    rw [List.mem_singleton] at hr
    rw [hr]
    exact hcancel
  refine ⟨_, matchFile_eq_ok hread' hcancel', ?_⟩
  rw [hone, List.flatMap_singleton]

/-- The matches are those of each anchored rule by itself, in order. A rule that is not asked for
and one that fails find what they find as text; nothing depends on the answers for other rules but
the list of diagnostics, one for each failing rule. -/
theorem matchFile_isolated (tool : StructuralMatcher) (source : Source) (rules : List Rule)
    (hread : ∀ rule ∈ anchored source rules, rule.Readable source)
    (hcancel : ∀ rule ∈ rules, tool source rule ≠ .error .cancelled) :
    ∃ out plain,
      matchFile (some tool) source false rules = .ok out ∧
      matchFile none source false rules = .ok plain ∧
      out.found = (anchored source rules).flatMap (share (some tool) source) ∧
      plain.found = (anchored source rules).flatMap (share none source) ∧
      (∀ rule ∈ anchored source rules,
        (∃ one, matchFile (some tool) source false [rule] = .ok one ∧
          one.found = share (some tool) source rule) ∧
        textualMatches .everything source false rule = .ok (share none source rule) ∧
        (¬ rule.Asked source ∨ rule.FailsIn source tool →
          share (some tool) source rule = share none source rule) ∧
        ∀ records, rule.Asked source → tool source rule = .ok records →
          ∃ gaps, textualMatches .gaps source false rule = .ok gaps ∧
            share (some tool) source rule = records ++ gaps) ∧
      (∀ tool' : StructuralMatcher, (∀ rule ∈ rules, tool' source rule ≠ .error .cancelled) →
        ∃ out', matchFile (some tool') source false rules = .ok out' ∧
          out'.found = (anchored source rules).flatMap (share (some tool') source) ∧
          out'.rulesRun = out.rulesRun ∧
          ∀ rule ∈ rules, tool' source rule = tool source rule →
            share (some tool') source rule = share (some tool) source rule) ∧
      out.rulesRun = (anchored source rules).length ∧ plain.rulesRun = out.rulesRun ∧
      out.degradedRules = out.diagnostics.length ∧
      List.Forall₂ (fun rule d => ∃ e, tool source rule = .error e ∧
          d = { Diagnostic.ofFailure e with path := some source.display, ruleId := some rule.id })
        ((anchored source rules).filter fun rule => rule.FailsIn source tool) out.diagnostics ∧
      plain.degradedRules = 0 ∧ plain.diagnostics = [] ∧
      ((∀ rule ∈ rules, (tool source rule).isOk = false) → out.found = plain.found) := by
  have hsome (tool' : StructuralMatcher) (h : ∀ rule ∈ rules, tool' source rule ≠ .error .cancelled) :
      ∀ rule ∈ rules, Uncancelled (some tool') source rule :=
    fun rule hrule => uncancelled_some (h rule hrule)
  have hfailed {rule : Rule} (h : (tool source rule).isOk = false) :
      share (some tool) source rule = share none source rule := by
    cases hanswer : tool source rule with
    | ok records =>
      rw [hanswer] at h
      cases h
    | error e => exact share_of_error hanswer
  refine ⟨_, _, matchFile_eq_ok hread (hsome tool hcancel), matchFile_eq_ok hread fun _ _ => uncancelled_none,
    rfl, rfl, fun rule hrule => ⟨?_, ?_, ?_, ?_⟩, fun tool' h' => ?_, rfl, rfl, rfl,
    degraded_forall₂ tool source _, ?_, filterMap_degraded?_none _, fun hall => ?_⟩
  · obtain ⟨hmem, hanchor⟩ := mem_anchored.1 hrule
    exact matchFile_singleton hanchor (hread rule hrule) (hsome tool hcancel rule hmem)
  · rw [share_none]
    exact textualMatches_eq_ok (hread rule hrule) _
  · rintro (hasked | hfails)
    · exact share_of_not_asked hasked
    · exact hfailed hfails.2
  · intro records hasked hanswer
    exact ⟨_, textualMatches_eq_ok (hread rule hrule) _, share_of_ok hasked hanswer⟩
  · exact ⟨_, matchFile_eq_ok hread (hsome tool' h'), rfl, rfl, fun rule _ h => share_congr h⟩
  · simp only [filterMap_degraded?_none, List.length_nil]
  · refine List.flatMap_congr fun rule hrule => hfailed (hall rule (mem_anchored.1 hrule).1)

def anchoredRule (id anchor structural textual : String) : Rule where
  id := id
  language := .python
  kind := "handle"
  category := "io-handles"
  severity := .warning
  acquire := [⟨some structural, (TextualPattern.ofSource textual).toOption⟩]
  cleanup := []
  anchors := [anchor]
  summary := "Handle is never closed"
  remediation := none
  contexts := [.sameScope]

def openRule : Rule := anchoredRule "py.open" "open" "open($A)" "open\\("

def threadRule : Rule := anchoredRule "py.thread" "Thread" "Thread($A)" "Thread\\("

/-- The imports of `handleSource` rename its call. -/
def aliasedRule : Rule := anchoredRule "py.socket" "socket" "socket.socket()" "@\x7bsocket.socket\x7d\\("

/-- Its anchor does not occur in `handleSource`. -/
def timerRule : Rule := anchoredRule "py.timer" "Timer" "Timer($A)" "Timer\\("

def handleRules : List Rule := [openRule, threadRule, aliasedRule, timerRule]

def handleSource : Source :=
  .ofText "a.py" .python "import socket as s\nf = open(p)\nt = Thread(g)\nc = s.socket()\n"

def threadRecord : RawMatch where
  ruleId := "py.thread"
  role := .acquire
  pattern := 0
  span := ⟨35, 44⟩
  bindings := .empty
  text := "Thread(g)"
  mode := .structural

/-- Fails for one rule and answers for the others. -/
def threadTool : StructuralMatcher := fun _ rule =>
  if rule.id = "py.open" then .error (.toolTimeout "ast-grep" 10) else .ok [threadRecord]

theorem handles_isolated :
    (∀ rule ∈ anchored handleSource handleRules, rule.Readable handleSource) ∧
    (∀ rule ∈ handleRules, threadTool handleSource rule ≠ .error .cancelled) ∧
    openRule.FailsIn handleSource threadTool ∧ ¬ aliasedRule.Asked handleSource ∧
    ∃ out, matchFile (some threadTool) handleSource false handleRules = .ok out ∧
      out.rulesRun = 3 ∧ out.degradedRules = 1 ∧
      share (some threadTool) handleSource openRule = share none handleSource openRule ∧
      share (some threadTool) handleSource aliasedRule = share none handleSource aliasedRule ∧
      ∃ gaps, textualMatches .gaps handleSource false threadRule = .ok gaps ∧
        share (some threadTool) handleSource threadRule = threadRecord :: gaps := by
  have hread : ∀ rule ∈ anchored handleSource handleRules, rule.Readable handleSource := by
    decide +kernel
  have hcancel : ∀ rule ∈ handleRules, threadTool handleSource rule ≠ .error .cancelled := by
    decide +kernel
  have hfails : openRule.FailsIn handleSource threadTool := by decide +kernel
  have haliased : ¬ aliasedRule.Asked handleSource := by decide +kernel
  have hasked : threadRule.Asked handleSource := by decide +kernel
  have hcount : (anchored handleSource handleRules).length = 3 := by decide +kernel
  have hfailing : ((anchored handleSource handleRules).filter fun rule =>
      rule.FailsIn handleSource threadTool).length = 1 := by decide +kernel
  have hmem {rule : Rule} (h : rule ∈ handleRules)
      (hanchor : rule.anchorsPresent handleSource.text = true) :
      rule ∈ anchored handleSource handleRules := mem_anchored.2 ⟨h, hanchor⟩
  obtain ⟨out, -, hout, -, -, -, hrule, -, hrun, -, hdegraded, hdiagnostics, -⟩ :=
    matchFile_isolated threadTool handleSource handleRules hread hcancel
  refine ⟨hread, hcancel, hfails, haliased, out, hout, hrun.trans hcount,
    hdegraded.trans (hdiagnostics.length_eq.symm.trans hfailing), ?_, ?_, ?_⟩
  · exact (hrule openRule (hmem (by simp [handleRules]) (by decide +kernel))).2.2.1 (.inr hfails)
  · exact (hrule aliasedRule (hmem (by simp [handleRules]) (by decide +kernel))).2.2.1 (.inl haliased)
  · exact (hrule threadRule (hmem (by simp [handleRules]) (by decide +kernel))).2.2.2 _ hasked rfl

end LeakScan
