import LeakScan.Proofs.Text.Offset
import LeakScan.Rule.Draft

/-!
# LeakScan.Proofs.Rule.Check

Drafts that pass their check are rules that a scan can work with.

* `Trimmed` — texts with something in them and no white space around it.
* `Rule.WellFormed` — what a scan relies on in a rule.
* `PatternDraft.checkAll_forms`, `RuleDraft.checkContexts_distinct` — the lists of a rule.
* `RuleDraft.check_wellFormed`, `RuleDraft.malformed_of_check` — the two ends of a check.
-/

namespace LeakScan

open Text

/-! ## Texts -/

structure Trimmed (s : String) : Prop where
  nonempty : s ≠ ""
  first : ∀ c ∈ s.toList.head?, isBlank c = false
  last : ∀ c ∈ s.toList.getLast?, isBlank c = false

/-- Trimming the end keeps the first character, if one is left. -/
theorem head?_trim {cs : List Char} {c : Char} (h : c ∈ (trim cs).head?) : isBlank c = false := by
  have hfront : (cs.dropWhile isBlank).head? = some c := by
    obtain ⟨cut, hcut⟩ := List.dropWhile_suffix (l := (cs.dropWhile isBlank).reverse) isBlank
    have hsplit : trim cs ++ cut.reverse = cs.dropWhile isBlank := by
      rw [trim, ← List.reverse_append, hcut, List.reverse_reverse]
    rw [← hsplit, List.head?_append, Option.mem_def.1 h]
    rfl
  exact head?_dropWhile_isBlank hfront

theorem getLast?_trim {cs : List Char} {c : Char} (h : c ∈ (trim cs).getLast?) :
    isBlank c = false := by
  rw [trim, List.getLast?_reverse] at h
  exact head?_dropWhile_isBlank h

theorem trimmed_of_nonBlank? {s t : String} (h : nonBlank? s = some t) : Trimmed t := by
  rw [nonBlank?] at h
  split at h
  · cases h
  · rename_i hne
    cases h
    refine ⟨by simpa using hne, fun c hc => ?_, fun c hc => ?_⟩
    · rw [trimString, String.toList_ofList] at hc
      exact head?_trim hc
    · rw [trimString, String.toList_ofList] at hc
      exact getLast?_trim hc

/-! ## Rules -/

namespace Rule

/-- What a scan relies on in a rule. -/
structure WellFormed (r : Rule) : Prop where
  id : Trimmed r.id
  kind : Trimmed r.kind
  category : Trimmed r.category
  acquire : r.acquire ≠ []
  cleanup : r.cleanup ≠ []
  forms : ∀ role, ∀ p ∈ r.patterns role, p.structural.isSome = true ∨ p.textual.isSome = true
  contexts : r.contexts ≠ []
  contexts_distinct : r.contexts.Nodup
  anchors : "" ∉ r.anchors

end Rule

theorem PatternDraft.form_of_check {role : Role} {index : Nat} {d : PatternDraft} {p : Pattern}
    (h : d.check role index = .ok p) : p.structural.isSome = true ∨ p.textual.isSome = true := by
  rw [check] at h
  split at h
  · split at h
    · cases h
      exact .inr rfl
    · cases h
  · split at h
    · rename_i hsome
      cases h
      exact .inl hsome
    · cases h

/-- One pattern for each draft, and each has a form. -/
theorem PatternDraft.checkAll_forms {role : Role} {index : Nat} {ds : List PatternDraft}
    {ps : List Pattern} (h : checkAll role index ds = .ok ps) :
    ps.length = ds.length ∧ ∀ p ∈ ps, p.structural.isSome = true ∨ p.textual.isSome = true := by
  induction ds generalizing index ps with
  | nil =>
    cases h
    exact ⟨rfl, fun p hp => absurd hp List.not_mem_nil⟩
  | cons d rest ih =>
    rw [checkAll] at h
    split at h
    · cases h
    · rename_i p hp
      split at h
      · rename_i qs hqs
        cases h
        obtain ⟨hlength, hforms⟩ := ih hqs
        exact ⟨congrArg (· + 1) hlength, List.forall_mem_cons.2 ⟨form_of_check hp, hforms⟩⟩
      · cases h

/-- By induction on the names: what is collected has no repeats, and it is not empty at the end. -/
theorem RuleDraft.checkContexts_distinct {acc : List CleanupContext} {names : List String}
    {cs : List CleanupContext} (hacc : acc.Nodup) (h : checkContexts acc names = .ok cs) :
    cs ≠ [] ∧ cs.Nodup := by
  induction names generalizing acc with
  | nil =>
    rw [checkContexts] at h
    split at h
    · cases h
    · rename_i hne
      cases h
      exact ⟨by simpa using hne, hacc⟩
  | cons n rest ih =>
    rw [checkContexts] at h
    split at h
    · cases h
    · rename_i c _
      refine ih ?_ h
      split
      · exact hacc
      · rename_i hnew
        rw [List.contains_iff_mem] at hnew
        exact List.nodup_append.2 ⟨hacc, List.pairwise_singleton _ c, fun a ha b hb hab =>
          hnew (by rw [← List.mem_singleton.1 hb, ← hab]; exact ha)⟩

namespace RuleDraft

/-- What has to go well in a check, in the order of checking. -/
theorem exists_of_checkBody {d : RuleDraft} {id : String} {r : Rule}
    (h : d.checkBody id = .ok r) :
    ∃ language severity kind category contexts acquire cleanup,
      nonBlank? d.kind = some kind ∧ nonBlank? d.category = some category ∧
      d.acquire ≠ [] ∧ d.cleanup ≠ [] ∧ checkContexts [] d.contexts = .ok contexts ∧
      PatternDraft.checkAll .acquire 0 d.acquire = .ok acquire ∧
      PatternDraft.checkAll .cleanup 0 d.cleanup = .ok cleanup ∧
      r = {
        id := id, language := language, kind := kind, category := category, severity := severity
        acquire := acquire, cleanup := cleanup, anchors := d.anchors.filter (· != "")
        summary := d.summary, remediation := d.remediation, contexts := contexts } := by
  simp only [checkBody, bind, Except.bind, pure, Except.pure] at h
  split at h
  case h_2 => cases h
  rename_i language _
  split at h
  case h_2 => cases h
  rename_i severity _
  split at h
  case h_2 => cases h
  rename_i kind hkind
  split at h
  case h_2 => cases h
  rename_i category hcategory
  split at h
  case isTrue => cases h
  rename_i hacquire
  split at h
  case isTrue => cases h
  rename_i hcleanup
  split at h
  case h_1 => cases h
  rename_i contexts hcontexts
  split at h
  case h_1 => cases h
  rename_i acquire hacquired
  split at h
  case h_1 => cases h
  rename_i cleanup hcleaned
  cases h
  exact ⟨language, severity, kind, category, contexts, acquire, cleanup, hkind, hcategory,
    by simpa using hacquire, by simpa using hcleanup, hcontexts, hacquired, hcleaned, rfl⟩

theorem checkBody_wellFormed {d : RuleDraft} {id : String} {r : Rule} (hid : Trimmed id)
    (h : d.checkBody id = .ok r) : r.WellFormed := by
  obtain ⟨language, severity, kind, category, contexts, acquire, cleanup, hkind, hcategory,
    hacquire, hcleanup, hcontexts, hacquired, hcleaned, rfl⟩ := exists_of_checkBody h
  obtain ⟨hsome, hdistinct⟩ := checkContexts_distinct List.nodup_nil hcontexts
  obtain ⟨hlength, hforms⟩ := PatternDraft.checkAll_forms hacquired
  obtain ⟨hlength', hforms'⟩ := PatternDraft.checkAll_forms hcleaned
  constructor
  case id => exact hid
  case kind => exact trimmed_of_nonBlank? hkind
  case category => exact trimmed_of_nonBlank? hcategory
  case acquire =>
    rintro rfl
    exact hacquire (List.length_eq_zero_iff.1 hlength.symm)
  case cleanup =>
    rintro rfl
    exact hcleanup (List.length_eq_zero_iff.1 hlength'.symm)
  case forms =>
    intro role
    cases role with
    | acquire => exact hforms
    | cleanup => exact hforms'
  case contexts => exact hsome
  case contexts_distinct => exact hdistinct
  case anchors => simp

theorem check_wellFormed {d : RuleDraft} {fallbackId : String} {r : Rule}
    (h : d.check fallbackId = .ok r) : r.WellFormed := by
  rw [check] at h
  split at h
  · cases h
  · rename_i id hid
    split at h
    · rename_i hbody
      cases h
      exact checkBody_wellFormed (trimmed_of_nonBlank? hid) hbody
    · cases h

theorem malformed_of_check {d : RuleDraft} {fallbackId : String} {f : Failure}
    (h : d.check fallbackId = .error f) : ∃ ruleId reason, f = .malformedRule ruleId reason := by
  rw [check] at h
  split at h
  · cases h
    exact ⟨_, _, rfl⟩
  · split at h
    · cases h
    · cases h
      exact ⟨_, _, rfl⟩

end RuleDraft

end LeakScan
