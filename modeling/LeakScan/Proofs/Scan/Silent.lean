import LeakScan.Proofs.Totals.Schedule

/-!
# LeakScan.Proofs.Scan.Silent

Files in which nothing is found can be left out of a scan.

* `Totals.found` — what totals say about leaks, apart from diagnostics and numbers of files.
* `found_merge_congr`, `found_merge_nothing` — merging looks at no more of it, and totals that found
  nothing change nothing.
* `matchFile_of_absent`, `scanSource_silent` — a text without any anchor is such a file: no rule is
  tried on it.
* `found_scanFiles_filter` — a scan of some of its files.
-/

namespace LeakScan

open Text

namespace Totals

/-- What totals say about leaks. -/
structure Found where
  tallies : SortedMap FindingKey Tally := .empty
  categories : SortedMap String CategoryTally := .empty
  structuralMatches : UInt64 := 0
  textualMatches : UInt64 := 0

def Found.nothing : Found := {}

def found (t : Totals) : Found :=
  ⟨t.tallies, t.categories, t.structuralMatches, t.textualMatches⟩

theorem found_foldl_addDiagnostic (ds : List Diagnostic) (t : Totals) :
    (ds.foldl addDiagnostic t).found = t.found := by
  induction ds generalizing t with
  | nil => rfl
  | cons d rest ih => exact ih (t.addDiagnostic d)

theorem found_merge_congr {cap : Nat} {a a' b b' : Totals} (ha : WellFormed cap a)
    (ha' : WellFormed cap a') (hb : WellFormed cap b) (hb' : WellFormed cap b')
    (hfound : a.found = a'.found) (hfound' : b.found = b'.found) :
    (a.merge b).found = (a'.merge b').found := by
  simp only [found, Found.mk.injEq] at hfound hfound'
  obtain ⟨htallies, hcategories, hstructural, htextual⟩ := hfound
  obtain ⟨htallies', hcategories', hstructural', htextual'⟩ := hfound'
  rw [merge_eq ha.toOrdered hb.toOrdered, merge_eq ha'.toOrdered hb'.toOrdered]
  simp only [found, htallies, htallies', hcategories, hcategories', hstructural, hstructural',
    htextual, htextual']

theorem found_merge_nothing {cap : Nat} {a b : Totals} (ha : WellFormed cap a)
    (hb : WellFormed cap b) (h : b.found = .nothing) : (a.merge b).found = a.found := by
  have hsame := found_merge_congr ha ha hb (wellFormed_ofLimit cap) rfl h
  rw [merge_ofLimit ha] at hsame
  exact hsame

end Totals

open Totals

/-! ## Texts without anchors -/

/-- None of the texts occurs. -/
def Absent (anchors : List String) (text : List Char) : Prop :=
  ∀ a ∈ anchors, occursIn a.toList text = false

theorem Catalog.mem_anchors_iff {c : Catalog} (h : c.anchors ≠ []) {a : String} :
    a ∈ c.anchors ↔ ∃ r ∈ c.rules, a ∈ r.anchors := by
  rw [anchors] at h ⊢
  split at h
  · exact absurd rfl h
  · rename_i hall
    rw [if_neg hall, SortedMap.mem_keys_ofList]
    simp

theorem Catalog.anchorsPresent_of_absent {c : Catalog} {text : List Char} (h : c.anchors ≠ [])
    (habsent : Absent c.anchors text) {r : Rule} (hr : r ∈ c.rules) :
    r.anchorsPresent text = false := by
  have hsome : r.anchors.isEmpty = false := by
    by_contra hnone
    refine h ?_
    rw [anchors, if_pos (List.any_eq_true.2 ⟨r, hr, by simpa using hnone⟩)]
  rw [Rule.anchorsPresent, hsome, Bool.false_or, List.any_eq_false]
  intro a ha
  rw [habsent a ((Catalog.mem_anchors_iff h).2 ⟨r, hr, ha⟩)]
  exact Bool.false_ne_true

/-- A rule without an anchor in the text is not tried. -/
theorem matchFile_of_absent (structural : Option StructuralMatcher) (source : Source)
    {rules : List Rule} (h : ∀ r ∈ rules, r.anchorsPresent source.text = false) :
    matchFile structural source false rules = .ok {} := by
  induction rules with
  | nil => rfl
  | cons r rest ih =>
    rw [matchFile, h r List.mem_cons_self]
    exact ih fun q hq => h q (List.mem_cons_of_mem r hq)

namespace Scanner

variable {s : Scanner} {w : Workspace} {cancelled : Bool}

theorem scanSource_silent {source : Source} (h : s.catalog.anchors ≠ [])
    (habsent : Absent s.catalog.anchors source.text) :
    (s.scanSource w false source).found = .nothing := by
  have hrules : ∀ r ∈ s.catalog.rulesFor source.language, r.anchorsPresent source.text = false :=
    fun r hr => Catalog.anchorsPresent_of_absent h habsent (List.mem_filter.1 hr).1
  rw [scanSource, analyze, matchFile_of_absent _ source hrules]
  rfl

/-- How a scan reads a file. -/
def sourceOf (s : Scanner) (w : Workspace) (f : DiscoveredFile) : Except Failure Source :=
  Source.load f.path f.display f.language s.configuration.fileSizeLimit
    (w.files.find f.path).toOption

/-- A file that cannot be read is silent, too. -/
theorem scanFile_silent {f : DiscoveredFile} (h : s.catalog.anchors ≠ [])
    (habsent : ∀ source, s.sourceOf w f = .ok source → Absent s.catalog.anchors source.text) :
    (s.scanFile w cancelled f).found = .nothing := by
  rw [scanFile]
  cases cancelled with
  | true => rfl
  | false =>
    simp only [Bool.false_eq_true, if_false]
    split
    · rfl
    · rename_i source hload
      exact scanSource_silent h (habsent source hload)

/-! ## Scans -/

theorem scanFiles_eq_sum (s : Scanner) (w : Workspace) (cancelled : Bool)
    (files : List DiscoveredFile) :
    s.scanFiles w cancelled files = (files.map (s.boundedFile w cancelled)).sum.totals := by
  refine (s.foldl_scanFile w cancelled files 0).trans ?_
  rw [zero_add]

theorem scanFiles_cons (s : Scanner) (w : Workspace) (cancelled : Bool) (f : DiscoveredFile)
    (rest : List DiscoveredFile) :
    s.scanFiles w cancelled (f :: rest) =
      (s.scanFile w cancelled f).merge (s.scanFiles w cancelled rest) := by
  rw [scanFiles_eq_sum, scanFiles_eq_sum, List.map_cons, List.sum_cons]
  rfl

theorem scanFiles_wellFormed (s : Scanner) (w : Workspace) (cancelled : Bool)
    (files : List DiscoveredFile) :
    WellFormed s.configuration.sampleLimit (s.scanFiles w cancelled files) := by
  rw [scanFiles_eq_sum]
  exact Bounded.wellFormed _

/-- By induction on the files: a silent one may stay or go. -/
theorem found_scanFiles_filter {files : List DiscoveredFile} {keep : DiscoveredFile → Bool}
    (h : ∀ f ∈ files, keep f = false → (s.scanFile w cancelled f).found = .nothing) :
    (s.scanFiles w cancelled (files.filter keep)).found =
      (s.scanFiles w cancelled files).found := by
  induction files with
  | nil => rfl
  | cons f rest ih =>
    have hfile : WellFormed s.configuration.sampleLimit (s.scanFile w cancelled f) :=
      (s.boundedFile w cancelled f).wellFormed
    have hrest := s.scanFiles_wellFormed w cancelled rest
    have hkept := s.scanFiles_wellFormed w cancelled (rest.filter keep)
    have hsame := ih fun g hg => h g (List.mem_cons_of_mem f hg)
    rw [scanFiles_cons, List.filter_cons]
    cases hkeep : keep f with
    | true =>
      rw [if_pos rfl, scanFiles_cons]
      exact found_merge_congr hfile hfile hkept hrest rfl hsame
    | false =>
      rw [if_neg Bool.false_ne_true, hsame, merge_comm hfile.toOrdered hrest.toOrdered]
      exact (found_merge_nothing hrest hfile (h f List.mem_cons_self hkeep)).symm

end Scanner

end LeakScan
