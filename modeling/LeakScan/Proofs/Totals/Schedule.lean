import LeakScan.Proofs.Correlation.Monotone
import LeakScan.Proofs.Totals.Summary
import LeakScan.Scan

/-!
# LeakScan.Proofs.Totals.Schedule

The totals of a scan do not depend on the schedule by which those of its files are merged.

* `History.wellFormed` — all totals that can be built are well formed.
* `merge_schedule_independent` — the laws of merging, and all reductions of the same totals agree.
* `Scanner.history` — how the totals of a scan are built.
* `Scanner.scanFiles_eq_reduction` — they are any reduction of those of its files.
-/

namespace LeakScan

open Text

namespace Totals

theorem History.wellFormed (cap : Nat) (h : History) : WellFormed cap (h.totals cap) where
  sampleLimit := h.totals_sampleLimit cap
  tallies := tidy_of_tally? (h.get?_tallies cap)
  diagnostics_ascend := by
    rw [h.totals_diagnostics]
    exact ascending_lowest ..
  diagnostics_length := by
    rw [h.totals_diagnostics, length_lowest]
    exact Nat.min_le_left ..

section Timers

open Correlation

end Timers

end Totals

/-! ## Scans -/

namespace Scanner

open Totals

theorem foldl_addDiagnostic (cap : Nat) (ds : List Diagnostic) (h : History) :
    ds.foldl addDiagnostic (h.totals cap) = (ds.foldl History.diagnostic h).totals cap := by
  induction ds generalizing h with
  | nil => rfl
  | cons d rest ih => exact ih (h.diagnostic d)

/-- How the totals of a file that was read are built. -/
def sourceHistory (s : Scanner) (w : Workspace) (cancelled : Bool) (source : Source) : History :=
  let rules := s.catalog.rulesFor source.language
  match analyze (s.matcher w cancelled) s.configuration.scopes cancelled rules
      s.catalog.lifecycle source with
  | .error .cancelled => .new
  | .error e => .diagnostic .new ((Diagnostic.ofFailure e).withPath source.display)
  | .ok a => .file (a.found.diagnostics.foldl .diagnostic .new) ⟨rules, a.tree.precise, a.results⟩

theorem scanSource_eq_totals (s : Scanner) (w : Workspace) (cancelled : Bool) (source : Source) :
    s.scanSource w cancelled source =
      (s.sourceHistory w cancelled source).totals s.configuration.sampleLimit := by
  simp only [scanSource, sourceHistory]
  cases analyze (s.matcher w cancelled) s.configuration.scopes cancelled
    (s.catalog.rulesFor source.language) s.catalog.lifecycle source with
  | error e => cases e <;> rfl
  | ok a =>
    simp only [History.totals]
    rw [← foldl_addDiagnostic]
    rfl

def fileHistory (s : Scanner) (w : Workspace) (cancelled : Bool) (f : DiscoveredFile) : History :=
  if cancelled then .new
  else
    match Source.load f.path f.display f.language s.configuration.fileSizeLimit
        (w.files.find f.path).toOption with
    | .error e => .skip .new ((Diagnostic.ofFailure e).withPath f.display)
    | .ok source => s.sourceHistory w cancelled source

theorem scanFile_eq_totals (s : Scanner) (w : Workspace) (cancelled : Bool) (f : DiscoveredFile) :
    s.scanFile w cancelled f =
      (s.fileHistory w cancelled f).totals s.configuration.sampleLimit := by
  simp only [scanFile, fileHistory]
  split
  · rfl
  · cases Source.load f.path f.display f.language s.configuration.fileSizeLimit
      (w.files.find f.path).toOption with
    | error e => rfl
    | ok source => exact s.scanSource_eq_totals w cancelled source

/-- How the totals of a scan are built. -/
def history (s : Scanner) (w : Workspace) (cancelled : Bool) (files : List DiscoveredFile) :
    History :=
  (files.map (s.fileHistory w cancelled)).foldl .merge .new

theorem scanFiles_eq_totals (s : Scanner) (w : Workspace) (cancelled : Bool)
    (files : List DiscoveredFile) :
    s.scanFiles w cancelled files =
      (s.history w cancelled files).totals s.configuration.sampleLimit := by
  have hfoldl : ∀ h : History, (files.map (s.scanFile w cancelled)).foldl Totals.merge
      (h.totals s.configuration.sampleLimit) =
        ((files.map (s.fileHistory w cancelled)).foldl .merge h).totals
          s.configuration.sampleLimit := by
    induction files with
    | nil => exact fun h => rfl
    | cons f rest ih =>
      intro h
      rw [List.map_cons, List.map_cons, List.foldl_cons, List.foldl_cons, s.scanFile_eq_totals]
      exact ih (h.merge (s.fileHistory w cancelled f))
  exact hfoldl .new

/-- The totals of one file. -/
def boundedFile (s : Scanner) (w : Workspace) (cancelled : Bool) (f : DiscoveredFile) :
    Bounded s.configuration.sampleLimit where
  totals := s.scanFile w cancelled f
  wellFormed := by
    rw [s.scanFile_eq_totals]
    exact History.wellFormed ..

theorem foldl_scanFile (s : Scanner) (w : Workspace) (cancelled : Bool)
    (files : List DiscoveredFile) (b : Bounded s.configuration.sampleLimit) :
    (files.map (s.scanFile w cancelled)).foldl Totals.merge b.totals =
      (b + (files.map (s.boundedFile w cancelled)).sum).totals := by
  induction files generalizing b with
  | nil => rw [List.map_nil, List.map_nil, List.foldl_nil, List.sum_nil, add_zero]
  | cons f rest ih =>
    rw [List.map_cons, List.map_cons, List.foldl_cons, List.sum_cons, ← add_assoc]
    exact ih (b + s.boundedFile w cancelled f)

/-- The totals of a scan are any reduction of the totals of its files. -/
theorem scanFiles_eq_reduction (s : Scanner) (w : Workspace) (cancelled : Bool)
    (files : List DiscoveredFile) (r : Reduction s.configuration.sampleLimit)
    (h : r.leaves.Perm (files.map (s.boundedFile w cancelled))) :
    s.scanFiles w cancelled files = r.totals := by
  rw [r.totals_eq_sum, h.sum_eq]
  refine (s.foldl_scanFile w cancelled files 0).trans ?_
  rw [zero_add]

end Scanner

end LeakScan
