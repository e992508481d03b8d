import LeakScan.Proofs.Scan.Prefilter
import LeakScan.Proofs.Totals.Findings

/-!
# LeakScan.Proofs.Scan.Counting

A report counts leaks by category and by finding. Both counts agree.

* `rule_of_analyze` — a file adds results of the rules in use only.
* `Scanner.scanFiles_reachable` — so the totals of a scan are built from known rules.
* `Report.Tallied` — the counts of a report agree, and its findings are the keys that are counted.
* `Scanner.report_counts_agree` — the statement about all totals, reports and scans.
-/

namespace LeakScan

open Text Totals

/-! ## Known rules -/

theorem rule_of_resolveMatches {rules : List Rule} {source : Source} {tree : ScopeTree}
    {found : List RawMatch} {m : Match} (h : m ∈ resolveMatches rules source tree found) :
    ∃ rule ∈ rules, rule.id = m.ruleId := by
  obtain ⟨raw, _, hraw⟩ := List.mem_filterMap.1 h
  obtain ⟨rule, hrule, rfl⟩ := Option.map_eq_some_iff.1 hraw
  have hid : rule.id = raw.ruleId := by simpa using List.find?_some hrule
  exact ⟨rule, List.mem_reverse.1 (List.mem_of_find?_eq_some hrule), hid⟩

theorem rule_of_analyze {structural : Option StructuralMatcher} {mode : ScopeMode}
    {cancelled : Bool} {rules : List Rule} {lifecycle : Lifecycle} {source : Source} {a : Analysis}
    (h : analyze structural mode cancelled rules lifecycle source = .ok a) {r : Correlation}
    (hr : r ∈ a.results) : ∃ rule ∈ rules, rule.id = r.acquisition.ruleId := by
  rw [analyze] at h
  split at h
  · cases h
  · cases h
    exact rule_of_resolveMatches
      (Correlation.acquisition_mem_pool (Correlation.mem_correlate.1 hr)).1

theorem Totals.Reachable.foldl_addDiagnostic {known : String → Prop} {t : Totals}
    (h : Reachable known t) (ds : List Diagnostic) :
    Reachable known (ds.foldl addDiagnostic t) := by
  induction ds generalizing t with
  | nil => exact h
  | cons d rest ih => exact ih (h.diagnostic d)

namespace Scanner

theorem scanSource_reachable (s : Scanner) (w : Workspace) (cancelled : Bool) (source : Source) :
    Reachable s.catalog.Knows (s.scanSource w cancelled source) := by
  rw [scanSource]
  simp only
  split
  · exact .new _
  · exact .diagnostic _ (.new _)
  · rename_i a hanalyze
    refine .file _ _ (Reachable.foldl_addDiagnostic (.new _) _) fun r hr => ?_
    obtain ⟨rule, hrule, hid⟩ := rule_of_analyze hanalyze hr
    exact ⟨rule, (List.mem_filter.1 hrule).1, hid⟩

theorem scanFile_reachable (s : Scanner) (w : Workspace) (cancelled : Bool) (f : DiscoveredFile) :
    Reachable s.catalog.Knows (s.scanFile w cancelled f) := by
  rw [scanFile]
  split
  · exact .new _
  · split
    · exact .skip _ (.new _)
    · exact s.scanSource_reachable w cancelled _

theorem scanFiles_reachable (s : Scanner) (w : Workspace) (cancelled : Bool)
    (files : List DiscoveredFile) :
    Reachable s.catalog.Knows (s.scanFiles w cancelled files) := by
  induction files with
  | nil => exact .new _
  | cons f rest ih =>
    rw [scanFiles_cons]
    exact .merge (s.scanFile_reachable w cancelled f) ih

end Scanner

/-! ## Reports -/

/-- The summary and the categories of a report agree, and it has one finding for each key of the
totals whose count has not wrapped around to 0. -/
structure Report.Tallied (t : Totals) (r : Report) : Prop where
  categories : r.categories = t.categories
  leaked : r.summary.leaked = categorySum (·.leaked) r.categories
  ambiguous : r.summary.ambiguous = categorySum (·.ambiguous) r.categories
  once : (r.findings.map Finding.key).Nodup
  present : ∀ key, key ∈ r.findings.map Finding.key ↔
    t.tallies.contains key = true ∧ t.occurrencesAt key ≠ 0

namespace Scanner

variable {s : Scanner} {w : Workspace} {cancelled : Bool} {startedAt : String} {elapsed : Nat}

theorem report_tallied {t : Totals} (h : Reachable s.catalog.Knows t) (lints : List LintFinding)
    (before : Option Counts) (cancelled : Bool) (startedAt : String) (elapsed : Nat) :
    (s.report t lints before cancelled startedAt elapsed).Tallied t := by
  constructor
  case categories => rfl
  case leaked =>
    exact (occurrencesOf_findings h.rulesKnown _ .leaked).trans h.balanced.leaked.symm
  case ambiguous =>
    exact (occurrencesOf_findings h.rulesKnown _ .ambiguous).trans h.balanced.ambiguous.symm
  case once => exact findings_keys_nodup ..
  case present =>
    intro key
    exact (mem_findings_keys_iff h.rulesKnown _ key).trans
      (and_iff_right_of_imp contains_of_occurrencesAt_ne_zero).symm

/-- A scan that succeeds reports on the totals of the selected files, with diagnostics added. -/
theorem exists_of_run {r : Report} (h : s.run w cancelled startedAt elapsed = .ok r) :
    ∃ before files notes lints, s.discoverFiles w = .ok files ∧
      r = s.report (List.foldl addDiagnostic
        (s.scanFiles w cancelled (s.selectFiles w cancelled files).1) notes) lints before cancelled
        startedAt elapsed := by
  rw [run] at h
  cases hbefore : s.loadBaseline w with
  | error e =>
    rw [hbefore] at h
    cases h
  | ok before =>
    cases hfiles : s.discoverFiles w with
    | error e =>
      rw [hbefore, hfiles] at h
      cases h
    | ok files =>
      rw [hbefore, hfiles] at h
      cases h
      exact ⟨before, files, _, _, rfl, rfl⟩

theorem run_tallied {r : Report} (h : s.run w cancelled startedAt elapsed = .ok r) :
    ∃ files, s.discoverFiles w = .ok files ∧
      r.Tallied (s.scanFiles w cancelled (s.selectFiles w cancelled files).1) := by
  obtain ⟨before, files, notes, lints, hfiles, rfl⟩ := exists_of_run h
  have hreachable := s.scanFiles_reachable w cancelled (s.selectFiles w cancelled files).1
  have htallied := report_tallied (hreachable.foldl_addDiagnostic notes) lints before cancelled
    startedAt elapsed
  -- diagnostics change neither categories nor tallies
  have hsame := found_foldl_addDiagnostic notes
    (s.scanFiles w cancelled (s.selectFiles w cancelled files).1)
  simp only [found, Found.mk.injEq] at hsame
  refine ⟨files, hfiles, ?_, htallied.leaked, htallied.ambiguous, htallied.once, ?_⟩
  · rw [htallied.categories, hsame.2.1]
  · have hpresent := htallied.present
    simp only [occurrencesAt, hsame.1] at hpresent
    exact hpresent

/-- Totals of any files, merged in any way, count each leak once by category and once by rule and
verdict, and each result once as structural or textual. So the summary of a report and its
categories agree on any totals of known rules, such as those of a scan that is cancelled half-way,
and a scan has no others. It has one finding for each key with fewer than 2 ^ 64 results. -/
theorem report_counts_agree :
    (∀ t : Totals, Reachable (fun _ => True) t → Balanced t) ∧
    (∀ (s : Scanner) (t : Totals) (lints : List LintFinding) (before : Option Counts)
      (cancelled : Bool) (startedAt : String) (elapsed : Nat), Reachable s.catalog.Knows t →
      (s.report t lints before cancelled startedAt elapsed).Tallied t) ∧
    ∀ (s : Scanner) (w : Workspace) (cancelled : Bool) (startedAt : String) (elapsed : Nat)
      (r : Report), s.run w cancelled startedAt elapsed = .ok r →
      ∃ files, s.discoverFiles w = .ok files ∧
        Reachable s.catalog.Knows (s.scanFiles w cancelled (s.selectFiles w cancelled files).1) ∧
        r.Tallied (s.scanFiles w cancelled (s.selectFiles w cancelled files).1) ∧
        ∀ key, (hitsIn key (s.history w cancelled
            (s.selectFiles w cancelled files).1).files).length < wordLimit →
          (key ∈ r.findings.map Finding.key ↔
            (s.scanFiles w cancelled (s.selectFiles w cancelled files).1).tallies.contains key =
              true) := by
  refine ⟨fun t h => h.balanced, fun s t lints before cancelled startedAt elapsed h =>
    report_tallied h lints before cancelled startedAt elapsed, ?_⟩
  intro s w cancelled startedAt elapsed r h
  obtain ⟨files, hfiles, htallied⟩ := run_tallied h
  refine ⟨files, hfiles, s.scanFiles_reachable w cancelled _, htallied, fun key hfew => ?_⟩
  refine (htallied.present key).trans (and_iff_left_of_imp fun hthere => ?_)
  rw [scanFiles_eq_totals] at hthere ⊢
  exact History.occurrencesAt_ne_zero hfew hthere

/-! ## One leak

A scan of one script that starts a timer. -/

def pollOnly : Configuration := { textualOnly with root := "poll.js", useSearch := false }

def pollScanner : Scanner := ofCatalog searched pollOnly intervals

def pollScript : DiscoveredFile := ⟨"poll.js", "poll.js", .javascript⟩

/-- The totals of the script, merged with those of a scan that keeps more samples. -/
def pollTotals : Totals := (pollScanner.scanFiles searched false [pollScript]).merge (ofLimit 99)

theorem poll_leak_counted :
    Reachable (fun _ => True) pollTotals ∧ Balanced pollTotals ∧
    Reachable pollScanner.catalog.Knows pollTotals ∧
    (pollScanner.report pollTotals [] none true "" 0).Tallied pollTotals ∧
    ∃ r, pollScanner.run searched false "" 0 = .ok r ∧ r.summary.leaked = 1 ∧
      categorySum (·.leaked) r.categories = 1 ∧
      ⟨"js.timer.interval", .leaked⟩ ∈ r.findings.map Finding.key := by
  obtain ⟨htotals, hreport, hrun⟩ := report_counts_agree
  have hknown : Reachable pollScanner.catalog.Knows pollTotals :=
    .merge (pollScanner.scanFiles_reachable searched false [pollScript]) (.new 99)
  have hany : Reachable (fun _ => True) pollTotals := hknown.mono fun _ _ => trivial
  refine ⟨hany, htotals _ hany, hknown, hreport _ _ [] none true "" 0 hknown, ?_⟩
  have hfiles : pollScanner.discoverFiles searched = .ok [pollScript] := rfl
  have hall : (pollScanner.selectFiles searched false [pollScript]).1 = [pollScript] :=
    selectFiles_of_not_answers (.inl rfl)
  have hbaseline : pollScanner.loadBaseline searched = .ok none := rfl
  obtain ⟨r, hok⟩ : ∃ r, pollScanner.run searched false "" 0 = .ok r := by
    obtain ⟨notes, lints, hok⟩ := run_ok hbaseline hfiles
    exact ⟨_, hok⟩
  obtain ⟨files, hfiles', -, htallied, hlisted⟩ := hrun pollScanner searched false "" 0 r hok
  rw [hfiles] at hfiles'
  cases hfiles'
  rw [hall] at htallied hlisted
  have hone : categorySum (·.leaked)
      (pollScanner.scanFiles searched false [pollScript]).categories = 1 := by decide +kernel
  refine ⟨r, hok, ?_, ?_, (hlisted _ (by decide +kernel)).2 (by decide +kernel)⟩
  · rw [htallied.leaked, htallied.categories, hone]
  · rw [htallied.categories, hone]

end Scanner

end LeakScan
