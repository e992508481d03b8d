import LeakScan.Proofs.Totals.Merge

/-!
# LeakScan.Proofs.Totals.Summary

Totals are a summary of all that went into them, in whatever way they were built. It is exact up to
the size of a count.

* `History` — how totals were built; `History.files` and `History.diagnostics` are what went in.
* `tallyOf` — the tally of a key, computed from all files at once. Its counts are the last 64 bits
  of exact numbers: wrapping around at each step comes to the same as doing so once at the end.
* `get?_addFile`, `History.get?_tallies` — every way of building arrives there.
* `CountsExactly`, `Summary` — what totals say about files and diagnostics.
* `totals_summarize_history` — they say it of their history.
-/

namespace LeakScan

open Text

namespace Totals

/-- One file as it is added to totals. -/
structure ScannedFile where
  rules : List Rule
  precise : Bool
  results : List Correlation

/-- The result counts under the key. -/
def isHit (key : FindingKey) (r : Correlation) : Bool := r.verdict != .cleaned && keyOf r == key

def ScannedFile.hits (key : FindingKey) (f : ScannedFile) : List Correlation :=
  f.results.filter (isHit key)

def hitsIn (key : FindingKey) (files : List ScannedFile) : List Correlation :=
  files.flatMap (ScannedFile.hits key)

/-- The tally of a key over some files, as far as 64 bits can count. -/
def tallyOf (cap : Nat) (key : FindingKey) (files : List ScannedFile) : Tally where
  occurrences := .ofNat (hitsIn key files).length
  files := .ofNat (files.countP fun f => !(f.hits key).isEmpty)
  samples := lowest cap ((hitsIn key files).map fun r => locationOf r.acquisition)
  structural := .ofNat ((hitsIn key files).countP isStructural)
  exact := .ofNat ((hitsIn key (files.filter (·.precise))).countP isStructural)

/-- A key without hits has no tally. -/
def tally? (cap : Nat) (key : FindingKey) (files : List ScannedFile) : Option Tally :=
  if (hitsIn key files).isEmpty then none else some (tallyOf cap key files)

/-! ## Files together -/

section Files

variable {cap : Nat} {key : FindingKey} {files : List ScannedFile}

theorem hitsIn_append (key : FindingKey) (fs gs : List ScannedFile) :
    hitsIn key (fs ++ gs) = hitsIn key fs ++ hitsIn key gs :=
  List.flatMap_append

theorem tallyOf_tidy (cap : Nat) (key : FindingKey) (files : List ScannedFile) :
    (tallyOf cap key files).Tidy cap where
  ascending := ascending_lowest ..
  length_le := by
    rw [tallyOf, length_lowest]
    exact Nat.min_le_left ..

theorem tallyOf_append (cap : Nat) (key : FindingKey) (fs gs : List ScannedFile) :
    tallyOf cap key (fs ++ gs) = (tallyOf cap key fs).merge cap (tallyOf cap key gs) := by
  simp only [tallyOf, Tally.merge, Tally.mk.injEq, hitsIn_append, List.filter_append,
    List.length_append, List.countP_append, List.map_append, smallest_eq_lowest, UInt64.ofNat_add,
    true_and, and_true]
  rw [lowest_append_lowest, lowest_append_lowest_right]

theorem tallyOf_of_no_hits (cap : Nat) (h : hitsIn key files = []) :
    tallyOf cap key files = {} := by
  have hnone : ∀ f ∈ files, f.hits key = [] := List.flatMap_eq_nil_iff.1 h
  have hfiles : (files.countP fun f => !(f.hits key).isEmpty) = 0 := by
    rw [List.countP_eq_zero]
    intro f hf
    simp [hnone f hf]
  have hprecise : hitsIn key (files.filter (·.precise)) = [] := by
    rw [hitsIn, List.flatMap_eq_nil_iff]
    exact fun f hf => hnone f (List.mem_filter.1 hf).1
  rw [tallyOf, h, hfiles, hprecise]
  simp [lowest]

theorem tally?_append (cap : Nat) (key : FindingKey) (fs gs : List ScannedFile) :
    tally? cap key (fs ++ gs) =
      Option.merge (Tally.merge cap) (tally? cap key fs) (tally? cap key gs) := by
  rw [tally?, tally?, tally?, hitsIn_append, tallyOf_append]
  by_cases hf : hitsIn key fs = []
  · rw [tallyOf_of_no_hits cap hf, Tally.empty_merge (tallyOf_tidy cap key gs), hf]
    simp
  · by_cases hg : hitsIn key gs = []
    · rw [tallyOf_of_no_hits cap hg, Tally.merge_empty (tallyOf_tidy cap key fs), hg]
      simp
    · simp [hf, hg]

theorem tally?_eq_some_iff {t : Tally} :
    tally? cap key files = some t ↔ hitsIn key files ≠ [] ∧ t = tallyOf cap key files := by
  rw [tally?]
  split
  · rename_i hnil
    simp [List.isEmpty_iff.1 hnil]
  · rename_i hne
    have hne' : hitsIn key files ≠ [] := by simpa using hne
    simp [hne', eq_comm]

theorem tidy_of_tally? {tallies : SortedMap FindingKey Tally}
    (h : ∀ key, tallies.get? key = tally? cap key files) : TidyTallies cap tallies := by
  intro key tally hget
  rw [h, tally?_eq_some_iff] at hget
  rw [hget.2]
  exact tallyOf_tidy ..

end Files

/-- The hits of one file, before the file itself is counted. -/
def batch (cap : Nat) (precise : Bool) (hits : List Correlation) : Tally where
  occurrences := .ofNat hits.length
  samples := lowest cap (hits.map fun r => locationOf r.acquisition)
  structural := .ofNat (hits.countP isStructural)
  exact := if precise then .ofNat (hits.countP isStructural) else 0

section OneFile

variable {cap : Nat} {precise : Bool}

theorem batch_nil (cap : Nat) (precise : Bool) : batch cap precise [] = {} := by
  simp [batch, lowest]

theorem single_merge_batch (cap : Nat) (precise : Bool) (r : Correlation)
    (rest : List Correlation) :
    (single precise r).merge cap (batch cap precise rest) = batch cap precise (r :: rest) := by
  simp only [single, batch, Tally.merge, Tally.mk.injEq, List.length_cons, List.countP_cons,
    List.map_cons, smallest_eq_lowest, lowest_append_lowest_right]
  rw [UInt64.ofNat_add, UInt64.ofNat_add]
  refine ⟨UInt64.add_comm .., rfl, ?_, ?_⟩
  · cases isStructural r <;> simp
  · cases precise <;> cases isStructural r <;> simp [UInt64.add_comm]

/-- What a result does to the tally of a key. -/
theorem get?_addResult (rules : List Rule) (precise : Bool) (t : Totals) (r : Correlation)
    (key : FindingKey) :
    (addResult rules precise t r).tallies.get? key =
      if isHit key r then
        some (((t.tallies.get? key).getD {}).merge t.sampleLimit (single precise r))
      else t.tallies.get? key := by
  rw [addResult]
  by_cases hclean : r.verdict = .cleaned
  · simp [isHit, hclean]
  · by_cases hkey : keyOf r = key
    · subst hkey
      simp [isHit, hclean, SortedMap.get?_alter]
    · simp [isHit, hclean, hkey, Ne.symm hkey, SortedMap.get?_alter]

theorem tidy_addResult (rules : List Rule) (precise : Bool) {t : Totals} (r : Correlation)
    (ht : TidyTallies t.sampleLimit t.tallies) :
    TidyTallies t.sampleLimit (addResult rules precise t r).tallies := by
  intro key tally h
  rw [get?_addResult] at h
  split at h
  · cases h
    exact Tally.merge_tidy ..
  · exact ht key tally h

/-- The results of a file add their hits to what was there, by induction on the results. -/
theorem get?_foldl_addResult (rules : List Rule) (precise : Bool) {t : Totals}
    (results : List Correlation) (ht : TidyTallies t.sampleLimit t.tallies) (key : FindingKey) :
    (results.foldl (addResult rules precise) t).tallies.get? key =
      if (results.filter (isHit key)).isEmpty then t.tallies.get? key
      else some (((t.tallies.get? key).getD {}).merge t.sampleLimit
        (batch t.sampleLimit precise (results.filter (isHit key)))) := by
  induction results generalizing t with
  | nil => rfl
  | cons r rest ih =>
    rw [List.foldl_cons, ih (tidy_addResult rules precise r ht), get?_addResult, List.filter_cons]
    by_cases hr : isHit key r = true
    · rw [if_pos hr, if_pos hr, ← single_merge_batch, ← Tally.merge_assoc]
      by_cases hrest : rest.filter (isHit key) = []
      · -- after the last hit nothing more is merged
        simp [hrest, batch_nil, Tally.merge_empty (Tally.merge_tidy ..)]
      · simp [hrest, addResult]
    · rw [if_neg hr, if_neg hr]
      rfl

theorem mem_touched {results : List Correlation} {key : FindingKey} :
    key ∈ touched results ↔ results.filter (isHit key) ≠ [] := by
  rw [touched, SortedMap.mem_keys_ofList, ne_eq, List.filter_eq_nil_iff]
  simp [isHit, and_assoc]

theorem touched_nodup (results : List Correlation) : (touched results).Nodup :=
  SortedMap.keys_nodup _

theorem get?_foldl_countFile {keys : List FindingKey} (h : keys.Nodup)
    (tallies : SortedMap FindingKey Tally) (key : FindingKey) :
    (keys.foldl countFile tallies).get? key =
      if key ∈ keys then
        some { (tallies.get? key).getD {} with files := ((tallies.get? key).getD {}).files + 1 }
      else tallies.get? key := by
  refine (SortedMap.get?_foldl_alter id _ (by simpa using h) tallies key).trans ?_
  by_cases hkey : key ∈ keys
  · have hfound : (keys.find? fun k => id k = key).isSome = true :=
      List.find?_isSome.2 ⟨key, hkey, by simp⟩
    obtain ⟨k, hk⟩ := Option.isSome_iff_exists.1 hfound
    rw [if_pos hkey, hk]
  · have hnone : keys.find? (fun k => id k = key) = none := by
      rw [List.find?_eq_none]
      intro k hk
      rw [decide_eq_true_eq]
      exact fun hid => hkey (hid ▸ hk)
    rw [if_neg hkey, hnone]

theorem tallyOf_singleton {f : ScannedFile} {key : FindingKey}
    (h : f.results.filter (isHit key) ≠ []) :
    tallyOf cap key [f] =
      { batch cap f.precise (f.results.filter (isHit key)) with files := 1 } := by
  have hhits : f.hits key = f.results.filter (isHit key) := rfl
  simp only [tallyOf, batch, hitsIn, hhits, List.flatMap_singleton, List.countP_singleton,
    Tally.mk.injEq, true_and]
  refine ⟨congrArg UInt64.ofNat (if_pos (by simpa using h)), ?_⟩
  cases hp : f.precise with
  | true => simp [hp, hhits]
  | false => simp [hp]

/-- A file leaves alone what is not about its results. -/
theorem foldl_addResult_frame (rules : List Rule) (precise : Bool) (results : List Correlation)
    (t : Totals) :
    (results.foldl (addResult rules precise) t).sampleLimit = t.sampleLimit ∧
    (results.foldl (addResult rules precise) t).diagnostics = t.diagnostics ∧
    (results.foldl (addResult rules precise) t).diagnosticCounts = t.diagnosticCounts ∧
    (results.foldl (addResult rules precise) t).degraded = t.degraded := by
  induction results generalizing t with
  | nil => exact ⟨rfl, rfl, rfl, rfl⟩
  | cons r rest ih => exact ih (addResult rules precise t r)

/-- Adding a file is merging the tallies of that file. -/
theorem get?_addFile {t : Totals} (ht : TidyTallies t.sampleLimit t.tallies) (f : ScannedFile)
    (key : FindingKey) :
    (addFile f.rules f.precise t f.results).tallies.get? key =
      Option.merge (Tally.merge t.sampleLimit) (t.tallies.get? key)
        (tally? t.sampleLimit key [f]) := by
  have hhits : hitsIn key [f] = f.results.filter (isHit key) := by simp [hitsIn, ScannedFile.hits]
  simp only [addFile]
  rw [get?_foldl_countFile (touched_nodup f.results), get?_foldl_addResult _ _ _ ht, tally?, hhits]
  by_cases hnil : f.results.filter (isHit key) = []
  · rw [if_neg (fun h => mem_touched.1 h hnil), hnil]
    simp
  · rw [if_pos (mem_touched.2 hnil), if_neg (by simpa using hnil), if_neg (by simpa using hnil),
      Tally.optionMerge_some _ (tallyOf_tidy ..), tallyOf_singleton hnil]
    simp [Tally.merge, batch]

end OneFile

/-! ## Histories -/

/-- How totals were built. -/
inductive History where
  | new
  | file (h : History) (f : ScannedFile)
  | skip (h : History) (d : Diagnostic)
  | diagnostic (h : History) (d : Diagnostic)
  | merge (h h' : History)

namespace History

def totals (cap : Nat) : History → Totals
  | .new => ofLimit cap
  | .file h f => (h.totals cap).addFile f.rules f.precise f.results
  | .skip h d => (h.totals cap).addSkip d
  | .diagnostic h d => (h.totals cap).addDiagnostic d
  | .merge h h' => (h.totals cap).merge (h'.totals cap)

/-- The files that were added. -/
def files : History → List ScannedFile
  | .new => []
  | .file h f => h.files ++ [f]
  | .skip h _ => h.files
  | .diagnostic h _ => h.files
  | .merge h h' => h.files ++ h'.files

/-- The diagnostics that were recorded, those of skipped files included. -/
def diagnostics : History → List Diagnostic
  | .new => []
  | .file h _ => h.diagnostics
  | .skip h d => h.diagnostics ++ [d]
  | .diagnostic h d => h.diagnostics ++ [d]
  | .merge h h' => h.diagnostics ++ h'.diagnostics

theorem totals_sampleLimit (cap : Nat) (h : History) : (h.totals cap).sampleLimit = cap := by
  induction h with
  | new => rfl
  | file h f ih => exact (foldl_addResult_frame ..).1.trans ih
  | skip h d ih => exact ih
  | diagnostic h d ih => exact ih
  | merge h h' ih ih' => rw [totals, Totals.merge, ih, ih', Nat.max_self]

/-! ## What is kept of the files -/

/-- Every way of building arrives at the tally that is computed from all files at once. -/
theorem get?_tallies (cap : Nat) (h : History) (key : FindingKey) :
    (h.totals cap).tallies.get? key = tally? cap key h.files := by
  induction h generalizing key with
  | new => rfl
  | file h f ih =>
    have htidy : TidyTallies (h.totals cap).sampleLimit (h.totals cap).tallies := by
      rw [totals_sampleLimit]
      exact tidy_of_tally? ih
    rw [totals, get?_addFile htidy, totals_sampleLimit, ih, files, tally?_append]
  | skip h d ih => exact ih key
  | diagnostic h d ih => exact ih key
  | merge h h' ih ih' =>
    simp only [totals, Totals.merge, totals_sampleLimit, Nat.max_self, files]
    rw [get?_mergeTallies (tidy_of_tally? ih) (tidy_of_tally? ih'), ih, ih', tally?_append]

/-! ## What is kept of the diagnostics -/

theorem totals_diagnostics (cap : Nat) (h : History) :
    (h.totals cap).diagnostics = lowest (diagnosticLimit cap) h.diagnostics := by
  have hadd : ∀ (t : Totals) (d : Diagnostic), t.sampleLimit = cap →
      (t.addDiagnostic d).diagnostics = lowest (diagnosticLimit cap) (t.diagnostics ++ [d]) := by
    rintro t d rfl
    rfl
  induction h with
  | new => simp [totals, ofLimit, diagnostics, lowest]
  | file h f ih => exact (foldl_addResult_frame ..).2.1.trans ih
  | skip h d ih =>
    refine (hadd _ d (totals_sampleLimit cap h)).trans ?_
    simp only [ih, lowest_append_lowest, diagnostics]
  | diagnostic h d ih =>
    refine (hadd _ d (totals_sampleLimit cap h)).trans ?_
    simp only [ih, lowest_append_lowest, diagnostics]
  | merge h h' ih ih' =>
    simp only [totals, Totals.merge, totals_sampleLimit, Nat.max_self, ih, ih', diagnostics,
      smallest_eq_lowest]
    rw [lowest_append_lowest, lowest_append_lowest_right]

end History

/-! ## The summary -/

section Bounds

variable (key : FindingKey) (files : List ScannedFile)

end Bounds

/-- The counts of a tally are the numbers of hits and files. -/
structure CountsExactly (key : FindingKey) (scanned : List ScannedFile) (t : Tally) : Prop where
  occurrences : t.occurrences.toNat = (hitsIn key scanned).length
  files : t.files.toNat = scanned.countP fun f => !(f.hits key).isEmpty
  structural : t.structural.toNat = (hitsIn key scanned).countP isStructural
  exact : t.exact.toNat = (hitsIn key (scanned.filter (·.precise))).countP isStructural

/-- What totals say about files and diagnostics. -/
structure Summary (cap : Nat) (files : List ScannedFile) (ds : List Diagnostic) (t : Totals) :
    Prop where
  present : ∀ key, t.tallies.contains key = true ↔
    ∃ f ∈ files, ∃ r ∈ f.results, r.verdict ≠ .cleaned ∧ keyOf r = key
  tallied : ∀ key tally, t.tallies.get? key = some tally → tally = tallyOf cap key files
  sampled : ∀ key tally, t.tallies.get? key = some tally →
    tally.samples.length = min cap (hitsIn key files).length
  /-- As long as a count can hold the hits, the counts are exact. -/
  bounds : ∀ key tally, t.tallies.get? key = some tally → (hitsIn key files).length < wordLimit →
    CountsExactly key files tally ∧ tally.exact ≤ tally.structural ∧
      tally.structural ≤ tally.occurrences ∧ tally.files ≤ tally.occurrences ∧
      tally.samples.length = min cap tally.occurrences.toNat
  diagnostics : t.diagnostics = lowest (diagnosticLimit cap) ds
  diagnostics_tenfold : 10 * max cap 1 < wordLimit → t.diagnostics = lowest (10 * max cap 1) ds
  /-- Every diagnostic is counted, kept or not. -/
  counted : ∀ name n, t.diagnosticCounts.get? name = some n ↔
    0 < ds.countP (·.kind.name == name) ∧ n = .ofNat (ds.countP (·.kind.name == name))
  degraded : t.degraded = .ofNat (ds.countP (·.kind.degrades))

end Totals
end LeakScan
