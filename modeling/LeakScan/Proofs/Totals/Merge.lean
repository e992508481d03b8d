import Mathlib.Algebra.BigOperators.Group.List.Basic
import LeakScan.Proofs.SortedMap
import LeakScan.Totals

/-!
# LeakScan.Proofs.Totals.Merge

Merging totals is a commutative monoid, although every merge cuts samples and diagnostics off.

* `Tally.Tidy`, `Totals.Ordered` — kept lists are in order, and samples within their limit.
* `Totals.WellFormed` — diagnostics are within theirs, too.
* `Totals.merge_comm`, `merge_assoc`, `ofLimit_merge`, `merge_ofLimit` — the laws.
* `Bounded` — well-formed totals, a commutative monoid under `+`.
* `Reduction` — a tree of merges, with empty totals anywhere in it.
-/

namespace LeakScan

/-! ## Orders

What is sorted or serves as a key can be told apart by comparison. -/

instance : Std.LawfulEqOrd Verdict where
  eq_of_compare := by
    intro a b
    cases a <;> cases b <;> decide

instance : Std.LawfulEqOrd FindingKey where
  eq_of_compare := by
    rintro ⟨rule, verdict⟩ ⟨rule', verdict'⟩ h
    obtain ⟨hrule, hverdict⟩ := compareLex_eq_eq.1 h
    cases Std.LawfulEqOrd.eq_of_compare hrule
    cases Std.LawfulEqOrd.eq_of_compare hverdict
    rfl

instance : Std.TransOrd Location :=
  inferInstanceAs (Std.TransCmp (compareLex (compareOn Location.file)
    (compareLex (compareOn Location.line)
      (compareLex (compareOn Location.column) (compareOn Location.snippet)))))

instance : Std.LawfulEqOrd Location where
  eq_of_compare := by
    rintro ⟨file, line, column, snippet⟩ ⟨file', line', column', snippet'⟩ h
    obtain ⟨hfile, h⟩ := compareLex_eq_eq.1 h
    obtain ⟨hline, h⟩ := compareLex_eq_eq.1 h
    obtain ⟨hcolumn, hsnippet⟩ := compareLex_eq_eq.1 h
    cases Std.LawfulEqOrd.eq_of_compare hfile
    cases Std.LawfulEqOrd.eq_of_compare hline
    cases Std.LawfulEqOrd.eq_of_compare hcolumn
    cases Std.LawfulEqOrd.eq_of_compare hsnippet
    rfl

namespace Diagnostic

instance : Std.LawfulEqOrd Kind where
  eq_of_compare := by
    intro a b
    cases a <;> cases b <;> decide

instance : Std.TransOrd Level := inferInstanceAs (Std.TransCmp (compareOn Level.rank))

instance : Std.LawfulEqOrd Level where
  eq_of_compare := by
    intro a b
    cases a <;> cases b <;> decide

instance : Std.TransOrd Diagnostic :=
  inferInstanceAs (Std.TransCmp (compareLex (compareOn kind) (compareLex (compareOn level)
    (compareLex (compareOn path) (compareLex (compareOn ruleId) (compareOn message))))))

instance : Std.LawfulEqOrd Diagnostic where
  eq_of_compare := by
    rintro ⟨kind, level, path, rule, message⟩ ⟨kind', level', path', rule', message'⟩ h
    obtain ⟨hkind, h⟩ := compareLex_eq_eq.1 h
    obtain ⟨hlevel, h⟩ := compareLex_eq_eq.1 h
    obtain ⟨hpath, h⟩ := compareLex_eq_eq.1 h
    obtain ⟨hrule, hmessage⟩ := compareLex_eq_eq.1 h
    cases Std.LawfulEqOrd.eq_of_compare hkind
    cases Std.LawfulEqOrd.eq_of_compare hlevel
    cases Std.LawfulEqOrd.eq_of_compare hpath
    cases Std.LawfulEqOrd.eq_of_compare hrule
    cases Std.LawfulEqOrd.eq_of_compare hmessage
    rfl

end Diagnostic

/-! ## Kept lists -/

section Smallest

variable {α : Type u} [Ord α] [Std.TransOrd α] [Std.LawfulEqOrd α]

omit [Std.TransOrd α] [Std.LawfulEqOrd α] in
theorem smallest_eq_lowest (limit : Nat) (a b : List α) :
    smallest limit a b = lowest limit (a ++ b) := rfl

theorem smallest_comm (limit : Nat) (a b : List α) : smallest limit a b = smallest limit b a :=
  lowest_perm limit List.perm_append_comm

theorem smallest_assoc (limit : Nat) (a b c : List α) :
    smallest limit (smallest limit a b) c = smallest limit a (smallest limit b c) := by
  simp only [smallest_eq_lowest]
  rw [lowest_append_lowest, lowest_append_lowest_right, List.append_assoc]

omit [Std.TransOrd α] [Std.LawfulEqOrd α] in
theorem nil_smallest {limit : Nat} {l : List α} (h : Ascending l) (hlen : l.length ≤ limit) :
    smallest limit [] l = l :=
  lowest_of_ascending h hlen

omit [Std.TransOrd α] [Std.LawfulEqOrd α] in
theorem length_smallest_le (limit : Nat) (a b : List α) : (smallest limit a b).length ≤ limit := by
  rw [smallest_eq_lowest, length_lowest]
  exact Nat.min_le_left ..

end Smallest

/-! ## Tallies -/

namespace Tally

variable {limit : Nat} {a b : Tally}

/-- The samples are in order and within the limit. -/
structure Tidy (limit : Nat) (t : Tally) : Prop where
  ascending : Ascending t.samples
  length_le : t.samples.length ≤ limit

theorem merge_comm (limit : Nat) (a b : Tally) : a.merge limit b = b.merge limit a := by
  simp only [merge, mk.injEq]
  exact ⟨UInt64.add_comm .., UInt64.add_comm .., smallest_comm .., UInt64.add_comm ..,
    UInt64.add_comm ..⟩

theorem merge_assoc (limit : Nat) (a b c : Tally) :
    (a.merge limit b).merge limit c = a.merge limit (b.merge limit c) := by
  simp only [merge, mk.injEq]
  exact ⟨UInt64.add_assoc .., UInt64.add_assoc .., smallest_assoc .., UInt64.add_assoc ..,
    UInt64.add_assoc ..⟩

instance (limit : Nat) : Std.Commutative (merge limit) := ⟨merge_comm limit⟩

instance (limit : Nat) : Std.Associative (merge limit) := ⟨merge_assoc limit⟩

theorem merge_tidy (limit : Nat) (a b : Tally) : (a.merge limit b).Tidy limit :=
  ⟨ascending_lowest .., length_smallest_le ..⟩

theorem empty_merge (h : a.Tidy limit) : merge limit {} a = a := by
  cases a with
  | mk occurrences files samples structural exact =>
    simp only [merge, UInt64.zero_add, nil_smallest h.ascending h.length_le]

theorem merge_empty (h : a.Tidy limit) : a.merge limit {} = a := by
  rw [merge_comm, empty_merge h]

/-- Merging into the empty tally is what happens under a new key. -/
theorem optionMerge_some (v : Option Tally) (h : a.Tidy limit) :
    Option.merge (merge limit) v (some a) = some ((v.getD {}).merge limit a) := by
  cases v with
  | none => exact congrArg some (empty_merge h).symm
  | some v => rfl

end Tally

namespace CategoryTally

instance : Std.Commutative merge where
  comm a b := by simp only [merge, UInt64.add_comm]

instance : Std.Associative merge where
  assoc a b c := by simp only [merge, UInt64.add_assoc]

end CategoryTally

namespace Totals

def TidyTallies (limit : Nat) (tallies : SortedMap FindingKey Tally) : Prop :=
  ∀ key tally, tallies.get? key = some tally → tally.Tidy limit

/-- For tidy tallies the cut after the merge and the empty tally under a new key leave no trace. -/
theorem get?_mergeTallies {limit : Nat} {a b : SortedMap FindingKey Tally}
    (ha : TidyTallies limit a) (hb : TidyTallies limit b) (key : FindingKey) :
    (mergeTallies limit a b).get? key =
      Option.merge (Tally.merge limit) (a.get? key) (b.get? key) := by
  have hcut : ∀ t : Tally, t.Tidy limit → { t with samples := t.samples.take limit } = t := by
    intro t ht
    rw [List.take_of_length_le ht.length_le]
  have hb' : b.get? key = (b.entries.find? (·.1 = key)).map (·.2) := SortedMap.valueAt?_eq_find?
  rw [mergeTallies, SortedMap.get?_mapValues, SortedMap.get?_foldl_alter _ _ b.keys_nodup]
  cases hfind : b.entries.find? (·.1 = key) with
  | none =>
    have hnone : b.get? key = none := by rw [hb', hfind]; rfl
    rw [hnone, Option.merge_none_right]
    cases hv : a.get? key with
    | none => rfl
    | some v => exact congrArg some (hcut v (ha key v hv))
  | some e =>
    have hsome : b.get? key = some e.2 := by rw [hb', hfind]; rfl
    rw [hsome, Tally.optionMerge_some _ (hb key e.2 hsome)]
    exact congrArg some (hcut _ (Tally.merge_tidy ..))

theorem tidy_mergeTallies {limit : Nat} {a b : SortedMap FindingKey Tally}
    (ha : TidyTallies limit a) (hb : TidyTallies limit b) :
    TidyTallies limit (mergeTallies limit a b) := by
  intro key tally h
  rw [get?_mergeTallies ha hb] at h
  cases hvb : b.get? key with
  | none =>
    rw [hvb, Option.merge_none_right] at h
    exact ha key tally h
  | some w =>
    cases hva : a.get? key with
    | none =>
      rw [hva, Option.merge_none_left] at h
      exact hb key tally h
    | some v =>
      rw [hva, hvb] at h
      cases h
      exact Tally.merge_tidy limit v w

/-! ## Totals -/

/-- Kept lists are in order, and there are no more samples of a key than `cap`. -/
structure Ordered (cap : Nat) (t : Totals) : Prop where
  sampleLimit : t.sampleLimit = cap
  tallies : TidyTallies cap t.tallies
  diagnostics_ascend : Ascending t.diagnostics

/-- Diagnostics are within the limit that goes with `cap`, too. -/
structure WellFormed (cap : Nat) (t : Totals) : Prop extends Ordered cap t where
  diagnostics_length : t.diagnostics.length ≤ diagnosticLimit cap

theorem wellFormed_ofLimit (cap : Nat) : WellFormed cap (ofLimit cap) where
  sampleLimit := rfl
  tallies := by
    intro key tally h
    cases h
  diagnostics_ascend := .nil
  diagnostics_length := Nat.zero_le _

section Laws

variable {cap : Nat} {a b c : Totals}

/-- Each merge cuts to the limits. -/
theorem merge_wellFormed (ha : Ordered cap a) (hb : Ordered cap b) :
    WellFormed cap (a.merge b) := by
  have hlimit : max a.sampleLimit b.sampleLimit = cap := by
    rw [ha.sampleLimit, hb.sampleLimit, Nat.max_self]
  refine ⟨⟨hlimit, ?_, ascending_lowest ..⟩, ?_⟩
  · simp only [merge, hlimit]
    exact tidy_mergeTallies ha.tallies hb.tallies
  · simp only [merge, hlimit]
    exact length_smallest_le ..

/-- The fields of a merge, the limits being the same. -/
theorem merge_eq (ha : Ordered cap a) (hb : Ordered cap b) :
    a.merge b =
      { sampleLimit := cap
        tallies := mergeTallies cap a.tallies b.tallies
        categories := a.categories.mergeWith CategoryTally.merge b.categories
        diagnosticCounts := a.diagnosticCounts.mergeWith (· + ·) b.diagnosticCounts
        diagnostics := smallest (diagnosticLimit cap) a.diagnostics b.diagnostics
        degraded := a.degraded + b.degraded
        filesScanned := a.filesScanned + b.filesScanned
        filesSkipped := a.filesSkipped + b.filesSkipped
        structuralMatches := a.structuralMatches + b.structuralMatches
        textualMatches := a.textualMatches + b.textualMatches } := by
  rw [merge, ha.sampleLimit, hb.sampleLimit, Nat.max_self]

theorem merge_comm (ha : Ordered cap a) (hb : Ordered cap b) : a.merge b = b.merge a := by
  rw [merge_eq ha hb, merge_eq hb ha]
  simp only [mk.injEq, true_and]
  refine ⟨?_, SortedMap.mergeWith_comm .., SortedMap.mergeWith_comm .., smallest_comm ..,
    UInt64.add_comm .., UInt64.add_comm .., UInt64.add_comm .., UInt64.add_comm ..,
    UInt64.add_comm ..⟩
  refine SortedMap.ext_get? fun key => ?_
  rw [get?_mergeTallies ha.tallies hb.tallies, get?_mergeTallies hb.tallies ha.tallies]
  exact Std.Commutative.comm ..

theorem merge_assoc (ha : Ordered cap a) (hb : Ordered cap b) (hc : Ordered cap c) :
    (a.merge b).merge c = a.merge (b.merge c) := by
  have hab := (merge_wellFormed ha hb).toOrdered
  have hbc := (merge_wellFormed hb hc).toOrdered
  rw [merge_eq hab hc, merge_eq ha hbc, merge_eq ha hb, merge_eq hb hc]
  simp only [mk.injEq, true_and]
  refine ⟨?_, SortedMap.mergeWith_assoc .., SortedMap.mergeWith_assoc .., smallest_assoc ..,
    UInt64.add_assoc .., UInt64.add_assoc .., UInt64.add_assoc .., UInt64.add_assoc ..,
    UInt64.add_assoc ..⟩
  refine SortedMap.ext_get? fun key => ?_
  rw [get?_mergeTallies (tidy_mergeTallies ha.tallies hb.tallies) hc.tallies,
    get?_mergeTallies ha.tallies hb.tallies,
    get?_mergeTallies ha.tallies (tidy_mergeTallies hb.tallies hc.tallies),
    get?_mergeTallies hb.tallies hc.tallies]
  exact Std.Associative.assoc ..

theorem ofLimit_merge (ha : WellFormed cap a) : (ofLimit cap).merge a = a := by
  rw [merge_eq (wellFormed_ofLimit cap).toOrdered ha.toOrdered]
  cases a with
  | mk sampleLimit tallies categories diagnosticCounts diagnostics degraded filesScanned
      filesSkipped structuralMatches textualMatches =>
    simp only [ofLimit, mk.injEq, UInt64.zero_add, and_true]
    refine ⟨ha.sampleLimit.symm, ?_, SortedMap.empty_mergeWith .., SortedMap.empty_mergeWith .., ?_⟩
    · refine SortedMap.ext_get? fun key => ?_
      exact (get?_mergeTallies (wellFormed_ofLimit cap).tallies ha.tallies key).trans
        Option.merge_none_left
    · exact nil_smallest ha.diagnostics_ascend ha.diagnostics_length

theorem merge_ofLimit (ha : WellFormed cap a) : a.merge (ofLimit cap) = a := by
  rw [merge_comm ha.toOrdered (wellFormed_ofLimit cap).toOrdered, ofLimit_merge ha]

end Laws

/-! ## Reductions -/

/-- Well-formed totals with one limit. -/
structure Bounded (cap : Nat) where
  totals : Totals
  wellFormed : WellFormed cap totals

namespace Bounded

variable {cap : Nat}

theorem ext {a b : Bounded cap} (h : a.totals = b.totals) : a = b := by
  cases a
  cases b
  cases h
  rfl

instance : Zero (Bounded cap) := ⟨⟨ofLimit cap, wellFormed_ofLimit cap⟩⟩

instance : Add (Bounded cap) :=
  ⟨fun a b =>
    ⟨a.totals.merge b.totals, merge_wellFormed a.wellFormed.toOrdered b.wellFormed.toOrdered⟩⟩

instance : AddCommMonoid (Bounded cap) where
  add_assoc a b c :=
    ext (merge_assoc a.wellFormed.toOrdered b.wellFormed.toOrdered c.wellFormed.toOrdered)
  zero_add a := ext (ofLimit_merge a.wellFormed)
  add_zero a := ext (merge_ofLimit a.wellFormed)
  add_comm a b := ext (merge_comm a.wellFormed.toOrdered b.wellFormed.toOrdered)
  nsmul := nsmulRec

end Bounded

/-- How the totals of many files are brought together. -/
inductive Reduction (cap : Nat) where
  | empty
  | leaf (t : Bounded cap)
  | merge (left right : Reduction cap)

namespace Reduction

variable {cap : Nat}

def leaves : Reduction cap → List (Bounded cap)
  | .empty => []
  | .leaf t => [t]
  | .merge left right => left.leaves ++ right.leaves

def totals : Reduction cap → Totals
  | .empty => ofLimit cap
  | .leaf t => t.totals
  | .merge left right => left.totals.merge right.totals

theorem totals_eq_sum (r : Reduction cap) : r.totals = r.leaves.sum.totals := by
  induction r with
  | empty => rfl
  | leaf t => rw [leaves, List.sum_singleton, totals]
  | merge left right ihl ihr =>
    rw [leaves, List.sum_append, totals, ihl, ihr]
    rfl

end Reduction

end Totals
end LeakScan
