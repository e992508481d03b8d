import LeakScan.Baseline
import LeakScan.Proofs.Totals.Merge

/-!
# LeakScan.Proofs.Baseline.Delta

The delta of two counts, fingerprint by fingerprint.

* `occurrences?` — the occurrences of a fingerprint among some findings; `get?_ofFindings` says that
  counts hold just these.
* `Share` — what one fingerprint adds to a delta: an entry in one of its lists, or nothing.
* `delta_eq` — a delta collects the shares of all fingerprints, in their order.
* `delta_mirror`, `delta_self` — going back exchanges the sides, and standing still changes nothing.
-/

namespace LeakScan

instance : Std.LawfulEqOrd Fingerprint where
  eq_of_compare := by
    rintro ⟨rule, verdict, kind⟩ ⟨rule', verdict', kind'⟩ h
    obtain ⟨hrule, h⟩ := compareLex_eq_eq.1 h
    obtain ⟨hverdict, hkind⟩ := compareLex_eq_eq.1 h
    cases Std.LawfulEqOrd.eq_of_compare hrule
    cases Std.LawfulEqOrd.eq_of_compare hverdict
    cases Std.LawfulEqOrd.eq_of_compare hkind
    rfl

namespace Counts

/-! ## Counts -/

/-- The occurrences of a fingerprint among some findings, if one of them has it: the last 64 bits of
their sum. -/
def occurrences? (findings : List Finding) (f : Fingerprint) : Option UInt64 :=
  if f ∈ findings.map (·.fingerprint) then
    some (.ofNat ((findings.filter (·.fingerprint = f)).map (·.occurrences.toNat)).sum)
  else none

/-- Each addition may wrap around, and the result is that of one exact sum. -/
theorem get?_foldl_count (pairs : List (Fingerprint × UInt64)) (m : Counts) (f : Fingerprint) :
    (pairs.foldl (fun m p => m.alter p.1 fun n => n.getD 0 + p.2) m).get? f =
      if f ∈ pairs.map (·.1) then
        some ((m.get? f).getD 0 + .ofNat ((pairs.filter (·.1 = f)).map (·.2.toNat)).sum)
      else m.get? f := by
  induction pairs generalizing m with
  | nil => rfl
  | cons p rest ih =>
    rw [List.foldl_cons, ih, SortedMap.get?_alter]
    by_cases hp : f = p.1
    · subst hp
      by_cases hrest : p.1 ∈ rest.map (·.1)
      · simp [hrest, UInt64.add_assoc]
      · have hnone : rest.filter (·.1 = p.1) = [] := by
          rw [List.filter_eq_nil_iff]
          intro q hq
          rw [decide_eq_true_eq]
          exact fun hqp => hrest (List.mem_map.2 ⟨q, hq, hqp⟩)
        simp [hrest, hnone]
    · have hmem : f ∈ (p :: rest).map (·.1) ↔ f ∈ rest.map (·.1) := by simp [hp]
      simp only [hp, if_false, hmem, List.filter_cons, Ne.symm hp, decide_false, Bool.false_eq_true]

theorem get?_ofPairs (pairs : List (Fingerprint × UInt64)) (f : Fingerprint) :
    (ofPairs pairs).get? f =
      if f ∈ pairs.map (·.1) then some (.ofNat ((pairs.filter (·.1 = f)).map (·.2.toNat)).sum)
      else none := by
  have hempty : (SortedMap.empty : Counts).get? f = none := rfl
  rw [ofPairs, get?_foldl_count, hempty, Option.getD_none, UInt64.zero_add]

theorem get?_ofFindings (findings : List Finding) (f : Fingerprint) :
    (ofFindings findings).get? f = occurrences? findings f := by
  rw [ofFindings, get?_ofPairs, occurrences?]
  simp only [List.map_map, List.filter_map]
  rfl

theorem mem_keys_ofFindings {findings : List Finding} {f : Fingerprint} :
    f ∈ (ofFindings findings).keys ↔ f ∈ findings.map (·.fingerprint) := by
  rw [← SortedMap.contains_iff_mem_keys, SortedMap.contains, get?_ofFindings, occurrences?]
  split <;> simp_all

/-! ## Shares -/

/-- What a fingerprint adds to a delta. -/
inductive Share where
  | new (after : UInt64)
  | resolved (before : UInt64)
  | changed (before after : UInt64)
  | none
  deriving DecidableEq, Repr

/-- The share of a fingerprint with these counts on the two sides. -/
def Share.of : (before after : Option UInt64) → Share
  | .none, some n => .new n
  | some m, .none => .resolved m
  | some m, some n => if m = n then .none else .changed m n
  | .none, .none => .none

namespace Share

def new? (f : Fingerprint) : Share → Option DeltaEntry
  | .new n => some ⟨f.ruleId, f.verdict, n⟩
  | _ => Option.none

def resolved? (f : Fingerprint) : Share → Option DeltaEntry
  | .resolved m => some ⟨f.ruleId, f.verdict, m⟩
  | _ => Option.none

def changed? (f : Fingerprint) : Share → Option DeltaChange
  | .changed m n => some ⟨f.ruleId, f.verdict, m, n⟩
  | _ => Option.none

/-- The delta of some fingerprints, in the order given. -/
def collect (fingerprints : List Fingerprint) (share : Fingerprint → Share) : Delta where
  new := fingerprints.filterMap fun f => (share f).new? f
  resolved := fingerprints.filterMap fun f => (share f).resolved? f
  changed := fingerprints.filterMap fun f => (share f).changed? f

theorem new?_of (f : Fingerprint) (m n : Option UInt64) :
    (Share.of m n).new? f = if m.isSome then Option.none else n.map (⟨f.ruleId, f.verdict, ·⟩) := by
  cases m with
  | none => cases n <;> rfl
  | some m =>
    cases n with
    | none => rfl
    | some n => by_cases hmn : m = n <;> simp [Share.of, new?, hmn]

theorem resolved?_of (f : Fingerprint) (m n : Option UInt64) :
    (Share.of m n).resolved? f =
      if n.isSome then Option.none else m.map (⟨f.ruleId, f.verdict, ·⟩) := by
  cases m with
  | none => cases n <;> rfl
  | some m =>
    cases n with
    | none => rfl
    | some n => by_cases hmn : m = n <;> simp [Share.of, resolved?, hmn]

theorem changed?_of (f : Fingerprint) (m n : Option UInt64) :
    (Share.of m n).changed? f = m.bind fun m => n.bind fun n =>
      if m = n then Option.none else some ⟨f.ruleId, f.verdict, m, n⟩ := by
  cases m with
  | none => cases n <;> rfl
  | some m =>
    cases n with
    | none => rfl
    | some n => by_cases hmn : m = n <;> simp [Share.of, changed?, hmn]

theorem of_eq_none_iff {before after : Option UInt64} :
    Share.of before after = .none ↔ before = after := by
  cases before <;> cases after <;> simp [Share.of]

end Share

/-- The fingerprints of both sides, each once, in order. -/
structure Spans (fingerprints : List Fingerprint) (before after : Counts) : Prop where
  ascending : fingerprints.Pairwise fun f g => compare f g = .lt
  mem_iff : ∀ f, f ∈ fingerprints ↔ f ∈ before.keys ∨ f ∈ after.keys

variable {before after : Counts} {fingerprints : List Fingerprint}

theorem exists_spans (before after : Counts) : ∃ fingerprints, Spans fingerprints before after := by
  refine ⟨(SortedMap.ofList (before.entries ++ after.entries)).keys, SortedMap.keys_ascend _, ?_⟩
  intro f
  rw [SortedMap.mem_keys_ofList, List.map_append, List.mem_append]
  rfl

theorem Spans.symm (h : Spans fingerprints before after) : Spans fingerprints after before :=
  ⟨h.ascending, fun f => (h.mem_iff f).trans or_comm⟩

/-- The entries of a map are found by looking up any ordered list that has all its keys. -/
theorem entries_eq_filterMap (m : Counts) (hasc : fingerprints.Pairwise fun f g => compare f g = .lt)
    (hkeys : ∀ f ∈ m.keys, f ∈ fingerprints) :
    m.entries = fingerprints.filterMap fun f => (m.get? f).map (f, ·) := by
  have htrans : Std.TransCmp (compareOn (Prod.fst : Fingerprint × UInt64 → Fingerprint)) :=
    inferInstance
  refine @eq_of_ordered _ (compareOn Prod.fst) _ _ htrans m.ascending ?_ fun e => ?_
  · refine List.Pairwise.filterMap _ (fun f g hfg e he e' he' => ?_) hasc
    obtain ⟨n, -, rfl⟩ := Option.map_eq_some_iff.1 he
    obtain ⟨n', -, rfl⟩ := Option.map_eq_some_iff.1 he'
    exact hfg
  · obtain ⟨f, n⟩ := e
    rw [SortedMap.mem_entries_iff, List.mem_filterMap]
    constructor
    · intro hget
      have hkey : f ∈ m.keys := List.mem_map.2 ⟨(f, n), SortedMap.mem_entries_iff.2 hget, rfl⟩
      exact ⟨f, hkeys f hkey, by rw [hget]; rfl⟩
    · rintro ⟨g, -, hg⟩
      obtain ⟨n', hget, heq⟩ := Option.map_eq_some_iff.1 hg
      cases heq
      exact hget

/-- A delta collects what each fingerprint adds to it. -/
theorem delta_eq (h : Spans fingerprints before after) :
    before.delta after =
      Share.collect fingerprints fun f => .of (before.get? f) (after.get? f) := by
  have hafter := entries_eq_filterMap after h.ascending fun f hf => (h.mem_iff f).2 (.inr hf)
  have hbefore := entries_eq_filterMap before h.ascending fun f hf => (h.mem_iff f).2 (.inl hf)
  rw [delta, Share.collect, missingFrom, missingFrom, changes, hafter, hbefore]
  simp only [List.filterMap_filterMap, Delta.mk.injEq]
  refine ⟨List.filterMap_congr fun f _ => ?_, List.filterMap_congr fun f _ => ?_,
    List.filterMap_congr fun f _ => ?_⟩
  · rw [Share.new?_of]
    cases after.get? f <;> cases hb : before.get? f <;> simp [SortedMap.contains, hb]
  · rw [Share.resolved?_of]
    cases ha : after.get? f <;> cases before.get? f <;> simp [SortedMap.contains, ha]
  · rw [Share.changed?_of]
    cases after.get? f <;> cases hb : before.get? f <;> simp [hb]

/-! ## Both directions -/

end Counts

/-- The same delta seen from the other side. -/
def Delta.mirror (d : Delta) : Delta where
  new := d.resolved
  resolved := d.new
  changed := d.changed.map fun c => ⟨c.ruleId, c.verdict, c.after, c.before⟩

namespace Counts

variable {before after : Counts} {fingerprints : List Fingerprint}

theorem Share.changed?_swap (f : Fingerprint) (m n : Option UInt64) :
    (Share.of n m).changed? f =
      ((Share.of m n).changed? f).map fun c => ⟨c.ruleId, c.verdict, c.after, c.before⟩ := by
  rw [changed?_of, changed?_of]
  cases m with
  | none => cases n <;> rfl
  | some m =>
    cases n with
    | none => rfl
    | some n => by_cases hmn : m = n <;> simp [hmn, Ne.symm, eq_comm]

theorem delta_mirror (before after : Counts) :
    after.delta before = (before.delta after).mirror := by
  obtain ⟨fingerprints, h⟩ := exists_spans before after
  rw [delta_eq h, delta_eq h.symm, Delta.mirror, Share.collect, Share.collect]
  simp only [Delta.mk.injEq, List.map_filterMap, Share.new?_of, Share.resolved?_of, true_and]
  exact List.filterMap_congr fun f _ => Share.changed?_swap ..

theorem delta_self (c : Counts) : c.delta c = {} := by
  obtain ⟨fingerprints, h⟩ := exists_spans c c
  rw [delta_eq h, Share.collect]
  simp only [Share.of_eq_none_iff.2 rfl]
  simp [Share.new?, Share.resolved?, Share.changed?]

/-- A finding that differs from others of its kind in its fingerprint and count only. -/
def plainFinding (f : Fingerprint) (occurrences : UInt64) : Finding where
  ruleId := f.ruleId
  verdict := f.verdict
  severity := .warning
  baseSeverity := .warning
  confidence := .high
  score := 90
  resourceKind := f.resourceKind
  category := "async-resources"
  language := "javascript"
  title := "Resource is never released"
  description := "d"
  occurrences := occurrences
  files := 1
  locations := [⟨"a.js", 3, 0, none⟩]
  mode := .structural

end Counts
end LeakScan
