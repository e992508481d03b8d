import Mathlib.Algebra.Group.Basic
import Mathlib.Algebra.GroupWithZero.Nat
import LeakScan.Proofs.Ordered
import LeakScan.SortedMap

/-!
# LeakScan.Proofs.SortedMap

Sorted maps as sets of entries.

* `mem_entries_iff` — looking a key up finds exactly the entries.
* `mem_keys_ofList` — the keys of a map are the keys it was made from.
* `ext_get?` — maps that answer alike are equal.
* `get?_alter`, `get?_ofList`, `get?_mapValues`, `get?_mergeWith` — what look-up finds after each
  operation.
* `mergeWith_comm`, `mergeWith_assoc` — union inherits the laws of the rule for common keys.
* `total` — a weight summed over all entries; `total_alter`, `total_mergeWith` say how it changes.
-/

namespace LeakScan
namespace SortedMap

variable {κ : Type u} {ν : Type v} [Ord κ]

theorem keys_ascend (m : SortedMap κ ν) : m.keys.Pairwise fun a b => compare a b = .lt :=
  List.pairwise_map.2 m.ascending

variable [Std.LawfulEqOrd κ]

theorem valueAt?_eq_some_iff {key : κ} {value : ν} {entries : List (κ × ν)}
    (h : KeysAscend entries) : valueAt? key entries = some value ↔ (key, value) ∈ entries := by
  induction entries with
  | nil => simp [valueAt?]
  | cons e rest ih =>
    obtain ⟨k, v⟩ := e
    obtain ⟨hk, hrest⟩ := List.pairwise_cons.1 h
    by_cases hc : compare key k = .eq
    · -- the key is found, and no later entry can have it
      have hkey : key = k := Std.LawfulEqCmp.eq_of_compare hc
      subst hkey
      have hnot : ∀ w, (key, w) ∉ rest := by
        intro w hw
        have := hk _ hw
        rw [hc] at this
        cases this
      simp [valueAt?, hnot, eq_comm]
    · have hne : key ≠ k := by
        rintro rfl
        exact hc Std.ReflCmp.compare_self
      simp [valueAt?, hc, hne, ih hrest]

theorem mem_entries_iff {m : SortedMap κ ν} {key : κ} {value : ν} :
    (key, value) ∈ m.entries ↔ m.get? key = some value :=
  (valueAt?_eq_some_iff m.ascending).symm

theorem mem_keys_alterEntries {key k : κ} {f : Option ν → ν} {entries : List (κ × ν)} :
    k ∈ (alterEntries key f entries).map (·.1) ↔ k = key ∨ k ∈ entries.map (·.1) := by
  induction entries with
  | nil => simp [alterEntries]
  | cons e rest ih =>
    obtain ⟨k', v⟩ := e
    simp only [alterEntries]
    split
    · simp
    · rename_i hc
      have hkey : key = k' := Std.LawfulEqCmp.eq_of_compare hc
      simp [hkey]
    · simp only [List.map_cons, List.mem_cons, ih]
      exact or_left_comm

variable [Std.TransOrd κ]

theorem mem_keys_insert {m : SortedMap κ ν} {key k : κ} {value : ν} :
    k ∈ (m.insert key value).keys ↔ k = key ∨ k ∈ m.keys :=
  mem_keys_alterEntries

theorem mem_keys_foldl_insert {entries : List (κ × ν)} {k : κ} (m : SortedMap κ ν) :
    k ∈ (entries.foldl (fun m e => m.insert e.1 e.2) m).keys ↔
      k ∈ entries.map (·.1) ∨ k ∈ m.keys := by
  induction entries generalizing m with
  | nil => simp
  | cons e rest ih =>
    simp only [List.foldl_cons, ih, mem_keys_insert, List.map_cons, List.mem_cons]
    rw [or_left_comm, or_assoc]

theorem mem_keys_ofList {entries : List (κ × ν)} {k : κ} :
    k ∈ (ofList entries).keys ↔ k ∈ entries.map (·.1) := by
  rw [ofList, mem_keys_foldl_insert]
  simp [keys, empty]

/-! ## Look-up -/

omit [Std.TransOrd κ] in
theorem valueAt?_eq_none_iff {key : κ} {entries : List (κ × ν)} :
    valueAt? key entries = none ↔ key ∉ entries.map (·.1) := by
  induction entries with
  | nil => simp [valueAt?]
  | cons e rest ih =>
    obtain ⟨k, v⟩ := e
    by_cases hk : key = k
    · simp [valueAt?, hk]
    · have hc : compare key k ≠ .eq := fun h => hk (Std.LawfulEqCmp.eq_of_compare h)
      simp [valueAt?, hc, hk, ih]

omit [Std.TransOrd κ] in
theorem contains_iff_mem_keys {m : SortedMap κ ν} {key : κ} :
    m.contains key = true ↔ key ∈ m.keys := by
  rw [contains, Option.isSome_iff_ne_none, get?, ne_eq, valueAt?_eq_none_iff, not_not]
  rfl

/-- Maps that answer alike are equal. -/
theorem ext_get? {a b : SortedMap κ ν} (h : ∀ key, a.get? key = b.get? key) : a = b := by
  apply SortedMap.ext
  have : Std.TransCmp (compareOn (Prod.fst : κ × ν → κ)) := inferInstance
  refine @eq_of_ordered _ (compareOn Prod.fst) _ _ this a.ascending b.ascending fun e => ?_
  obtain ⟨key, value⟩ := e
  rw [mem_entries_iff, mem_entries_iff, h key]

variable [DecidableEq κ]

omit [Std.TransOrd κ] in
theorem valueAt?_cons {key k : κ} {v : ν} {rest : List (κ × ν)} :
    valueAt? key ((k, v) :: rest) = if key = k then some v else valueAt? key rest := by
  rw [valueAt?]
  simp only [beq_iff_eq, Std.LawfulEqCmp.compare_eq_iff_eq]

omit [Std.TransOrd κ] in
theorem valueAt?_eq_find? {key : κ} {entries : List (κ × ν)} :
    valueAt? key entries = (entries.find? (·.1 = key)).map (·.2) := by
  induction entries with
  | nil => rfl
  | cons e rest ih =>
    obtain ⟨k, v⟩ := e
    rw [valueAt?_cons, List.find?_cons]
    by_cases hk : key = k
    · simp [hk]
    · simp [hk, Ne.symm hk, ih]

omit [DecidableEq κ] in
/-- A key that comes before the first entry has none. -/
theorem valueAt?_of_lt {key k : κ} {v : ν} {rest : List (κ × ν)}
    (h : KeysAscend ((k, v) :: rest)) (hlt : compare key k = .lt) :
    valueAt? key ((k, v) :: rest) = none := by
  rw [valueAt?_eq_none_iff, List.map_cons, List.mem_cons, not_or]
  constructor
  · rintro rfl
    simp at hlt
  · intro hmem
    obtain ⟨e, he, rfl⟩ := List.mem_map.1 hmem
    exact absurd ((List.pairwise_cons.1 h).1 e he) (Std.OrientedCmp.not_lt_of_lt hlt)

theorem valueAt?_alterEntries {key k : κ} {f : Option ν → ν} {entries : List (κ × ν)}
    (h : KeysAscend entries) :
    valueAt? k (alterEntries key f entries) =
      if k = key then some (f (valueAt? key entries)) else valueAt? k entries := by
  induction entries with
  | nil => rw [alterEntries, valueAt?_cons]; rfl
  | cons e rest ih =>
    obtain ⟨k', v⟩ := e
    rw [alterEntries]
    cases hc : compare key k' with
    | lt => rw [valueAt?_cons, valueAt?_of_lt h hc]
    | eq =>
      have hkey : key = k' := Std.LawfulEqCmp.eq_of_compare hc
      subst hkey
      rw [valueAt?_cons, valueAt?_cons, valueAt?_cons, if_pos rfl]
      split <;> rfl
    | gt =>
      have hne : key ≠ k' := by
        rintro rfl
        simp at hc
      rw [valueAt?_cons, valueAt?_cons, valueAt?_cons, ih (List.pairwise_cons.1 h).2, if_neg hne]
      by_cases hkk : k = k'
      · rw [if_pos hkk, if_pos hkk, if_neg (fun h => hne (h.symm.trans hkk))]
      · rw [if_neg hkk, if_neg hkk]

theorem get?_alter (m : SortedMap κ ν) (key k : κ) (f : Option ν → ν) :
    (m.alter key f).get? k = if k = key then some (f (m.get? key)) else m.get? k :=
  valueAt?_alterEntries m.ascending

theorem get?_foldl_insert (entries : List (κ × ν)) (m : SortedMap κ ν) (k : κ) :
    (entries.foldl (fun m e => m.insert e.1 e.2) m).get? k =
      ((entries.reverse.find? (·.1 = k)).map (·.2)).or (m.get? k) := by
  induction entries generalizing m with
  | nil => rfl
  | cons e rest ih =>
    rw [List.foldl_cons, ih, insert, get?_alter, List.reverse_cons, List.find?_append]
    cases rest.reverse.find? (·.1 = k) with
    | some last => rfl
    | none =>
      by_cases hk : e.1 = k
      · simp [hk]
      · simp [hk, Ne.symm hk]

/-- The last value given for a key counts. -/
theorem get?_ofList (entries : List (κ × ν)) (k : κ) :
    (ofList entries).get? k = (entries.reverse.find? (·.1 = k)).map (·.2) :=
  (get?_foldl_insert entries empty k).trans (Option.or_none)

omit [Std.TransOrd κ] in
theorem get?_mapValues (f : ν → ω) (m : SortedMap κ ν) (k : κ) :
    (mapValues f m).get? k = (m.get? k).map f := by
  rw [get?, get?, valueAt?_eq_find?, valueAt?_eq_find?, mapValues, List.find?_map]
  simp only [Option.map_map]
  rfl

/-- Changes of different keys do not meet. -/
theorem get?_foldl_alter {β : Type w} (key : β → κ) (f : β → Option ν → ν) {l : List β}
    (h : (l.map key).Nodup) (m : SortedMap κ ν) (k : κ) :
    (l.foldl (fun m b => m.alter (key b) (f b)) m).get? k =
      match l.find? (key · = k) with
      | some b => some (f b (m.get? k))
      | none => m.get? k := by
  induction l generalizing m with
  | nil => rfl
  | cons b rest ih =>
    rw [List.map_cons, List.nodup_cons] at h
    rw [List.foldl_cons, ih h.2, get?_alter, List.find?_cons]
    by_cases hk : key b = k
    · have hnone : rest.find? (key · = k) = none := by
        rw [List.find?_eq_none]
        intro x hx
        rw [decide_eq_true_eq]
        exact fun hxk => h.1 (List.mem_map.2 ⟨x, hx, hxk.trans hk.symm⟩)
      rw [hnone]
      simp [hk]
    · simp only [hk, Ne.symm hk, decide_false, if_false]

omit [Std.TransOrd κ] [DecidableEq κ] in
theorem keys_nodup (m : SortedMap κ ν) : m.keys.Nodup := nodup_of_ordered m.keys_ascend

theorem get?_mergeWith (f : ν → ν → ν) (a b : SortedMap κ ν) (k : κ) :
    (mergeWith f a b).get? k = Option.merge f (a.get? k) (b.get? k) := by
  have hb : b.get? k = (b.entries.find? (·.1 = k)).map (·.2) := valueAt?_eq_find?
  refine (get?_foldl_alter _ _ b.keys_nodup a k).trans ?_
  rw [hb]
  cases b.entries.find? (·.1 = k) with
  | none => simp
  | some e => cases a.get? k <;> rfl

theorem mergeWith_comm (f : ν → ν → ν) [Std.Commutative f] (a b : SortedMap κ ν) :
    a.mergeWith f b = b.mergeWith f a := by
  refine ext_get? fun k => ?_
  rw [get?_mergeWith, get?_mergeWith]
  exact Std.Commutative.comm ..

theorem mergeWith_assoc (f : ν → ν → ν) [Std.Associative f] (a b c : SortedMap κ ν) :
    (a.mergeWith f b).mergeWith f c = a.mergeWith f (b.mergeWith f c) := by
  refine ext_get? fun k => ?_
  simp only [get?_mergeWith]
  exact Std.Associative.assoc ..

theorem empty_mergeWith (f : ν → ν → ν) (a : SortedMap κ ν) : empty.mergeWith f a = a := by
  refine ext_get? fun k => ?_
  rw [get?_mergeWith]
  exact Option.merge_none_left

/-! ## Sums -/

section Sums

variable {M : Type w}

omit [Std.LawfulEqOrd κ] [Std.TransOrd κ] [DecidableEq κ] in
/-- A weight summed over all entries. -/
def total [AddCommMonoid M] (weight : κ → ν → M) (m : SortedMap κ ν) : M :=
  (m.entries.map fun e => weight e.1 e.2).sum

/-- The old value of a key gives way to the new one. -/
theorem sum_alterEntries [AddCommMonoid M] (weight : κ → ν → M) (key : κ) (f : Option ν → ν)
    {entries : List (κ × ν)} (h : KeysAscend entries) :
    ((alterEntries key f entries).map fun e => weight e.1 e.2).sum +
        ((valueAt? key entries).map (weight key)).getD 0 =
      (entries.map fun e => weight e.1 e.2).sum + weight key (f (valueAt? key entries)) := by
  induction entries with
  | nil => simp [alterEntries, valueAt?]
  | cons e rest ih =>
    obtain ⟨k, v⟩ := e
    rw [alterEntries]
    cases hc : compare key k with
    | lt =>
      simp only [valueAt?_of_lt h hc, Option.map_none, Option.getD_none, List.map_cons,
        List.sum_cons, add_zero]
      rw [add_comm]
    | eq =>
      have hkey : key = k := Std.LawfulEqCmp.eq_of_compare hc
      subst hkey
      simp only [valueAt?_cons, if_true, Option.map_some, Option.getD_some, List.map_cons,
        List.sum_cons]
      rw [add_right_comm, add_comm (weight key _) (weight key v), add_right_comm]
    | gt =>
      have hne : key ≠ k := by
        rintro rfl
        simp at hc
      have hrest := ih (List.pairwise_cons.1 h).2
      simp only [valueAt?_cons, if_neg hne, List.map_cons, List.sum_cons]
      rw [add_assoc, hrest, add_assoc]

variable [AddCancelCommMonoid M]

/-- A change that raises the weight of its key raises the sum as much. -/
theorem total_alter {weight : κ → ν → M} {key : κ} {f : Option ν → ν} {n : M}
    (h : ∀ old, weight key (f old) = (old.map (weight key)).getD 0 + n) (m : SortedMap κ ν) :
    (m.alter key f).total weight = m.total weight + n := by
  have hsum := sum_alterEntries weight key f m.ascending
  rw [h, ← add_assoc, add_right_comm] at hsum
  exact add_right_cancel hsum

omit [Std.LawfulEqOrd κ] [Std.TransOrd κ] [DecidableEq κ] in
theorem total_mapValues (weight : κ → ν → M) {f : ν → ν} (m : SortedMap κ ν)
    (h : ∀ key v, weight key (f v) = weight key v) :
    (mapValues f m).total weight = m.total weight := by
  simp only [total, mapValues, List.map_map]
  exact congrArg List.sum (List.map_congr_left fun e _ => h e.1 e.2)

/-- Bringing entries into a map adds their weights to those that are there. -/
theorem total_foldl_alter (weight : κ → ν → M) {f : κ × ν → Option ν → ν}
    (h : ∀ e old, weight e.1 (f e old) = (old.map (weight e.1)).getD 0 + weight e.1 e.2)
    (entries : List (κ × ν)) (m : SortedMap κ ν) :
    (entries.foldl (fun m e => m.alter e.1 (f e)) m).total weight =
      m.total weight + (entries.map fun e => weight e.1 e.2).sum := by
  induction entries generalizing m with
  | nil => rw [List.foldl_nil, List.map_nil, List.sum_nil, add_zero]
  | cons e rest ih =>
    rw [List.foldl_cons, ih, total_alter (h e), List.map_cons, List.sum_cons, add_assoc]

theorem total_mergeWith (weight : κ → ν → M) {f : ν → ν → ν} (a b : SortedMap κ ν)
    (h : ∀ key v w, weight key (f v w) = weight key v + weight key w) :
    (a.mergeWith f b).total weight = a.total weight + b.total weight := by
  refine total_foldl_alter weight (fun e old => ?_) b.entries a
  cases old with
  | none => simp
  | some v => exact h e.1 v e.2

end Sums

end SortedMap
end LeakScan
