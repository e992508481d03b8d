import Mathlib.Data.List.Sort

/-!
# LeakScan.Proofs.Ordered

Lists in order, and the smallest elements of a list.

* `nodup_of_ordered`, `eq_of_ordered` — a list in strict order is known by its members.
* `mergeSort_eq_insertionSort` — sorting in a form that can be evaluated.
* `Ascending` — a list in order, equal elements side by side.
* `lowest` — the smallest elements of a list, up to a limit; `lowest_append_lowest` says that what
  is cut off early would have been cut off later.
-/

namespace LeakScan

open scoped List

/-! ## Strict order -/

section Strict

variable {α : Type u} {ord : α → α → Ordering} {l l' : List α}

theorem nodup_of_ordered [Std.ReflCmp ord] (h : l.Pairwise fun a b => ord a b = .lt) :
    l.Nodup := by
  refine h.imp fun {a b} hlt hab => ?_
  subst hab
  have hself : ord a a = .eq := Std.ReflCmp.compare_self
  rw [hself] at hlt
  cases hlt

/-- A list in strict order is known by its members. -/
theorem eq_of_ordered [Std.TransCmp ord] (h : l.Pairwise fun a b => ord a b = .lt)
    (h' : l'.Pairwise fun a b => ord a b = .lt) (hmem : ∀ a, a ∈ l ↔ a ∈ l') : l = l' := by
  have hperm : l.Perm l' :=
    (List.perm_ext_iff_of_nodup (nodup_of_ordered h) (nodup_of_ordered h')).2 hmem
  refine hperm.eq_of_pairwise (fun a b _ _ hab hba => ?_) h h'
  exact absurd hba (Std.OrientedCmp.not_lt_of_lt hab)

end Strict

/-! ## Sorting -/

section Sorting

variable {α : Type u}

theorem isLE_total (ord : α → α → Ordering) [Std.OrientedCmp ord] (a b : α) :
    ((ord a b).isLE || (ord b a).isLE) = true := by
  rw [Bool.or_eq_true]
  cases hab : ord a b with
  | lt => exact .inl rfl
  | eq => exact .inl rfl
  | gt => exact .inr (by rw [Std.OrientedCmp.lt_of_gt hab]; rfl)

theorem orderedInsert_between {rel : α → α → Prop} [DecidableRel rel] {a : α}
    {before after : List α} (hbefore : ∀ b ∈ before, ¬rel a b) (hafter : ∀ b ∈ after, rel a b) :
    (before ++ after).orderedInsert rel a = before ++ a :: after := by
  induction before with
  | nil =>
    cases after with
    | nil => rfl
    | cons b rest => exact List.orderedInsert_cons_of_le _ _ (hafter b List.mem_cons_self)
  | cons b rest ih =>
    obtain ⟨hb, hrest⟩ := List.forall_mem_cons.1 hbefore
    rw [List.cons_append, List.orderedInsert_of_not_le _ _ hb, ih hrest, List.cons_append]

/-- Sorting by insertion gives the same list, and can be evaluated. -/
theorem mergeSort_eq_insertionSort {ord : α → α → Ordering} [Std.TransCmp ord] (l : List α) :
    (l.mergeSort fun a b => (ord a b).isLE) =
      l.insertionSort fun a b => (ord a b).isLE = true := by
  induction l with
  | nil => exact List.mergeSort_nil
  | cons a rest ih =>
    obtain ⟨before, after, hcons, hrest, hbefore⟩ :=
      List.mergeSort_cons (fun _ _ _ => Std.TransCmp.isLE_trans) (isLE_total ord) a rest
    have hsorted : (before ++ a :: after).Pairwise fun a b => (ord a b).isLE = true := by
      rw [← hcons]
      exact List.pairwise_mergeSort (fun _ _ _ => Std.TransCmp.isLE_trans) (isLE_total ord)
        (a :: rest)
    rw [List.insertionSort_cons, ← ih, hcons, hrest]
    refine (orderedInsert_between (fun b hb => ?_) ?_).symm
    · simpa using hbefore b hb
    · exact (List.pairwise_cons.1 (List.pairwise_append.1 hsorted).2.1).1

end Sorting

/-! ## Order with repetitions -/

/-- Smaller elements first. -/
def Ascending [Ord α] (l : List α) : Prop := l.Pairwise fun a b => (compare a b).isLE = true

/-- The smallest elements of a list in order, `limit` of them at most. -/
def lowest [Ord α] (limit : Nat) (l : List α) : List α :=
  (l.mergeSort fun a b => (compare a b).isLE).take limit

section Lowest

variable {α : Type u} [Ord α] [Std.TransOrd α] {limit : Nat} {l l' : List α}

theorem ascending_sort (l : List α) : Ascending (l.mergeSort fun a b => (compare a b).isLE) :=
  List.pairwise_mergeSort (fun _ _ _ => Std.TransCmp.isLE_trans) (isLE_total compare) l

theorem ascending_lowest (limit : Nat) (l : List α) : Ascending (lowest limit l) :=
  (ascending_sort l).sublist (List.take_sublist ..)

omit [Std.TransOrd α] in
theorem length_lowest (limit : Nat) (l : List α) :
    (lowest limit l).length = min limit l.length := by
  rw [lowest, List.length_take, List.length_mergeSort]

omit [Std.TransOrd α] in
theorem lowest_of_ascending (h : Ascending l) (hlen : l.length ≤ limit) : lowest limit l = l := by
  rw [lowest, List.mergeSort_of_pairwise h, List.take_of_length_le hlen]

/-- What is left out comes after everything that is kept, and nothing is left out below the
limit. -/
theorem lowest_split (limit : Nat) (l : List α) :
    ∃ rest, (lowest limit l ++ rest).Perm l ∧
      (∀ a ∈ lowest limit l, ∀ b ∈ rest, (compare a b).isLE = true) ∧
      (rest = [] ∨ (lowest limit l).length = limit) := by
  let sorted := l.mergeSort fun a b => (compare a b).isLE
  have hsplit : lowest limit l ++ sorted.drop limit = sorted := List.take_append_drop limit sorted
  refine ⟨sorted.drop limit, ?_, ?_, ?_⟩
  · rw [hsplit]
    exact List.mergeSort_perm l _
  · have hasc : Ascending (lowest limit l ++ sorted.drop limit) := by
      rw [hsplit]
      exact ascending_sort l
    exact (List.pairwise_append.1 hasc).2.2
  · by_cases hlen : sorted.length ≤ limit
    · exact .inl (List.drop_eq_nil_of_le hlen)
    · refine .inr ?_
      rw [lowest, List.length_take]
      exact Nat.min_eq_left (Nat.le_of_not_le hlen)

variable [Std.LawfulEqOrd α]

theorem eq_of_ascending (h : Ascending l) (h' : Ascending l') (hperm : l.Perm l') : l = l' := by
  refine hperm.eq_of_pairwise (fun a b _ _ hab hba => ?_) h h'
  exact Std.LawfulEqOrd.eq_of_compare (Std.OrientedCmp.isLE_antisymm hab hba)

theorem lowest_perm (limit : Nat) (h : l.Perm l') : lowest limit l = lowest limit l' := by
  have hsort : (l.mergeSort fun a b => (compare a b).isLE) =
      l'.mergeSort fun a b => (compare a b).isLE :=
    eq_of_ascending (ascending_sort l) (ascending_sort l')
      ((List.mergeSort_perm l _).trans (h.trans (List.mergeSort_perm l' _).symm))
  rw [lowest, lowest, hsort]

/-- A part of the list is its lowest part if nothing else comes before it. -/
theorem lowest_eq_of_split {low rest : List α} (hlow : Ascending low) (hperm : (low ++ rest).Perm l)
    (hle : ∀ a ∈ low, ∀ b ∈ rest, (compare a b).isLE = true) (hlen : low.length ≤ limit)
    (hfull : rest = [] ∨ low.length = limit) : lowest limit l = low := by
  let sorted := rest.mergeSort fun a b => (compare a b).isLE
  have hasc : Ascending (low ++ sorted) := by
    refine List.pairwise_append.2 ⟨hlow, ascending_sort rest, fun a ha b hb => ?_⟩
    exact hle a ha b (List.mem_mergeSort.1 hb)
  have hall : (low ++ sorted).Perm l := ((List.mergeSort_perm rest _).append_left low).trans hperm
  have hsort : (l.mergeSort fun a b => (compare a b).isLE) = low ++ sorted :=
    eq_of_ascending (ascending_sort l) hasc ((List.mergeSort_perm l _).trans hall.symm)
  rw [lowest, hsort]
  rcases hfull with rfl | hfull
  · simpa [sorted] using List.take_of_length_le hlen
  · rw [← hfull, List.take_left]

omit [Std.LawfulEqOrd α] in
/-- Of a list that holds as many elements up to `b` as the limit allows, none of the lowest comes
after `b`: an element after `b` has all of those before it. -/
theorem isLE_of_mem_lowest {low m : List α} {a b : α} (hlen : low.length = limit)
    (hb : ∀ x ∈ low, (compare x b).isLE = true) (ha : a ∈ lowest limit (low ++ m)) :
    (compare a b).isLE = true := by
  by_contra hab
  obtain ⟨rest, hperm, hle, _⟩ := lowest_split limit (low ++ m)
  have hba : compare b a = .lt := by
    cases hc : compare a b with
    | lt => rw [hc] at hab; exact absurd rfl hab
    | eq => rw [hc] at hab; exact absurd rfl hab
    | gt => exact Std.OrientedCmp.lt_of_gt hc
  let below (x : α) : Bool := compare x a == .lt
  have hlow : low.countP below = limit := by
    rw [← hlen, List.countP_eq_length]
    intro x hx
    have hxa : compare x a = .lt := Std.TransCmp.lt_of_isLE_of_lt (hb x hx) hba
    simp [below, hxa]
  have hrest : rest.countP below = 0 := by
    rw [List.countP_eq_zero]
    intro x hx
    have hnot : compare x a ≠ .lt := Std.OrientedCmp.not_lt_of_isLE (hle a ha x hx)
    simp [below, hnot]
  have hself : below a = false := by simp [below]
  have hkept : (lowest limit (low ++ m)).countP below < limit := by
    refine Nat.lt_of_lt_of_le ?_ (Nat.le_trans (Nat.le_of_eq (length_lowest limit (low ++ m)))
      (Nat.min_le_left ..))
    refine Nat.lt_of_le_of_ne List.countP_le_length fun heq => ?_
    have := List.countP_eq_length.1 heq a ha
    rw [hself] at this
    cases this
  have hcount := hperm.countP_eq below
  rw [List.countP_append, List.countP_append, hlow, hrest] at hcount
  omega

/-- What is cut off early would have been cut off later. -/
theorem lowest_append_lowest (limit : Nat) (l m : List α) :
    lowest limit (lowest limit l ++ m) = lowest limit (l ++ m) := by
  obtain ⟨cut, hcut, hcutle, hfull⟩ := lowest_split limit l
  rcases hfull with rfl | hfull
  · -- nothing is cut off
    rw [List.append_nil] at hcut
    exact lowest_perm limit (hcut.append_right m)
  · obtain ⟨rest, hperm, hle, _⟩ := lowest_split limit (lowest limit l ++ m)
    have hlen : (lowest limit (lowest limit l ++ m)).length = limit := by
      rw [length_lowest, List.length_append, hfull]
      exact Nat.min_eq_left (Nat.le_add_right ..)
    have hall : (lowest limit (lowest limit l ++ m) ++ (rest ++ cut)).Perm (l ++ m) := by
      calc lowest limit (lowest limit l ++ m) ++ (rest ++ cut)
          = (lowest limit (lowest limit l ++ m) ++ rest) ++ cut := (List.append_assoc ..).symm
        _ ~ (lowest limit l ++ m) ++ cut := hperm.append_right cut
        _ ~ (lowest limit l ++ cut) ++ m := by
          rw [List.append_assoc, List.append_assoc]
          exact List.perm_append_comm.append_left _
        _ ~ l ++ m := hcut.append_right m
    refine (lowest_eq_of_split (ascending_lowest ..) hall ?_ hlen.le (.inr hlen)).symm
    intro a ha b hb
    rcases List.mem_append.1 hb with hb | hb
    · exact hle a ha b hb
    · exact isLE_of_mem_lowest hfull (fun x hx => hcutle x hx b hb) ha

theorem lowest_append_lowest_right (limit : Nat) (l m : List α) :
    lowest limit (l ++ lowest limit m) = lowest limit (l ++ m) := by
  rw [lowest_perm limit List.perm_append_comm, lowest_append_lowest,
    lowest_perm limit List.perm_append_comm]

end Lowest

end LeakScan
