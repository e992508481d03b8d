import Mathlib.Data.List.Induction
import LeakScan.Proofs.Text.Lines
import LeakScan.Scope.Outline.Header

/-!
# LeakScan.Proofs.Outline.Callee

The call that a closure is passed to is found by reading a header from its end. It is the call
that matching the parentheses from the left would give.

* `Matching`, `matching` — parentheses matched from left to right with a stack.
* `beforeOpen_reverse`, `beforePartner_succ` — the scans from the end read that stack.
* `CallParen` — the place of the call in a header.
* `EndsInName` — the longest name at the end of a text, blanks after it aside.
* `calleeOf_iff_forward` — place and name of the call.
-/

namespace LeakScan.Scope.Outline

open Text

/-! ## Matching from left to right -/

/-- The parentheses of a text: the places of those that are open, innermost first, and of the
pairs, latest first. -/
structure Matching where
  opened : List Nat := []
  pairs : List (Nat × Nat) := []
  deriving DecidableEq, Repr

/-- Reads the character at place `i`. A `)` without a partner is passed over. -/
def Matching.step (m : Matching) (i : Nat) (c : Char) : Matching :=
  if c = '(' then { m with opened := i :: m.opened }
  else if c = ')' then
    match m.opened with
    | [] => m
    | o :: rest => { opened := rest, pairs := (o, i) :: m.pairs }
  else m

/-- Reads on from place `i`. -/
def matchFrom (i : Nat) (m : Matching) : List Char → Matching
  | [] => m
  | c :: cs => matchFrom (i + 1) (m.step i c) cs

def matching (cs : List Char) : Matching := matchFrom 0 {} cs

theorem matchFrom_concat (i : Nat) (m : Matching) (cs : List Char) (c : Char) :
    matchFrom i m (cs ++ [c]) = (matchFrom i m cs).step (i + cs.length) c := by
  induction cs generalizing i m with
  | nil => rfl
  | cons d cs ih =>
    rw [List.cons_append, matchFrom, ih, matchFrom, List.length_cons]
    congr 1
    omega

theorem matching_concat (cs : List Char) (c : Char) :
    matching (cs ++ [c]) = (matching cs).step cs.length c := by
  rw [matching, matchFrom_concat, Nat.zero_add, matching]

theorem opened_concat_open (cs : List Char) :
    (matching (cs ++ ['('])).opened = cs.length :: (matching cs).opened := by
  rw [matching_concat, Matching.step, if_pos rfl]

theorem opened_concat_close (cs : List Char) :
    (matching (cs ++ [')'])).opened = (matching cs).opened.tail := by
  rw [matching_concat, Matching.step, if_neg (by decide), if_pos rfl]
  cases h : (matching cs).opened with
  | nil => exact h
  | cons o rest => rfl

theorem matching_concat_other {c : Char} (hopen : c ≠ '(') (hclose : c ≠ ')') (cs : List Char) :
    matching (cs ++ [c]) = matching cs := by
  rw [matching_concat, Matching.step, if_neg hopen, if_neg hclose]

/-- Open parentheses lie inside the text, the innermost last. -/
theorem opened_descending (cs : List Char) :
    (matching cs).opened.Pairwise (· > ·) ∧ ∀ p ∈ (matching cs).opened, p < cs.length := by
  induction cs using List.reverseRecOn with
  | nil => exact ⟨.nil, List.forall_mem_nil _⟩
  | append_singleton cs c ih =>
    obtain ⟨horder, hinside⟩ := ih
    rw [List.length_append, List.length_singleton]
    by_cases hopen : c = '('
    · subst hopen
      rw [opened_concat_open]
      refine ⟨List.pairwise_cons.2 ⟨hinside, horder⟩, List.forall_mem_cons.2 ⟨by omega, ?_⟩⟩
      exact fun p hp => Nat.lt_succ_of_lt (hinside p hp)
    · by_cases hclose : c = ')'
      · subst hclose
        rw [opened_concat_close]
        exact ⟨horder.tail, fun p hp => Nat.lt_succ_of_lt (hinside p (List.mem_of_mem_tail hp))⟩
      · rw [matching_concat_other hopen hclose]
        exact ⟨horder, fun p hp => Nat.lt_succ_of_lt (hinside p hp)⟩

theorem pairs_inside {cs : List Char} {e : Nat × Nat} (h : e ∈ (matching cs).pairs) :
    e.2 < cs.length := by
  induction cs using List.reverseRecOn with
  | nil => cases h
  | append_singleton cs c ih =>
    rw [List.length_append, List.length_singleton]
    by_cases hclose : c = ')'
    · subst hclose
      rw [matching_concat, Matching.step, if_neg (by decide), if_pos rfl] at h
      split at h
      · exact Nat.lt_succ_of_lt (ih h)
      · rcases List.mem_cons.1 h with rfl | h
        · exact Nat.lt_succ_self _
        · exact Nat.lt_succ_of_lt (ih h)
    · rw [matching_concat, Matching.step] at h
      simp only [hclose, if_false] at h
      split at h <;> exact Nat.lt_succ_of_lt (ih h)

/-- The partner of a `)` at the end is the innermost parenthesis that is open before it. -/
theorem mem_pairs_concat_close {cs : List Char} {p : Nat} :
    (p, (cs ++ [')']).length - 1) ∈ (matching (cs ++ [')'])).pairs ↔
      (matching cs).opened.head? = some p := by
  have hold : (p, cs.length) ∉ (matching cs).pairs := fun h => Nat.lt_irrefl _ (pairs_inside h)
  rw [List.length_append, List.length_singleton, Nat.add_sub_cancel, matching_concat,
    Matching.step, if_neg (by decide), if_pos rfl]
  cases h : (matching cs).opened with
  | nil => simp [hold]
  | cons o rest => simp [hold, eq_comm]

/-! ## Reading from the end -/

/-- With `depth` parentheses to be closed, the scan from the end passes over as many open ones. -/
theorem beforeOpen_reverse (cs : List Char) (depth : Nat) :
    beforeOpen depth cs.reverse =
      (matching cs).opened[depth]?.map fun p => (cs.take p).reverse := by
  induction cs using List.reverseRecOn generalizing depth with
  | nil => rfl
  | append_singleton cs c ih =>
    have htake : ∀ n : Nat, (matching cs).opened[n]?.map (fun p => ((cs ++ [c]).take p).reverse) =
        (matching cs).opened[n]?.map fun p => (cs.take p).reverse := by
      refine fun n => Option.map_congr fun p hp => ?_
      have hle := Nat.le_of_lt ((opened_descending cs).2 p (List.mem_of_getElem? hp))
      rw [List.take_append_of_le_length hle]
    rw [List.reverse_concat, beforeOpen]
    by_cases hopen : c = '('
    · subst hopen
      rw [opened_concat_open, if_neg (by decide), if_pos (by decide)]
      cases depth with
      | zero => simp
      | succ depth => simpa [ih] using (htake depth).symm
    · by_cases hclose : c = ')'
      · subst hclose
        rw [opened_concat_close, if_pos (by decide), ih, List.getElem?_tail, htake]
      · rw [matching_concat_other hopen hclose, if_neg (by simpa using hclose),
          if_neg (by simpa using hopen), ih, htake]

/-- Behind the `)` that it starts from, the second scan does what the first one does. -/
theorem beforePartner_succ (cs : List Char) (depth : Nat) :
    beforePartner (depth + 1) cs = beforeOpen depth cs := by
  induction cs generalizing depth with
  | nil => rfl
  | cons c cs ih =>
    rw [beforePartner, beforeOpen, ih]
    cases depth with
    | zero => simp [ih]
    | succ depth => simp [ih]

/-! ## The place of the call -/

/-- The place in front of which the name of the call stands, if there is one: the last parenthesis
that is not closed; without such, the partner of a `)` at the end, which may be missing; and the
end of a header that ends in no `)`. -/
inductive CallParen (header : List Char) : Option Nat → Prop where
  | unclosed {p : Nat} (hmem : p ∈ (matching header).opened)
    (hlast : ∀ q ∈ (matching header).opened, q ≤ p) : CallParen header (some p)
  | closed {p : Nat} (hnone : (matching header).opened = []) (hend : header.getLast? = some ')')
    (hpair : (p, header.length - 1) ∈ (matching header).pairs) : CallParen header (some p)
  | stray (hnone : (matching header).opened = []) (hend : header.getLast? = some ')')
    (hpair : ∀ p, (p, header.length - 1) ∉ (matching header).pairs) : CallParen header none
  | bare (hnone : (matching header).opened = []) (hend : header.getLast? ≠ some ')') :
    CallParen header (some header.length)

theorem last_opened_iff {cs : List Char} {p : Nat} :
    (matching cs).opened.head? = some p ↔
      p ∈ (matching cs).opened ∧ ∀ q ∈ (matching cs).opened, q ≤ p := by
  have horder := (opened_descending cs).1
  cases hopened : (matching cs).opened with
  | nil => simp
  | cons o rest =>
    rw [hopened, List.pairwise_cons] at horder
    rw [List.head?_cons, Option.some.injEq]
    constructor
    · rintro rfl
      refine ⟨List.mem_cons_self, List.forall_mem_cons.2 ⟨Nat.le_refl o, fun q hq => ?_⟩⟩
      exact Nat.le_of_lt (horder.1 q hq)
    · rintro ⟨hmem, hlast⟩
      rcases List.mem_cons.1 hmem with rfl | hmem
      · rfl
      · exact absurd (horder.1 p hmem) (Nat.not_lt.2 (hlast o List.mem_cons_self))

theorem beforeOpen_zero (cs : List Char) :
    beforeOpen 0 cs.reverse = (matching cs).opened.head?.map fun p => (cs.take p).reverse := by
  rw [beforeOpen_reverse, List.head?_eq_getElem?]

/-- The scan from the end stops at the place of the call. -/
theorem CallParen.beforeCall_eq {header : List Char} {place : Option Nat}
    (h : CallParen header place) :
    beforeCall header.reverse = place.map fun p => (header.take p).reverse := by
  have hclosed : ∀ front : List Char, header = front ++ [')'] → (matching header).opened = [] →
      beforeCall header.reverse =
        (matching front).opened.head?.map fun p => (front.take p).reverse := by
    rintro front rfl hnone
    rw [beforeCall, beforeOpen_zero, hnone, List.reverse_concat]
    simp only [List.head?_nil, Option.map_none, List.head?_cons, BEq.rfl, if_true]
    rw [beforePartner, if_pos (by decide), beforePartner_succ, beforeOpen_zero]
  cases h with
  | unclosed hmem hlast => rw [beforeCall, beforeOpen_zero, last_opened_iff.2 ⟨hmem, hlast⟩]; rfl
  | @closed p hnone hend hpair =>
    obtain ⟨front, rfl⟩ := List.getLast?_eq_some_iff.1 hend
    have hhead := mem_pairs_concat_close.1 hpair
    have hlt := (opened_descending front).2 p (List.mem_of_head? hhead)
    rw [hclosed front rfl hnone, hhead, Option.map_some, Option.map_some,
      List.take_append_of_le_length (Nat.le_of_lt hlt)]
  | stray hnone hend hpair =>
    obtain ⟨front, rfl⟩ := List.getLast?_eq_some_iff.1 hend
    have hempty : (matching front).opened.head? = none :=
      Option.eq_none_iff_forall_ne_some.2 fun p hp => hpair p (mem_pairs_concat_close.2 hp)
    rw [hclosed front rfl hnone, hempty]
    rfl
  | bare hnone hend =>
    rw [beforeCall, beforeOpen_zero, hnone]
    simp [List.head?_reverse, hend]

theorem CallParen.le {header : List Char} {p : Nat} (h : CallParen header (some p)) :
    p ≤ header.length := by
  cases h with
  | unclosed hmem _ => exact Nat.le_of_lt ((opened_descending header).2 p hmem)
  | closed _ hend hpair =>
    obtain ⟨front, rfl⟩ := List.getLast?_eq_some_iff.1 hend
    have hlt := (opened_descending front).2 p (List.mem_of_head? (mem_pairs_concat_close.1 hpair))
    rw [List.length_append]
    omega
  | bare => exact Nat.le_refl _

theorem exists_callParen (header : List Char) : ∃ place, CallParen header place := by
  by_cases hnone : (matching header).opened = []
  · by_cases hend : header.getLast? = some ')'
    · by_cases hpair : ∃ p, (p, header.length - 1) ∈ (matching header).pairs
      · obtain ⟨p, hpair⟩ := hpair
        exact ⟨some p, .closed hnone hend hpair⟩
      · exact ⟨none, .stray hnone hend fun p hp => hpair ⟨p, hp⟩⟩
    · exact ⟨some header.length, .bare hnone hend⟩
  · obtain ⟨p, rest, hopened⟩ := List.exists_cons_of_ne_nil hnone
    have hhead : (matching header).opened.head? = some p := by rw [hopened, List.head?_cons]
    obtain ⟨hmem, hlast⟩ := last_opened_iff.1 hhead
    exact ⟨some p, .unclosed hmem hlast⟩

/-! ## The name -/

/-- The name is the longest run of name characters at the end of the text, blanks after it
aside. -/
def EndsInName (cs name : List Char) : Prop :=
  ∃ front gap, cs = front ++ name ++ gap ∧ AllBlank gap ∧
    (∀ c ∈ (front ++ name).getLast?, isBlank c = false) ∧
    (∀ c ∈ name, isNameChar c = true) ∧ ∀ c ∈ front.getLast?, isNameChar c = false

/-- Dropping blanks and taking name characters from the end finds the name. -/
theorem endsInName_iff {cs name : List Char} :
    EndsInName cs name ↔ (cs.reverse.dropWhile isBlank).takeWhile isNameChar = name.reverse := by
  constructor
  · rintro ⟨front, gap, rfl, hgap, hstop, hname, hfront⟩
    have hreverse : (front ++ name ++ gap).reverse = gap.reverse ++ (front ++ name).reverse := by
      rw [List.reverse_append]
    rw [hreverse, dropWhile_append_stop (fun c hc => hgap c (List.mem_reverse.1 hc))
      (by simpa using hstop), List.reverse_append]
    exact takeWhile_append_stop (fun c hc => hname c (List.mem_reverse.1 hc))
      (by simpa using hfront)
  · intro h
    have hname : name = ((cs.reverse.dropWhile isBlank).takeWhile isNameChar).reverse := by
      rw [h, List.reverse_reverse]
    have hsplit : ((cs.reverse.dropWhile isBlank).dropWhile isNameChar).reverse ++ name =
        (cs.reverse.dropWhile isBlank).reverse := by
      rw [hname, ← List.reverse_append, List.takeWhile_append_dropWhile]
    refine ⟨((cs.reverse.dropWhile isBlank).dropWhile isNameChar).reverse,
      (cs.reverse.takeWhile isBlank).reverse, ?_, fun c hc => ?_, fun c hc => ?_, fun c hc => ?_,
      fun c hc => ?_⟩
    · rw [hsplit, ← List.reverse_append, List.takeWhile_append_dropWhile, List.reverse_reverse]
    · exact List.mem_takeWhile_imp (List.mem_reverse.1 hc)
    · rw [hsplit, List.getLast?_reverse] at hc
      exact head?_dropWhile_false hc
    · rw [hname] at hc
      exact List.mem_takeWhile_imp (List.mem_reverse.1 hc)
    · rw [List.getLast?_reverse] at hc
      exact head?_dropWhile_false hc

theorem calleeOf_eq_some_iff {header : List Char} {name : String} :
    calleeOf header = some name ↔ name ≠ "" ∧
      ∃ before, beforeCall header.reverse = some before ∧ EndsInName before.reverse name.toList := by
  rw [calleeOf]
  cases beforeCall header.reverse with
  | none => simp
  | some before =>
    simp only [Option.some.injEq, exists_eq_left', endsInName_iff, List.reverse_reverse]
    generalize (before.dropWhile isBlank).takeWhile isNameChar = run
    rw [List.reverse_eq_iff.symm]
    constructor
    · intro h
      split at h
      · cases h
      · rename_i hne
        cases h
        rw [String.toList_ofList]
        refine ⟨?_, rfl⟩
        simpa [← String.toList_inj] using hne
    · rintro ⟨hne, hrun⟩
      have hrun' : run ≠ [] := by
        rintro rfl
        exact hne (String.toList_inj.1 hrun.symm)
      rw [if_neg (by simpa using hrun'), hrun, String.ofList_toList]

/-- The scan from the end stops where matching from the left places the call: the last `(` that is
not closed or, when all are closed, the partner of the `)` that ends the header. The callee is the
longest name in front of it, blanks aside, and there is none if that name is empty or the partner
is missing. -/
theorem calleeOf_iff_forward (header : List Char) :
    (∀ place, (beforeCall header.reverse).map List.length = place ↔ CallParen header place) ∧
    ∀ name, calleeOf header = some name ↔ name ≠ "" ∧
      ∃ p, CallParen header (some p) ∧ EndsInName (header.take p) name.toList := by
  obtain ⟨place, hplace⟩ := exists_callParen header
  have hscan : ∀ place, CallParen header place →
      (beforeCall header.reverse).map List.length = place := by
    intro place h
    rw [h.beforeCall_eq, Option.map_map]
    cases place with
    | none => rfl
    | some p => simp [h.le]
  refine ⟨fun other => ⟨?_, hscan other⟩, fun name => ?_⟩
  · rintro rfl
    rw [hscan place hplace]
    exact hplace
  · rw [calleeOf_eq_some_iff, hplace.beforeCall_eq]
    refine and_congr_right fun _ => ⟨?_, ?_⟩
    · rintro ⟨before, hbefore, hname⟩
      obtain ⟨p, rfl, rfl⟩ := Option.map_eq_some_iff.1 hbefore
      rw [List.reverse_reverse] at hname
      exact ⟨p, hplace, hname⟩
    · rintro ⟨p, hp, hname⟩
      cases (hscan _ hplace).symm.trans (hscan _ hp)
      exact ⟨_, rfl, by rwa [List.reverse_reverse]⟩

end LeakScan.Scope.Outline
