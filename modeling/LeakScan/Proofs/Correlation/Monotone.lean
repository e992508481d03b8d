import Mathlib.Data.List.Forall2
import LeakScan.Proofs.Correlation.Kinds

/-!
# LeakScan.Proofs.Correlation.Monotone

One more cleanup makes no verdict worse. The new cleanup may be taken early and set free the one
that was taken before, which then goes to a later acquisition, and so on; at every step the free
cleanups of the two runs differ by one at most.

* `Spare free free'` — `free'` is `free`, or has one more.
* `Improves old new` — no result gets worse, and at most one acquisition is newly cleaned.
* `settle_improves` — the two runs for one kind.
* `correlate_add_cleanup` — all kinds.
-/

namespace LeakScan
namespace Correlation

/-- The second list has at most one more, at any place. -/
inductive Spare : List Match → List Match → Prop where
  | same (free : List Match) : Spare free free
  | extra (l r : List Match) (x : Match) : Spare (l ++ r) (l ++ x :: r)

structure NoWorse (old new : Correlation) : Prop where
  acquisition : new.acquisition = old.acquisition
  cleaned : old.verdict = .cleaned → new.verdict = .cleaned
  ambiguous : old.verdict = .ambiguous → new.verdict = .ambiguous ∨ new.verdict = .cleaned

/-- The acquisition is newly cleaned. -/
def gained (old new : Correlation) : Bool := old.verdict != .cleaned && new.verdict == .cleaned

def gains (old new : List Correlation) : Nat :=
  (old.zip new).countP fun p => gained p.1 p.2

structure Improves (old new : List Correlation) : Prop where
  results : List.Forall₂ NoWorse old new
  gains_le : gains old new ≤ 1

theorem NoWorse.refl (r : Correlation) : NoWorse r r := ⟨rfl, id, .inl⟩

theorem noWorse_of_cleaned {a : Match} {c : Option Match} (r : Correlation)
    (h : r.acquisition = a) : NoWorse r ⟨a, c, .cleaned⟩ :=
  ⟨h.symm, fun _ => rfl, fun _ => .inr rfl⟩

theorem noWorse_of_open {a : Match} {related related' guessed : Bool}
    (h : related = true → related' = true) :
    NoWorse ⟨a, none, if related && guessed then .ambiguous else .leaked⟩
      ⟨a, none, if related' && guessed then .ambiguous else .leaked⟩ where
  acquisition := rfl
  cleaned := by cases related <;> cases guessed <;> simp
  ambiguous := by
    cases hr : related with
    | false => simp
    | true => cases guessed <;> simp [h hr]

theorem gained_self (r : Correlation) : gained r r = false := by
  cases r with
  | mk a c v => cases v <;> rfl

theorem gained_of_open {a : Match} (old : Correlation) (p : Bool) :
    gained old ⟨a, none, if p then .ambiguous else .leaked⟩ = false := by
  cases p <;> simp [gained]

theorem gains_cons (r r' : Correlation) (old new : List Correlation) :
    gains (r :: old) (r' :: new) = gains old new + (gained r r').toNat := by
  simp only [gains, List.zip_cons_cons, List.countP_cons]
  cases gained r r' <;> rfl

theorem gains_self (rs : List Correlation) : gains rs rs = 0 := by
  induction rs with
  | nil => rfl
  | cons r rest ih => rw [gains_cons, ih, gained_self]; rfl

theorem gains_append_left (rs old new : List Correlation) :
    gains (rs ++ old) (rs ++ new) = gains old new := by
  induction rs with
  | nil => rfl
  | cons r rest ih => rw [List.cons_append, List.cons_append, gains_cons, ih, gained_self]; rfl

theorem gains_append_right {old new : List Correlation} (h : List.Forall₂ NoWorse old new)
    (rs : List Correlation) : gains (old ++ rs) (new ++ rs) = gains old new := by
  induction h with
  | nil => exact gains_self rs
  | cons _ _ ih => rw [List.cons_append, List.cons_append, gains_cons, gains_cons, ih]

theorem acquisitions_of_noWorse {old new : List Correlation} (h : List.Forall₂ NoWorse old new) :
    new.map (·.acquisition) = old.map (·.acquisition) := by
  induction h with
  | nil => rfl
  | cons hr _ ih => rw [List.map_cons, List.map_cons, hr.acquisition, ih]

theorem forall₂_noWorse_self (rs : List Correlation) : List.Forall₂ NoWorse rs rs :=
  List.forall₂_same.2 fun r _ => NoWorse.refl r

namespace Improves

theorem refl (rs : List Correlation) : Improves rs rs :=
  ⟨forall₂_noWorse_self rs, by rw [gains_self]; exact Nat.zero_le 1⟩

theorem cons {r r' : Correlation} {old new : List Correlation} (hr : NoWorse r r')
    (hg : gained r r' = false) (h : Improves old new) : Improves (r :: old) (r' :: new) := by
  refine ⟨.cons hr h.results, ?_⟩
  rw [gains_cons, hg]
  exact h.gains_le

/-- After a gain the runs go on alike. -/
theorem cons_self {r r' : Correlation} (hr : NoWorse r r') (rs : List Correlation) :
    Improves (r :: rs) (r' :: rs) := by
  refine ⟨.cons hr (forall₂_noWorse_self rs), ?_⟩
  rw [gains_cons, gains_self]
  cases gained r r' <;> decide

theorem append_left (rs : List Correlation) {old new : List Correlation} (h : Improves old new) :
    Improves (rs ++ old) (rs ++ new) := by
  refine ⟨List.rel_append (forall₂_noWorse_self rs) h.results, ?_⟩
  rw [gains_append_left]
  exact h.gains_le

theorem append_right {old new : List Correlation} (h : Improves old new) (rs : List Correlation) :
    Improves (old ++ rs) (new ++ rs) := by
  refine ⟨List.rel_append h.results (forall₂_noWorse_self rs), ?_⟩
  rw [gains_append_right h.results]
  exact h.gains_le

end Improves

/-! ## The two runs for one kind -/

/-- What the first that fits is in the shorter list and in the longer one: both lists give one and
differ by one at most in the rest, or neither does, or only the longer one, and nothing is left to
tell them apart. -/
theorem takeFirst_spare (p : Match → Bool) (l r : List Match) (x : Match) :
    (∃ c others c' others', takeFirst p (l ++ r) = some (c, others) ∧
      takeFirst p (l ++ x :: r) = some (c', others') ∧ Spare others others') ∨
    (takeFirst p (l ++ r) = none ∧ takeFirst p (l ++ x :: r) = none) ∨
    (takeFirst p (l ++ r) = none ∧ takeFirst p (l ++ x :: r) = some (x, l ++ r)) := by
  cases hl : takeFirst p l with
  | some found =>
    obtain ⟨c, others⟩ := found
    refine .inl ⟨c, others ++ r, c, others ++ x :: r, ?_, ?_, .extra others r x⟩
    · exact takeFirst_append_some hl r
    · exact takeFirst_append_some hl (x :: r)
  | none =>
    rw [takeFirst_append_none hl, takeFirst_append_none hl, takeFirst]
    by_cases hx : p x = true
    · rw [if_pos hx]
      cases hr : takeFirst p r with
      | none => exact .inr (.inr ⟨rfl, rfl⟩)
      | some found =>
        -- the new cleanup is taken, and the one that was taken instead is free now
        obtain ⟨c, others⟩ := found
        obtain ⟨skipped, rest, rfl, rfl, _, _⟩ := takeFirst_some hr
        refine .inl ⟨c, l ++ (skipped ++ rest), x, l ++ (skipped ++ c :: rest), rfl, rfl, ?_⟩
        rw [← List.append_assoc, ← List.append_assoc]
        exact .extra (l ++ skipped) rest c
    · rw [if_neg hx]
      cases hr : takeFirst p r with
      | none => exact .inr (.inl ⟨rfl, rfl⟩)
      | some found =>
        obtain ⟨c, others⟩ := found
        exact .inl ⟨c, l ++ others, c, l ++ x :: others, rfl, rfl, .extra l others x⟩

/-- By induction on the acquisitions, for all pairs of lists that differ by one at most. -/
theorem settle_improves (s : Setting) (as : List Match) {free free' : List Match}
    (h : Spare free free') : Improves (settle s as free) (settle s as free') := by
  induction as generalizing free free' with
  | nil => exact .refl []
  | cons a rest ih =>
    cases h with
    | same => exact .refl _
    | extra l r x =>
      rw [settle, settle]
      split
      · exact (ih (.extra l r x)).cons (.refl _) (gained_self _)
      · rcases takeFirst_spare (s.fits a) l r x with
          ⟨c, others, c', others', hold, hnew, hspare⟩ | ⟨hold, hnew⟩ | ⟨hold, hnew⟩
        · rw [hold, hnew]
          exact (ih hspare).cons (noWorse_of_cleaned _ rfl) rfl
        · rw [hold, hnew]
          have hrel : ((l ++ r).any fun c => unify a.bindings c.bindings) = true →
              ((l ++ x :: r).any fun c => unify a.bindings c.bindings) = true := by
            simp only [List.any_append, List.any_cons, Bool.or_eq_true]
            rintro (h | h)
            · exact .inl h
            · exact .inr (.inr h)
          exact (ih (.extra l r x)).cons (noWorse_of_open hrel) (gained_of_open _ _)
        · rw [hold, hnew]
          exact .cons_self (noWorse_of_cleaned _ rfl) _

/-! ## One more cleanup -/

section More

variable {l r : List Match} {x : Match}

theorem mem_distinctCleanups_insert (hx : ∀ c ∈ l ++ r, c.span ≠ x.span) {c : Match} :
    c ∈ distinctCleanups (l ++ x :: r) ↔ c = x ∨ c ∈ distinctCleanups (l ++ r) := by
  have hmid : ∀ m, m ∈ l ++ x :: r ↔ m = x ∨ m ∈ l ++ r := by
    intro m
    simp only [List.mem_append, List.mem_cons]
    exact or_left_comm
  by_cases hspan : c.span = x.span
  · -- at the span of `x` there is only `x`
    have hold : c ∉ distinctCleanups (l ++ r) :=
      fun hc => hx c (mem_of_mem_distinctCleanups hc) hspan
    constructor
    · intro hc
      rcases (hmid c).1 (mem_of_mem_distinctCleanups hc) with hcx | hc
      · exact .inl hcx
      · exact absurd hspan (hx c hc)
    · rintro (rfl | hc)
      · rw [mem_distinctCleanups]
        constructor
        · rw [List.find?_eq_some_iff_append]
          refine ⟨by simp [sameSite], l, r, rfl, fun m hm => ?_⟩
          have := hx m (List.mem_append_left r hm)
          simp [sameSite, this]
        · intro m hm hmspan
          rcases (hmid m).1 hm with rfl | hm
          · exact Std.ReflCmp.isLE_rfl
          · exact absurd hmspan (hx m hm)
      · exact absurd hc hold
  · -- elsewhere `x` plays no part
    have hcx : c ≠ x := fun h => hspan (congrArg _ h)
    have hxc : x.span ≠ c.span := Ne.symm hspan
    have hfind : (l ++ x :: r).find? (sameSite · c) = (l ++ r).find? (sameSite · c) := by
      have hsite : sameSite x c = false := by simp [sameSite, hxc]
      rw [List.find?_append, List.find?_append, List.find?_cons, hsite]
    rw [mem_distinctCleanups, mem_distinctCleanups, hfind]
    simp only [hcx, false_or]
    refine and_congr_right fun _ => ?_
    simp only [hmid, or_imp, forall_and, forall_eq, hxc, false_imp_iff, true_and]

theorem distinctCleanups_spare (hx : ∀ c ∈ l ++ r, c.span ≠ x.span) :
    Spare (distinctCleanups (l ++ r)) (distinctCleanups (l ++ x :: r)) := by
  have hmem : ∀ c, c ∈ distinctCleanups (l ++ x :: r) ↔ c = x ∨ c ∈ distinctCleanups (l ++ r) :=
    fun c => mem_distinctCleanups_insert hx
  have hxold : x ∉ distinctCleanups (l ++ r) :=
    fun h => hx x (mem_of_mem_distinctCleanups h) rfl
  have hordered := distinctCleanups_ordered (l ++ x :: r)
  obtain ⟨before, after, hsplit⟩ := List.append_of_mem ((hmem x).2 (.inl rfl))
  rw [hsplit] at hordered hmem
  have hxnew : x ∉ before ++ after :=
    (List.nodup_cons.1 (List.perm_middle.nodup_iff.1 (nodup_of_ordered hordered))).1
  have hrest : distinctCleanups (l ++ r) = before ++ after := by
    refine eq_of_ordered (distinctCleanups_ordered _)
      (hordered.sublist ((List.sublist_cons_self x after).append_left before)) fun c => ?_
    by_cases hcx : c = x
    · subst hcx
      simp only [hxold, hxnew]
    · have hc := hmem c
      rw [List.perm_middle.mem_iff, List.mem_cons] at hc
      simpa [hcx] using hc.symm
  rw [hsplit, hrest]
  exact .extra before after x

theorem acquisitionsOf_insert (hrole : x.role = .cleanup) (k : String) :
    acquisitionsOf k (l ++ x :: r) = acquisitionsOf k (l ++ r) := by
  rw [acquisitionsOf, acquisitionsOf, poolOf_insert_of_ne]
  intro _
  rw [hrole]
  decide

theorem resultsOf_insert_of_ne (s : Setting) (hrole : x.role = .cleanup) {k : String}
    (hk : k ≠ x.kind) : resultsOf s k (l ++ x :: r) = resultsOf s k (l ++ r) := by
  rw [resultsOf, resultsOf, acquisitionsOf_insert hrole, cleanupsOf, cleanupsOf,
    poolOf_insert_of_ne]
  exact fun hkind => absurd hkind.symm hk

theorem resultsOf_improves (s : Setting) (hrole : x.role = .cleanup)
    (hspan : ∀ c ∈ l ++ r, c.role = .cleanup → c.kind = x.kind → c.span ≠ x.span) :
    Improves (resultsOf s x.kind (l ++ r)) (resultsOf s x.kind (l ++ x :: r)) := by
  rw [resultsOf, resultsOf, acquisitionsOf_insert hrole]
  apply settle_improves
  have hpool : poolOf x.kind .cleanup (l ++ r) =
      poolOf x.kind .cleanup l ++ poolOf x.kind .cleanup r := by
    simp [poolOf]
  rw [cleanupsOf, cleanupsOf, poolOf_insert l r rfl hrole, hpool]
  apply distinctCleanups_spare
  intro c hc
  rw [← hpool, mem_poolOf] at hc
  exact hspan c hc.1 hc.2.2 hc.2.1

end More

/-- Runs that differ for one kind only. -/
theorem improves_flatMap {old new : String → List Correlation} {ks : List String} (hks : ks.Nodup)
    {k₀ : String} (hsame : ∀ k, k ≠ k₀ → new k = old k) (h : Improves (old k₀) (new k₀)) :
    Improves (ks.flatMap old) (ks.flatMap new) := by
  induction ks with
  | nil => exact .refl []
  | cons k rest ih =>
    obtain ⟨hnot, hrest⟩ := List.nodup_cons.1 hks
    rw [List.flatMap_cons, List.flatMap_cons]
    by_cases hk : k = k₀
    · have hothers : rest.flatMap new = rest.flatMap old := by
        refine List.flatMap_congr fun k' hk' => hsame k' ?_
        rintro rfl
        exact hnot (hk ▸ hk')
      rw [hothers, hk]
      exact h.append_right _
    · rw [hsame k hk]
      exact (ih hrest).append_left _

theorem filter_kind_ne {s : Setting} {k k' : String} {ms : List Match} (hk : k = k') :
    (resultsOf s k ms).filter (·.acquisition.kind != k') = [] := by
  refine List.filter_eq_nil_iff.2 fun r hr => ?_
  simp [(acquisition_mem_pool hr).2.1, hk]

/-- One more cleanup, at a span where its kind has none yet, makes no verdict worse, cleans at
most one more acquisition and leaves the other kinds alone. -/
theorem correlate_add_cleanup (s : Setting) (l r : List Match) (x : Match)
    (hrole : x.role = .cleanup)
    (hspan : ∀ c ∈ l ++ r, c.role = .cleanup → c.kind = x.kind → c.span ≠ x.span) :
    (correlate s (l ++ x :: r)).map (·.acquisition) =
      (correlate s (l ++ r)).map (·.acquisition) ∧
    List.Forall₂ NoWorse (correlate s (l ++ r)) (correlate s (l ++ x :: r)) ∧
    gains (correlate s (l ++ r)) (correlate s (l ++ x :: r)) ≤ 1 ∧
    (correlate s (l ++ x :: r)).filter (·.acquisition.kind != x.kind) =
      (correlate s (l ++ r)).filter (·.acquisition.kind != x.kind) := by
  have hold : correlate s (l ++ r) =
      (kindsOf (l ++ x :: r)).flatMap fun k => resultsOf s k (l ++ r) := by
    refine correlate_eq_flatMap_of_kinds s (kindsOf_ascend _) fun m hm => ?_
    exact mem_kindsOf.2 ⟨m, List.perm_middle.mem_iff.2 (List.mem_cons_of_mem x hm), rfl⟩
  have himproves : Improves (correlate s (l ++ r)) (correlate s (l ++ x :: r)) := by
    rw [hold, correlate_eq_flatMap]
    exact improves_flatMap (kindsOf_nodup _) (fun k hk => resultsOf_insert_of_ne s hrole hk)
      (resultsOf_improves s hrole hspan)
  refine ⟨?_, himproves.results, himproves.gains_le, ?_⟩
  · exact acquisitions_of_noWorse himproves.results
  · rw [hold, correlate_eq_flatMap, List.filter_flatMap, List.filter_flatMap]
    refine List.flatMap_congr fun k _ => ?_
    by_cases hk : k = x.kind
    · rw [filter_kind_ne hk, filter_kind_ne hk]
    · rw [resultsOf_insert_of_ne s hrole hk]

/-! ## Two timers

    t = setInterval(x, 1)
    t = setInterval(y, 2)
    clearInterval(t)
    clearInterval(t)

With the last line alone the first timer is cleaned. The line before it goes to the first timer,
and the last line is free for the second. -/

def timerSetting : Setting where
  rules := [{
    id := "js.timer.interval"
    language := .javascript
    kind := "timer"
    category := "timers"
    severity := .warning
    acquire := [⟨some "$T = setInterval($$$ARGS)", none⟩]
    cleanup := [⟨some "clearInterval($T)", none⟩]
    anchors := ["setInterval"]
    summary := "Interval is never cleared"
    remediation := none
    contexts := [.sameScope] }]
  tree := { scopes := [ScopeTree.module 80], precise := true }
  lifecycle := {}

def timerMatch (role : Role) (start line : Nat) (text : String) : Match where
  ruleId := "js.timer.interval"
  role := role
  kind := "timer"
  path := "file"
  span := ⟨start, start + text.utf8ByteSize⟩
  line := line
  column := 0
  bindings := .ofPairs [("T", "t")]
  text := text
  scope := 0
  position := .plain
  mode := .structural

def firstTimer : Match := timerMatch .acquire 0 1 "t = setInterval(x, 1)"
def secondTimer : Match := timerMatch .acquire 22 2 "t = setInterval(y, 2)"
def earlyClear : Match := timerMatch .cleanup 44 3 "clearInterval(t)"
def lateClear : Match := timerMatch .cleanup 61 4 "clearInterval(t)"

theorem second_timer_gains :
    earlyClear.role = .cleanup ∧
    (∀ c ∈ [firstTimer, secondTimer] ++ [lateClear], c.role = .cleanup →
      c.kind = earlyClear.kind → c.span ≠ earlyClear.span) ∧
    correlate timerSetting ([firstTimer, secondTimer] ++ [lateClear]) =
      [⟨firstTimer, some lateClear, .cleaned⟩, ⟨secondTimer, none, .leaked⟩] ∧
    correlate timerSetting ([firstTimer, secondTimer] ++ earlyClear :: [lateClear]) =
      [⟨firstTimer, some earlyClear, .cleaned⟩, ⟨secondTimer, some lateClear, .cleaned⟩] ∧
    List.Forall₂ NoWorse (correlate timerSetting ([firstTimer, secondTimer] ++ [lateClear]))
      (correlate timerSetting ([firstTimer, secondTimer] ++ earlyClear :: [lateClear])) ∧
    gains (correlate timerSetting ([firstTimer, secondTimer] ++ [lateClear]))
      (correlate timerSetting ([firstTimer, secondTimer] ++ earlyClear :: [lateClear])) ≤ 1 ∧
    (correlate timerSetting ([firstTimer, secondTimer] ++ earlyClear :: [lateClear])).map
        (·.acquisition) =
      (correlate timerSetting ([firstTimer, secondTimer] ++ [lateClear])).map (·.acquisition) ∧
    (correlate timerSetting ([firstTimer, secondTimer] ++ earlyClear :: [lateClear])).filter
        (·.acquisition.kind != earlyClear.kind) =
      (correlate timerSetting ([firstTimer, secondTimer] ++ [lateClear])).filter
        (·.acquisition.kind != earlyClear.kind) := by
  have hspan : ∀ c ∈ [firstTimer, secondTimer] ++ [lateClear], c.role = .cleanup →
      c.kind = earlyClear.kind → c.span ≠ earlyClear.span := by
    decide +kernel
  obtain ⟨hacq, hresults, hgains, hothers⟩ :=
    correlate_add_cleanup timerSetting [firstTimer, secondTimer] [lateClear] earlyClear rfl hspan
  refine ⟨rfl, hspan, ?_, ?_, hresults, hgains, hacq, hothers⟩
  · simp only [correlate, settleKind, outermost, distinctCleanups, sortMatches_eq_insertionSort]
    decide +kernel
  · simp only [correlate, settleKind, outermost, distinctCleanups, sortMatches_eq_insertionSort]
    decide +kernel

end Correlation
end LeakScan
