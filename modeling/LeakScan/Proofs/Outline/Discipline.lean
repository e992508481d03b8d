import LeakScan.Proofs.Span
import LeakScan.Proofs.Text.Offset
import LeakScan.Scope.Skeleton

/-!
# LeakScan.Proofs.Outline.Discipline

The stack discipline that all outlines keep, whatever delimits their blocks. Blocks open where the
pass stands, and the innermost one closes first.

* `Discipline cs opened outline reach` — the invariant: `opened` holds the starts of the open blocks,
  innermost first, `outline` what has been closed, and nothing lies beyond `reach`.
* `Discipline.push`, `Discipline.close`, `Discipline.leaf` — a block opens, the innermost block
  closes, a block of its own opens and closes at once.
* `Discipline.closeAll` — blocks that all close at one offset.
-/

namespace LeakScan.Scope.Outline

open Text

@[simp] theorem scopes_append (a b : Skeleton) : (a ++ b).scopes = a.scopes ++ b.scopes := rfl

@[simp] theorem guards_append (a b : Skeleton) : (a ++ b).guards = a.guards ++ b.guards := rfl

structure Discipline (cs : List Char) (opened : List Nat) (outline : Skeleton) (reach : Nat) :
    Prop where
  falls : opened.Pairwise fun inner outer => outer < inner
  open_sound : ∀ o ∈ opened, Boundary cs o ∧ o < reach
  scope_sound : ∀ r ∈ outline.scopes, Stretch cs r.span ∧ r.span.stop ≤ reach
  guard_sound : ∀ g ∈ outline.guards, Stretch cs g.span
  fits : outline.scopes.Pairwise fun a b => a.span ≠ b.span ∧ a.span.Fits b.span
  /-- A closed scope ends before an open block starts, or lies inside it. -/
  clear : ∀ o ∈ opened, ∀ r ∈ outline.scopes, r.span.stop ≤ o ∨ o < r.span.start

/-- What a block from `start` to `stop` may add when it closes: itself, and guards. -/
structure Closing (cs : List Char) (start stop : Nat) (more : Skeleton) : Prop where
  one : more.scopes.length ≤ 1
  span : ∀ r ∈ more.scopes, r.span = ⟨start, stop⟩
  guards : ∀ g ∈ more.guards, Stretch cs g.span

namespace Discipline

variable {cs : List Char} {opened : List Nat} {outline more : Skeleton} {reach o stop : Nat}

theorem start (cs : List Char) : Discipline cs [] {} 0 := by
  constructor <;> simp

theorem advance (h : Discipline cs opened outline reach) (hreach : reach ≤ stop) :
    Discipline cs opened outline stop where
  falls := h.falls
  open_sound o ho := ⟨(h.open_sound o ho).1, Nat.lt_of_lt_of_le (h.open_sound o ho).2 hreach⟩
  scope_sound r hr := ⟨(h.scope_sound r hr).1, Nat.le_trans (h.scope_sound r hr).2 hreach⟩
  guard_sound := h.guard_sound
  fits := h.fits
  clear := h.clear

theorem push (h : Discipline cs opened outline reach) (hreach : reach ≤ o) (ho : Boundary cs o) :
    Discipline cs (o :: opened) outline (o + 1) := by
  have hnext := h.advance (Nat.le_succ_of_le hreach)
  refine ⟨?_, ?_, hnext.scope_sound, h.guard_sound, h.fits, ?_⟩
  · refine List.pairwise_cons.2 ⟨fun p hp => ?_, h.falls⟩
    exact Nat.lt_of_lt_of_le (h.open_sound p hp).2 hreach
  · intro p hp
    rcases List.mem_cons.1 hp with rfl | hp
    · exact ⟨ho, Nat.lt_succ_self p⟩
    · exact hnext.open_sound p hp
  · intro p hp r hr
    rcases List.mem_cons.1 hp with rfl | hp
    · exact .inl (Nat.le_trans (h.scope_sound r hr).2 hreach)
    · exact h.clear p hp r hr

/-- At most one new scope, which fits the closed ones and lies inside the open ones. -/
theorem add (h : Discipline cs opened outline reach) (hreach : reach ≤ stop)
    (hguards : ∀ g ∈ more.guards, Stretch cs g.span) (hone : more.scopes.length ≤ 1)
    (hscopes : ∀ r ∈ more.scopes, Stretch cs r.span ∧ r.span.stop ≤ stop ∧
      (∀ q ∈ outline.scopes, q.span ≠ r.span ∧ q.span.Fits r.span) ∧
      ∀ o ∈ opened, o < r.span.start) :
    Discipline cs opened (outline ++ more) stop := by
  have hnext := h.advance hreach
  refine ⟨h.falls, hnext.open_sound, ?_, ?_, ?_, ?_⟩
  · intro r hr
    rcases List.mem_append.1 hr with hr | hr
    · exact hnext.scope_sound r hr
    · exact ⟨(hscopes r hr).1, (hscopes r hr).2.1⟩
  · intro g hg
    rcases List.mem_append.1 hg with hg | hg
    · exact h.guard_sound g hg
    · exact hguards g hg
  · refine List.pairwise_append.2 ⟨h.fits, ?_, fun q hq r hr => (hscopes r hr).2.2.1 q hq⟩
    match more.scopes, hone with
    | [], _ => exact .nil
    | [r], _ => exact List.pairwise_singleton _ r
  · intro p hp r hr
    rcases List.mem_append.1 hr with hr | hr
    · exact h.clear p hp r hr
    · exact .inr ((hscopes r hr).2.2.2 p hp)

theorem pop (h : Discipline cs (o :: opened) outline reach) :
    Discipline cs opened outline reach where
  falls := (List.pairwise_cons.1 h.falls).2
  open_sound p hp := h.open_sound p (List.mem_cons_of_mem o hp)
  scope_sound := h.scope_sound
  guard_sound := h.guard_sound
  fits := h.fits
  clear p hp := h.clear p (List.mem_cons_of_mem o hp)

/-- The closed scopes stand before the block that closes now, or inside it. -/
theorem close (h : Discipline cs (o :: opened) outline reach) (hreach : reach ≤ stop)
    (hstop : Boundary cs stop) (hmore : Closing cs o stop more) :
    Discipline cs opened (outline ++ more) stop := by
  obtain ⟨ho, hlt⟩ := h.open_sound o List.mem_cons_self
  refine h.pop.add hreach hmore.guards hmore.one fun r hr => ?_
  rw [hmore.span r hr]
  refine ⟨ho.stretch hstop (Nat.lt_of_lt_of_le hlt hreach), Nat.le_refl stop, ?_, ?_⟩
  · intro q hq
    obtain ⟨hstretch, hqstop⟩ := h.scope_sound q hq
    have hnonempty := hstretch.nonempty
    have hclear := h.clear o List.mem_cons_self q hq
    constructor
    · intro heq
      have hsame : q.span.start = o := congrArg Span.start heq
      omega
    · rcases hclear with hbefore | hinside
      · exact .inr (.inr (Span.apart_of_stop_le hbefore))
      · refine .inr (.inl (Span.covers_iff.2 ⟨Nat.le_of_lt hinside, ?_⟩))
        exact Nat.le_trans hqstop hreach
  · exact (List.pairwise_cons.1 h.falls).1

theorem closeAll {β : Type} {start : β → Nat} {add : β → Skeleton} {blocks : List β}
    (h : Discipline cs (blocks.map start ++ opened) outline reach) (hreach : reach ≤ stop)
    (hstop : Boundary cs stop) (hblocks : ∀ b ∈ blocks, Closing cs (start b) stop (add b)) :
    Discipline cs opened (blocks.foldl (fun acc b => acc ++ add b) outline) stop := by
  induction blocks generalizing outline reach with
  | nil => exact h.advance hreach
  | cons b rest ih =>
    have hfirst := h.close hreach hstop (hblocks b List.mem_cons_self)
    exact ih hfirst (Nat.le_refl stop) fun b' hb' => hblocks b' (List.mem_cons_of_mem b hb')

/-- A scope that opens and closes at once, after all that is closed and inside all that is open. -/
theorem leaf (h : Discipline cs opened outline reach) (hreach : reach ≤ stop)
    (hguards : ∀ g ∈ more.guards, Stretch cs g.span) (hone : more.scopes.length ≤ 1)
    (hscopes : ∀ r ∈ more.scopes, Stretch cs r.span ∧ reach ≤ r.span.start ∧
      r.span.stop ≤ stop) :
    Discipline cs opened (outline ++ more) stop := by
  refine h.add hreach hguards hone fun r hr => ?_
  obtain ⟨hstretch, hstart, hrstop⟩ := hscopes r hr
  refine ⟨hstretch, hrstop, ?_, ?_⟩
  · intro q hq
    obtain ⟨hqstretch, hqstop⟩ := h.scope_sound q hq
    have hnonempty := hqstretch.nonempty
    refine ⟨fun heq => ?_, .inr (.inr (Span.apart_of_stop_le (Nat.le_trans hqstop hstart)))⟩
    rw [heq] at hnonempty hqstop
    omega
  · intro p hp
    exact Nat.lt_of_lt_of_le (h.open_sound p hp).2 hstart

end Discipline

end LeakScan.Scope.Outline
