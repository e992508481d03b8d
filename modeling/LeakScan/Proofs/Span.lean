import LeakScan.Text.Span

/-!
# LeakScan.Proofs.Span

Containment and disjointness of spans.

* `covers_iff`, `covers_trans` — a span inside another.
* `Apart` — spans that share no offset. Parts of them share none either.
* `Fits` — spans of which one lies inside the other, or that are apart.
-/

namespace LeakScan.Text.Span

theorem holds_iff {s : Span} {offset : Nat} :
    s.holds offset = true ↔ s.start ≤ offset ∧ offset < s.stop := by
  simp [holds]

theorem covers_iff {outer inner : Span} :
    outer.covers inner = true ↔ outer.start ≤ inner.start ∧ inner.stop ≤ outer.stop := by
  simp [covers]

theorem covers_trans {s t u : Span} (hst : s.covers t = true) (htu : t.covers u = true) :
    s.covers u = true := by
  rw [covers_iff] at *
  omega

/-- No offset lies in both spans. -/
def Apart (s t : Span) : Prop := ∀ offset, ¬(s.holds offset = true ∧ t.holds offset = true)

theorem apart_of_stop_le {s t : Span} (h : s.stop ≤ t.start) : s.Apart t := by
  intro offset ⟨hs, ht⟩
  rw [holds_iff] at hs ht
  omega

theorem Apart.symm {s t : Span} (h : s.Apart t) : t.Apart s :=
  fun offset hboth => h offset hboth.symm

theorem Apart.inner {s t u : Span} (h : s.Apart t) (hcovers : t.covers u = true) : s.Apart u := by
  intro offset ⟨hs, hu⟩
  refine h offset ⟨hs, ?_⟩
  rw [holds_iff] at hu ⊢
  rw [covers_iff] at hcovers
  omega

/-- One of the spans lies inside the other, or they are apart. -/
def Fits (s t : Span) : Prop := s.covers t = true ∨ t.covers s = true ∨ s.Apart t

theorem Fits.symm {s t : Span} (h : s.Fits t) : t.Fits s := by
  rcases h with hcovers | hcovered | hapart
  · exact .inr (.inl hcovers)
  · exact .inl hcovered
  · exact .inr (.inr hapart.symm)

end LeakScan.Text.Span
