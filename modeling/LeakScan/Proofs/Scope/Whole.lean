import LeakScan.Proofs.Scope.Nesting
import LeakScan.Proofs.Text.Offset

/-!
# LeakScan.Proofs.Scope.Whole

Building a tree loses nothing of a skeleton that is properly nested.

* `Proper` — a skeleton whose stretches lie in the text and whose scopes are distinct and fit.
* `ordered_perm` — no scope is left out, and none counts as a repeat.
* `Sound.foldl_whole` — no scope is cut off.
* `Kept`, `Proper.kept` — one scope of the tree for each of the skeleton, below the whole file.
-/

namespace LeakScan
namespace ScopeTree

open Scope Text

/-- Stretches of the text, and scopes of which no two cross or are the same. -/
structure Proper (cs : List Char) (skeleton : Skeleton) : Prop where
  scopes : ∀ r ∈ skeleton.scopes, Stretch cs r.span
  guards : ∀ g ∈ skeleton.guards, Stretch cs g.span
  nested : skeleton.scopes.Pairwise fun a b => a.span ≠ b.span ∧ a.span.Fits b.span

/-- The tree holds the whole file, each scope of the skeleton once with its own span, and each
guard. -/
structure Kept (textSize : Nat) (skeleton : Skeleton) (t : ScopeTree) : Prop where
  scopes : ∃ inner, t.scopes = module textSize :: inner ∧
    (inner.map (·.span)).Perm (skeleton.scopes.map (·.span))
  guards : t.guards.map Prod.fst = skeleton.guards

/-! ## Order of placing -/

theorem dropRepeats_eq {last : Span} {l : List RawScope} (hlast : ∀ r ∈ l, r.span ≠ last)
    (h : l.Pairwise fun a b => a.span ≠ b.span) : dropRepeats last l = l := by
  induction l generalizing last with
  | nil => rfl
  | cons r rest ih =>
    obtain ⟨hfirst, hrest⟩ := List.pairwise_cons.1 h
    have hne : r.span ≠ last := hlast r List.mem_cons_self
    rw [dropRepeats, if_neg (by simpa using hne),
      ih (fun q hq => (hfirst q hq).symm) hrest]

theorem dedupSpans_eq {l : List RawScope} (h : l.Pairwise fun a b => a.span ≠ b.span) :
    dedupSpans l = l := by
  cases l with
  | nil => rfl
  | cons r rest =>
    obtain ⟨hfirst, hrest⟩ := List.pairwise_cons.1 h
    rw [dedupSpans, dropRepeats_eq (fun q hq => (hfirst q hq).symm) hrest]

theorem ordered_perm {textSize : Nat} {scopes : List RawScope}
    (hplaceable : ∀ r ∈ scopes, isPlaceable textSize r = true)
    (hdistinct : scopes.Pairwise fun a b => a.span ≠ b.span) :
    (ordered textSize scopes).Perm scopes := by
  have hsort := List.mergeSort_perm scopes fun a b => outerFirst a.span b.span
  rw [ordered, List.filter_eq_self.2 hplaceable,
    dedupSpans_eq (hsort.symm.pairwise hdistinct fun h => Ne.symm h)]
  exact hsort

/-! ## Placing -/

/-- In the order of placing, a scope that starts inside an earlier one also ends there. -/
theorem stop_le_of_holds {s t : Span} (hfits : s.Fits t) (hordered : outerFirst s t = true)
    (hholds : s.holds t.start = true) : t.stop ≤ s.stop := by
  simp only [outerFirst, Bool.or_eq_true, Bool.and_eq_true, decide_eq_true_eq, beq_iff_eq]
    at hordered
  have hstart := Span.holds_iff.1 hholds
  rcases hfits with hcovers | hcovered | hapart
  · exact (Span.covers_iff.1 hcovers).2
  · have := (Span.covers_iff.1 hcovered).1
    omega
  · by_contra hlt
    exact hapart t.start ⟨hholds, Span.holds_iff.2 ⟨Nat.le_refl _, by omega⟩⟩

/-- By induction on the scopes still to place. `hwhole` says that none of them reaches over the end
of a placed one. -/
theorem Sound.foldl_whole (lifecycle : Lifecycle) {textSize reached : Nat} {n : Nesting}
    (rs : List RawScope) (h : Sound textSize reached n)
    (hordered : rs.Pairwise fun a b => outerFirst a.span b.span = true ∧ a.span.Fits b.span)
    (hstart : ∀ r ∈ rs, reached ≤ r.span.start)
    (hplaceable : ∀ r ∈ rs, r.span.start < r.span.stop ∧ r.span.stop ≤ textSize)
    (hwhole : ∀ s ∈ n.placed, ∀ r ∈ rs, s.span.holds r.span.start = true →
      r.span.stop ≤ s.span.stop) :
    ∃ news, (rs.foldl (Nesting.place lifecycle) n).placed = news ++ n.placed ∧
      news.map (·.span) = (rs.map (·.span)).reverse := by
  induction rs generalizing reached n with
  | nil => exact ⟨[], rfl, rfl⟩
  | cons r rest ih =>
    obtain ⟨hfirst, hrest⟩ := List.pairwise_cons.1 hordered
    obtain ⟨hne, hsize⟩ := hplaceable r List.mem_cons_self
    have hnext := hstart r List.mem_cons_self
    have hlt : r.span.start < textSize := Nat.lt_of_lt_of_le hne hsize
    obtain ⟨_, parent, _, _, _, hp, hholds, hplace⟩ := h.opens lifecycle hnext hlt
    have hspan : (opened lifecycle n.placed.length parent r).span = r.span := by
      have hstop := hwhole parent hp r List.mem_cons_self hholds
      simp only [opened, Nat.min_eq_left hstop]
    have hsound := h.place lifecycle hnext hne hsize
    have hstarts : ∀ q ∈ rest, r.span.start ≤ q.span.start :=
      fun q hq => start_le_of_outerFirst (hfirst q hq).1
    have hwhole' : ∀ s ∈ (n.place lifecycle r).placed, ∀ q ∈ rest,
        s.span.holds q.span.start = true → q.span.stop ≤ s.span.stop := by
      intro s hs q hq hinside
      rw [hplace] at hs
      rcases List.mem_cons.1 hs with rfl | hs
      · rw [hspan] at hinside ⊢
        exact stop_le_of_holds (hfirst q hq).2 (hfirst q hq).1 hinside
      · exact hwhole s hs q (List.mem_cons_of_mem r hq) hinside
    obtain ⟨news, hplaced, hspans⟩ := ih hsound hrest hstarts
      (fun q hq => hplaceable q (List.mem_cons_of_mem r hq)) hwhole'
    refine ⟨news ++ [opened lifecycle n.placed.length parent r], ?_, ?_⟩
    · rw [List.foldl_cons, hplaced, hplace, List.append_assoc]
      rfl
    · rw [List.map_append, hspans, List.map_singleton, hspan, List.map_cons, List.reverse_cons]

theorem Proper.kept {cs : List Char} {skeleton : Skeleton} (h : Proper cs skeleton)
    (precise : Bool) (lifecycle : Lifecycle) :
    Kept (byteSize cs) skeleton (build skeleton (byteSize cs) precise lifecycle) := by
  have hplaceable : ∀ r ∈ skeleton.scopes, isPlaceable (byteSize cs) r = true := by
    intro r hr
    simpa [isPlaceable] using And.intro (h.scopes r hr).nonempty (h.scopes r hr).inside
  have hperm := ordered_perm hplaceable (h.nested.imp And.left)
  have hfits : (ordered (byteSize cs) skeleton.scopes).Pairwise fun a b =>
      outerFirst a.span b.span = true ∧ a.span.Fits b.span :=
    (ordered_outerFirst (byteSize cs) skeleton.scopes).and
      (hperm.symm.pairwise (h.nested.imp And.right) fun hf => hf.symm)
  have hroot : ∀ s ∈ [module (byteSize cs)], ∀ r ∈ ordered (byteSize cs) skeleton.scopes,
      s.span.holds r.span.start = true → r.span.stop ≤ s.span.stop := by
    intro s hs r hr _
    rw [List.mem_singleton.1 hs]
    exact (placeable_of_mem_ordered hr).2
  obtain ⟨news, hplaced, hspans⟩ := (sound_start (byteSize cs)).foldl_whole lifecycle
    (ordered (byteSize cs) skeleton.scopes) hfits (fun _ _ => Nat.zero_le _)
    (fun _ => placeable_of_mem_ordered) hroot
  have hnest : nest lifecycle (byteSize cs) skeleton.scopes =
      module (byteSize cs) :: news.reverse := by
    rw [nest, hplaced, List.reverse_append]
    rfl
  have hguards : skeleton.guards.filter (fun g => g.span.start < g.span.stop) = skeleton.guards :=
    List.filter_eq_self.2 fun g hg => decide_eq_true (h.guards g hg).nonempty
  constructor
  · simp only [build, hnest, List.map_cons]
    refine ⟨_, rfl, ?_⟩
    rw [List.map_map]
    have hsame : (news.reverse.map fun s => s.span) =
        (ordered (byteSize cs) skeleton.scopes).map (·.span) := by
      rw [List.map_reverse, hspans, List.reverse_reverse]
    exact (List.Perm.of_eq hsame).trans (hperm.map _)
  · simp only [build, hguards, List.map_map]
    exact List.map_id _

end ScopeTree
end LeakScan
