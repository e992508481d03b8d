import LeakScan.Proofs.Outline.Discipline
import LeakScan.Proofs.Outline.Line
import LeakScan.Scope.Outline.Keywords

/-!
# LeakScan.Proofs.Outline.Keywords

Keywords and `end` keep the stack discipline, whether or not they pair.

* `KeywordState.Sound` — the invariant between two lines; `KeywordState.Sound.step` is one line.
* `keywordBlocks_discipline` — all lines.
-/

namespace LeakScan.Scope.Outline

open Text

theorem beforeComment_prefix (cs : List Char) : beforeComment cs <+: cs := by
  induction cs with
  | nil => exact List.prefix_refl []
  | cons c cs ih =>
    rw [beforeComment]
    split
    · exact List.nil_prefix
    · exact List.cons_prefix_cons.2 ⟨rfl, ih⟩

theorem body_ne_nil_of_beforeComment {l : Line} (h : trim (beforeComment l.text) ≠ []) :
    l.body ≠ [] := by
  obtain ⟨rest, hrest⟩ := beforeComment_prefix l.text
  intro hnil
  refine h ?_
  rw [Line.body, trimStart, ← hrest, List.dropWhile_append] at hnil
  split at hnil
  · rename_i hblank
    rw [trim, List.isEmpty_iff.1 hblank]
    rfl
  · rw [trim, (List.append_eq_nil_iff.1 hnil).1]
    rfl

/-- An `ensure` stands before `reach`. -/
def KeywordBlock.Sound (cs : List Char) (reach : Nat) (b : KeywordBlock) : Prop :=
  ∀ start, b.ensure = some start → Boundary cs start ∧ start < reach

theorem KeywordBlock.Sound.closing {cs : List Char} {stop : Nat} {b : KeywordBlock}
    (h : b.Sound cs stop) (hstop : Boundary cs stop) : Closing cs b.start stop (b.close stop) := by
  have hscopes : (b.close stop).scopes.length ≤ 1 ∧
      ∀ r ∈ (b.close stop).scopes, r.span = ⟨b.start, stop⟩ := by
    rw [KeywordBlock.close]
    cases b.block <;> simp
  refine ⟨hscopes.1, hscopes.2, fun g hg => ?_⟩
  obtain ⟨start, hstart, rfl⟩ := List.mem_map.1 hg
  obtain ⟨hboundary, hlt⟩ := h start (Option.mem_toList.1 hstart)
  exact hboundary.stretch hstop hlt

structure KeywordState.Sound (cs : List Char) (reach : Nat) (st : KeywordState) : Prop where
  blocks : ∀ b ∈ st.stack, b.Sound cs reach
  discipline : Discipline cs (st.stack.map KeywordBlock.start) st.outline reach

namespace KeywordState.Sound

variable {cs : List Char} {reach stop : Nat} {st : KeywordState} {l : Line}

theorem advance (h : Sound cs reach st) (hreach : reach ≤ stop) : Sound cs stop st where
  blocks b hb start hstart :=
    ⟨(h.blocks b hb start hstart).1, Nat.lt_of_lt_of_le (h.blocks b hb start hstart).2 hreach⟩
  discipline := h.discipline.advance hreach

theorem close (h : Sound cs reach st) (hreach : reach ≤ stop) (hstop : Boundary cs stop) :
    Sound cs stop (st.close stop) := by
  have hnext := h.advance hreach
  rw [KeywordState.close]
  split
  · exact hnext
  · rename_i top below hstack
    obtain ⟨hblocks, hdiscipline⟩ := hnext
    rw [hstack] at hblocks hdiscipline
    exact ⟨fun b hb => hblocks b (List.mem_cons_of_mem top hb),
      hdiscipline.close (Nat.le_refl _) hstop
        ((hblocks top List.mem_cons_self).closing hstop)⟩

/-- The innermost block gets an `ensure`. -/
theorem guard {top : KeywordBlock} {below : List KeywordBlock} {start : Nat}
    (h : Sound cs reach st) (hstack : st.stack = top :: below) (hstart : Boundary cs start)
    (hlt : start < reach) :
    Sound cs reach { st with stack := { top with ensure := some start } :: below } := by
  obtain ⟨hblocks, hdiscipline⟩ := h
  rw [hstack] at hblocks hdiscipline
  refine ⟨fun b hb => ?_, hdiscipline⟩
  rcases List.mem_cons.1 hb with rfl | hb
  · rintro _ ⟨⟩
    exact ⟨hstart, hlt⟩
  · exact hblocks b (List.mem_cons_of_mem top hb)

theorem step (h : Sound cs reach st) (hl : Stands cs l.start l.text) (hreach : reach ≤ l.start) :
    Sound cs l.stop (st.step l) := by
  have hstart : Boundary cs l.bodyStart := (Line.body_stands hl).start_boundary
  have hstop : Boundary cs l.stop := hl.stop_boundary
  have hbefore : reach ≤ l.bodyStart := Nat.le_trans hreach l.start_le_bodyStart
  have hbody := l.bodyStart_add
  rw [KeywordState.step]
  simp only
  split
  · exact h.advance (by omega)
  rename_i hcontent
  have hlt : l.bodyStart < l.stop := by
    have hne : trim (beforeComment l.text) ≠ [] := by
      intro hnil
      simp [hnil] at hcontent
    have hpos := byteSize_pos (body_ne_nil_of_beforeComment hne)
    omega
  have hnext := h.advance (Nat.le_trans hbefore (Nat.le_of_lt hlt))
  split
  · split
    · exact hnext
    · rename_i top below hstack
      exact hnext.guard hstack hstart hlt
  split
  · exact h.close (by omega) hstop
  split
  · exact hnext
  rename_i block hopens
  have hnew : ∀ reach, KeywordBlock.Sound cs reach { start := l.bodyStart, block := block } := nofun
  split
  · refine ⟨hnext.blocks, h.discipline.leaf (by omega) ?_ ?_ ?_⟩
    · exact ((hnew l.stop).closing hstop).guards
    · exact ((hnew l.stop).closing hstop).one
    · intro r hr
      rw [((hnew l.stop).closing hstop).span r hr]
      exact ⟨hstart.stretch hstop hlt, hbefore, Nat.le_refl _⟩
  · refine ⟨fun b hb => ?_, (h.discipline.push hbefore hstart).advance hlt⟩
    rcases List.mem_cons.1 hb with rfl | hb
    · exact hnew l.stop
    · exact hnext.blocks b hb

theorem finish (h : Sound cs reach st) (hreach : reach ≤ byteSize cs) :
    Discipline cs [] (st.finish (byteSize cs)) (byteSize cs) := by
  have hnext := h.advance hreach
  have hdiscipline := hnext.discipline
  rw [← List.append_nil (st.stack.map KeywordBlock.start)] at hdiscipline
  exact hdiscipline.closeAll (Nat.le_refl _) (boundary_byteSize cs) fun b hb =>
    (hnext.blocks b hb).closing (boundary_byteSize cs)

end KeywordState.Sound

theorem keywordBlocks_discipline (cs : List Char) :
    Discipline cs [] (keywordBlocks (linesOf cs) (byteSize cs)) (byteSize cs) := by
  have hstart : KeywordState.Sound cs 0 {} := ⟨nofun, .start cs⟩
  obtain ⟨reach, hreach, hsound⟩ :=
    linesOf_run (fun _ _ _ hl hle h => KeywordState.Sound.step h hl hle) hstart
  exact hsound.finish hreach

end LeakScan.Scope.Outline
