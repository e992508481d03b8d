import LeakScan.Proofs.Bindings
import LeakScan.Proofs.Outline.Discipline
import LeakScan.Proofs.Outline.Line
import LeakScan.Proofs.Regex.Reads
import LeakScan.Scope.Outline.Indentation

/-!
# LeakScan.Proofs.Outline.Indentation

Indented blocks keep the stack discipline. A line may open a block and hold a lambda as well, and
the lambda then starts later than the block.

* `lineBlock_head`, `lambdaScope?_sound` — a line that opens a block does not start with a lambda.
* `withGuard?_sound` — the resources of a `with` line.
* `IndentState.Sound` — the invariant between two lines; `IndentState.Sound.step` is one line.
* `indentationBlocks_discipline` — all lines.
-/

namespace LeakScan.Scope.Outline

open Text Regex

/-! ## One line -/

/-- A piece that starts with a visible character starts after the leading blanks, or right at the
end of them. -/
theorem visible_stands {cs piece : List Char} {offset : Nat} {c : Char}
    (h : Stands cs offset (c :: piece)) (hc : isBlank c = false) :
    byteSize (cs.takeWhile isBlank) < offset ∨
      byteSize (cs.takeWhile isBlank) = offset ∧ (cs.dropWhile isBlank).head? = some c := by
  obtain ⟨front, back, rfl, rfl⟩ := h
  rw [List.append_assoc, List.takeWhile_append, List.dropWhile_append]
  cases hfront : front.dropWhile isBlank with
  | nil =>
    have hall : front.takeWhile isBlank = front := by
      have hsplit := List.takeWhile_append_dropWhile (p := isBlank) (l := front)
      rwa [hfront, List.append_nil] at hsplit
    right
    simp [hall, hc]
  | cons d rest =>
    left
    have hsplit := List.takeWhile_append_dropWhile (p := isBlank) (l := front)
    have hsize := congrArg byteSize hsplit
    have hlength := congrArg List.length hsplit
    have hpos := d.utf8Size_pos
    rw [hfront] at hsize hlength
    simp only [byteSize_append, byteSize_cons, List.length_append, List.length_cons] at hsize hlength
    rw [if_neg (by omega)]
    omega

theorem lineBlock_head {trimmed : List Char} (h : lineBlock trimmed ≠ .plain) :
    trimmed.head? ≠ some 'l' := by
  have hanchored : ∀ {r : Regex} {m : Match}, 0 < r.least → r.mayStart 'l' = false →
      Matched (.seq (.anchor .textStart) r) trimmed m → trimmed.head? ≠ some 'l' := by
    intro r m hleast hstart hmatched hhead
    obtain ⟨c, hc, hmay⟩ := hmatched.mayStart_head hleast
    rw [hhead] at hc
    cases hc
    rw [hstart] at hmay
    cases hmay
  rw [lineBlock] at h
  split at h
  · rename_i m hm
    exact hanchored (by decide) (by decide +kernel) (matched_find? hm)
  · split at h
    · rename_i m hm
      exact hanchored (by decide) (by decide +kernel) (matched_find? hm)
    · split at h
      · rename_i hfinally
        obtain ⟨rest, hrest⟩ := Option.isSome_iff_exists.1 (Bool.and_eq_true_iff.1 hfinally).1
        rw [stripPrefix?_eq_some_iff.1 hrest]
        simp
      · exact absurd rfl h

theorem lambdaWord_mayStart {c : Char} (h : lambdaWord.mayStart c = true) : c = 'l' := by
  simp [lambdaWord, mayStart, seqs, Regex.text, least, CharClass.contains, CharClass.one, one] at h
  exact Char.toNat_inj.1 (Nat.le_antisymm h.2 h.1)

theorem lambdaScope?_sound {cs : List Char} {l : Line} {r : RawScope}
    (hl : Stands cs l.start l.text) (h : lambdaScope? l = some r) :
    Stretch cs r.span ∧ r.span.stop = l.stop ∧
      (l.bodyStart < r.span.start ∨ l.bodyStart = r.span.start ∧ l.body.head? = some 'l') := by
  rw [lambdaScope?] at h
  split at h
  · cases h
  · rename_i offset hoffset
    cases h
    obtain ⟨m, hm, rfl⟩ := List.mem_map.1 (List.mem_of_find?_eq_some hoffset)
    obtain ⟨c, piece, hpiece, hc⟩ := (matched_findAll hm).first (by decide)
    cases lambdaWord_mayStart hc
    have hstop := hpiece.stop_le
    have hplace := visible_stands hpiece (by decide)
    have hstart : Boundary cs (l.start + m.span.start) := (hl.trans hpiece).start_boundary
    have hpos := byteSize_pos (List.cons_ne_nil 'l' piece)
    have hlt : l.start + m.span.start < l.start + byteSize l.text := by omega
    refine ⟨hstart.stretch hl.stop_boundary hlt, rfl, ?_⟩
    rcases hplace with hlater | ⟨hthere, hhead⟩
    · exact .inl (Nat.add_lt_add_left hlater _)
    · exact .inr ⟨congrArg (l.start + ·) hthere, hhead⟩

theorem withGuard?_sound {cs trimmed : List Char} {start : Nat} {g : Guard}
    (hstands : Stands cs start trimmed) (h : withGuard? start trimmed = some g) :
    Stretch cs g.span := by
  rw [withGuard?] at h
  split at h
  · rename_i m hm
    obtain ⟨items, hitems, rfl⟩ := Option.map_eq_some_iff.1 h
    obtain ⟨piece, n, hpiece, hstop, hleast, hn⟩ := (matched_find? hm).group?_stands hitems
    have hgroups : withLine.groupLeast = [("items", 1)] := by decide
    rw [hgroups, List.mem_singleton] at hleast
    cases hleast
    have hne : piece ≠ [] := List.length_pos_iff.1 hn
    rw [hstop, ← Nat.add_assoc]
    exact (hstands.trans hpiece).stretch hne
  · cases h

/-! ## The pass -/

theorem IndentBlock.closing {cs : List Char} {b : IndentBlock} {stop : Nat}
    (hstart : Boundary cs b.start) (hstop : Boundary cs stop) (hlt : b.start < stop) :
    Closing cs b.start stop (b.close stop) := by
  have hmax : max stop (b.start + 1) = stop := Nat.max_eq_left hlt
  rw [IndentBlock.close, hmax]
  cases b.block with
  | scope => exact ⟨Nat.le_refl 1, by simp, nofun⟩
  | guard => exact ⟨Nat.zero_le 1, nofun, by simpa using hstart.stretch hstop hlt⟩
  | plain => exact ⟨Nat.zero_le 1, nofun, nofun⟩

/-- All blocks and scopes lie before the end of the content. -/
structure IndentState.Sound (cs : List Char) (reach : Nat) (st : IndentState) : Prop where
  content_le : st.contentEnd ≤ reach
  content : Boundary cs st.contentEnd
  discipline : Discipline cs (st.stack.map IndentBlock.start) st.outline st.contentEnd

namespace IndentState.Sound

variable {cs : List Char} {reach : Nat} {st : IndentState} {l : Line}

theorem closeTo (h : Sound cs reach st) (indent : Nat) : Sound cs reach (st.closeTo indent) := by
  refine ⟨h.content_le, h.content, ?_⟩
  have hdiscipline := h.discipline
  rw [← List.takeWhile_append_dropWhile (p := fun b : IndentBlock => decide (indent ≤ b.indent))
    (l := st.stack), List.map_append] at hdiscipline
  refine hdiscipline.closeAll (Nat.le_refl _) h.content fun b hb => ?_
  obtain ⟨hstart, hlt⟩ := hdiscipline.open_sound b.start
    (List.mem_append_left _ (List.mem_map_of_mem hb))
  exact IndentBlock.closing hstart h.content hlt

theorem lambda_later (hblock : lineBlock l.trimmed ≠ .plain) (hne : l.trimmed ≠ [])
    (hl : Stands cs l.start l.text) {r : RawScope} (hr : lambdaScope? l = some r) :
    l.bodyStart < r.span.start := by
  rcases (lambdaScope?_sound hl hr).2.2 with hlater | ⟨-, hhead⟩
  · exact hlater
  · obtain ⟨after, hbody⟩ := l.body_eq
    rw [hbody, List.head?_append_of_ne_nil _ hne] at hhead
    exact absurd hhead (lineBlock_head hblock)

/-- After the statement of a line the discipline reaches no further than to the line's own block,
and a lambda of the line comes later. -/
theorem statement (h : Sound cs reach st) (hl : Stands cs l.start l.text) (hreach : reach ≤ l.start)
    (hne : l.trimmed ≠ []) :
    ∃ here ≤ l.stop, Discipline cs ((st.statement l).stack.map IndentBlock.start)
        (st.statement l).outline here ∧ ∀ r, lambdaScope? l = some r → here ≤ r.span.start := by
  have hclosed := h.closeTo l.indent
  have hbefore := Nat.le_trans hclosed.content_le hreach
  have hbody := l.start_le_bodyStart
  have hlt : l.bodyStart < l.stop := by
    obtain ⟨after, hafter⟩ := l.body_eq
    have hstop := l.bodyStart_add
    have hpos := byteSize_pos hne
    rw [hafter, byteSize_append] at hstop
    omega
  have hguarded : Discipline cs ((st.closeTo l.indent).stack.map IndentBlock.start)
      ((st.closeTo l.indent).outline ++ { guards := (withGuard? l.bodyStart l.trimmed).toList })
      (st.closeTo l.indent).contentEnd := by
    refine hclosed.discipline.leaf (Nat.le_refl _) (fun g hg => ?_) (Nat.zero_le 1) nofun
    exact withGuard?_sound (Line.trimmed_stands hl) (Option.mem_toList.1 hg)
  rw [IndentState.statement]
  simp only
  split
  · refine ⟨_, by omega, hguarded, fun r hr => ?_⟩
    have hlambda := (lambdaScope?_sound hl hr).2.2
    omega
  · rename_i hblock
    have hstart : Boundary cs l.bodyStart := (Line.body_stands hl).start_boundary
    have hpushed := hguarded.push (Nat.le_trans hbefore hbody) hstart
    refine ⟨l.bodyStart + 1, hlt, hpushed, fun r hr => ?_⟩
    exact lambda_later (fun hplain => hblock (by simp [hplain])) hne hl hr

theorem step (h : Sound cs reach st) (hl : Stands cs l.start l.text) (hreach : reach ≤ l.start) :
    Sound cs l.stop (st.step l) := by
  have hstop : Boundary cs l.stop := hl.stop_boundary
  have hle : l.start ≤ l.stop := Nat.le_add_right _ _
  have hcontent := h.content_le
  rw [IndentState.step]
  split
  · exact ⟨Nat.le_refl _, hstop, h.discipline.advance (by simp only; omega)⟩
  split
  · exact ⟨by omega, h.content, h.discipline⟩
  rename_i hcode
  have hne : l.trimmed ≠ [] := by
    intro hnil
    simp [hnil] at hcode
  -- the lambda of the line is a leaf after whatever the line has opened
  have hlambda : ∀ (st' : IndentState) (here : Nat), here ≤ l.stop →
      Discipline cs (st'.stack.map IndentBlock.start) st'.outline here →
      (∀ r, lambdaScope? l = some r → here ≤ r.span.start) →
      Discipline cs (st'.stack.map IndentBlock.start)
        (st'.outline ++ { scopes := (lambdaScope? l).toList }) l.stop := by
    intro st' here hhere hdiscipline hlater
    refine hdiscipline.leaf hhere nofun Option.length_toList_le fun r hr => ?_
    obtain ⟨hstretch, hrstop, -⟩ := lambdaScope?_sound hl (Option.mem_toList.1 hr)
    exact ⟨hstretch, hlater r (Option.mem_toList.1 hr), Nat.le_of_eq hrstop⟩
  refine ⟨Nat.le_refl _, hstop, ?_⟩
  split
  · obtain ⟨here, hhere, hdiscipline, hlater⟩ := h.statement hl hreach hne
    exact hlambda (st.statement l) here hhere hdiscipline hlater
  · refine hlambda st st.contentEnd (by omega) h.discipline fun r hr => ?_
    have hplace := (lambdaScope?_sound hl hr).2.2
    have hbody := l.start_le_bodyStart
    omega

theorem finish (h : Sound cs reach st) (hreach : reach ≤ byteSize cs) :
    Discipline cs [] (st.finish (byteSize cs)) (byteSize cs) := by
  have hdiscipline := h.discipline.advance (Nat.le_trans h.content_le hreach)
  rw [← List.append_nil (st.stack.map IndentBlock.start)] at hdiscipline
  refine hdiscipline.closeAll (Nat.le_refl _) (boundary_byteSize cs) fun b hb => ?_
  obtain ⟨hstart, hlt⟩ := hdiscipline.open_sound b.start
    (List.mem_append_left _ (List.mem_map_of_mem hb))
  exact IndentBlock.closing hstart (boundary_byteSize cs) hlt

end IndentState.Sound

theorem indentationBlocks_discipline (cs : List Char) :
    Discipline cs [] (indentationBlocks (linesOf cs) (byteSize cs)) (byteSize cs) := by
  have hstart : IndentState.Sound cs 0 {} := ⟨Nat.le_refl 0, boundary_zero cs, .start cs⟩
  obtain ⟨reach, hreach, hsound⟩ :=
    linesOf_run (fun _ _ _ hl hle h => IndentState.Sound.step h hl hle) hstart
  exact hsound.finish hreach

end LeakScan.Scope.Outline
