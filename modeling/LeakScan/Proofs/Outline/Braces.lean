import LeakScan.Proofs.Bindings
import LeakScan.Proofs.Outline.Discipline
import LeakScan.Scope.Outline.Braces

/-!
# LeakScan.Proofs.Outline.Braces

Braces keep the stack discipline, balanced or not.

* `lexemes_chars` — cutting a text into lexemes loses nothing.
* `lastSegment_stands`, `classify_side` — the header of a block and the guard it brings along lie in
  the text before its brace.
* `BraceState.Sound` — the invariant of the pass, with the text that is still to be read;
  `BraceState.Sound.step` keeps it and `BraceState.sound_run` carries it through the text.
* `braceBlocks_discipline` — the whole outline.
-/

namespace LeakScan.Scope.Outline

open Text

/-! ## Lexemes -/

theorem stringRest_append (quote : Char) (cs : List Char) :
    (stringRest quote cs).1 ++ (stringRest quote cs).2 = cs := by
  fun_induction stringRest quote cs <;> simp_all

theorem through_append (mark cs : List Char) : (through mark cs).1 ++ (through mark cs).2 = cs := by
  fun_induction through mark cs with
  | case1 => rfl
  | case2 c cs rest hrest => exact (stripPrefix?_eq_some_iff.1 hrest).symm
  | case3 c cs hnone taken rest hthrough ih =>
    rw [hthrough] at ih
    rw [← ih]
    rfl

theorem restOfLine_append (cs : List Char) : (restOfLine cs).1 ++ (restOfLine cs).2 = cs :=
  List.takeWhile_append_dropWhile

theorem longLexeme?_splits {directives blankSoFar : Bool} {cs rest : List Char} {l : Lexeme} :
    longLexeme? directives blankSoFar cs = some (l, rest) → cs = l.chars ++ rest ∧ l.chars ≠ [] := by
  fun_cases longLexeme? directives blankSoFar cs with
  | case1 cs taken back hcut =>
    rintro ⟨⟩
    have hback := through_append ['"', '"', '"'] cs
    rw [hcut] at hback
    exact ⟨by rw [← hback]; rfl, List.cons_ne_nil _ _⟩
  | case2 cs taken back hcut =>
    rintro ⟨⟩
    have hback := restOfLine_append cs
    rw [hcut] at hback
    exact ⟨by rw [← hback]; rfl, List.cons_ne_nil _ _⟩
  | case3 cs taken back hcut =>
    rintro ⟨⟩
    have hback := through_append ['*', '/'] cs
    rw [hcut] at hback
    exact ⟨by rw [← hback]; rfl, List.cons_ne_nil _ _⟩
  | case4 c cs _ _ _ hquote taken back hcut =>
    rintro ⟨⟩
    have hback := stringRest_append c cs
    rw [hcut] at hback
    exact ⟨by rw [← hback]; rfl, List.cons_ne_nil _ _⟩
  | case5 c cs _ _ _ _ hdirective taken back hcut =>
    rintro ⟨⟩
    have hback := restOfLine_append cs
    rw [hcut] at hback
    exact ⟨by rw [← hback]; rfl, List.cons_ne_nil _ _⟩
  | case6 => exact nofun
  | case7 => exact nofun

theorem lexemesFrom_chars {directives blankSoFar : Bool} {fuel : Nat} {cs : List Char}
    (h : cs.length ≤ fuel) :
    (lexemesFrom directives fuel blankSoFar cs).flatMap Lexeme.chars = cs := by
  fun_induction lexemesFrom directives fuel blankSoFar cs with
  | case1 _ cs =>
    rw [List.length_eq_zero_iff.1 (Nat.le_zero.1 h)]
    rfl
  | case2 => rfl
  | case3 fuel blankSoFar c cs l rest hlong ih =>
    obtain ⟨hsplit, hne⟩ := longLexeme?_splits hlong
    have hlength := congrArg List.length hsplit
    have hpos := List.length_pos_iff.2 hne
    rw [List.length_append] at hlength
    rw [List.flatMap_cons, ih (by omega), hsplit]
  | case4 fuel blankSoFar c cs hnone blank ih =>
    rw [List.length_cons] at h
    rw [List.flatMap_cons, ih (by omega)]
    rfl

theorem lexemes_chars (language : Language) (cs : List Char) :
    (lexemes language cs).flatMap Lexeme.chars = cs :=
  lexemesFrom_chars (Nat.le_refl _)

/-! ## Headers -/

theorem cutLines_flatten (depth : Int) (cs : List Char) : (cutLines depth cs).flatten = cs := by
  fun_induction cutLines depth cs <;> simp_all

theorem lastPiece_stands {offset n : Nat} {pieces : List (List Char)} {piece : List Char}
    (h : lastPiece offset pieces = some (n, piece)) :
    ∃ k, n = offset + k ∧ Stands pieces.flatten k piece := by
  induction pieces generalizing offset with
  | nil => cases h
  | cons first rest ih =>
    rw [lastPiece] at h
    split at h
    · rename_i found hfound
      cases h
      obtain ⟨k, hk, front, back, hrest, hfront⟩ := ih hfound
      refine ⟨byteSize first + k, by omega, first ++ front, back, ?_, by simp [hfront]⟩
      rw [List.flatten_cons, hrest]
      simp
    · split at h
      · cases h
      · cases h
        exact ⟨0, rfl, [], rest.flatten, by simp, rfl⟩

theorem lastSegment_stands (start : Nat) (cs : List Char) :
    ∃ k, (lastSegment start cs).1 = start + k ∧ Stands cs k (lastSegment start cs).2 := by
  rw [lastSegment]
  split
  · rename_i offset piece hpiece
    obtain ⟨k, rfl, hstands⟩ := lastPiece_stands hpiece
    rw [cutLines_flatten] at hstands
    exact ⟨_, Nat.add_assoc _ _ _, hstands.trim⟩
  · exact ⟨byteSize cs, rfl, cs, [], by simp, rfl⟩

/-- What a guard that comes with the block at `brace` may be. -/
def SideGuard.Sound (cs : List Char) (brace : Nat) : SideGuard → Prop
  | .resources span => Stretch cs span
  | .deferredFrom start => Boundary cs start ∧ start ≤ brace

theorem closedLength_splits {depth length n : Nat} {cs : List Char}
    (h : closedLength depth length cs = some n) :
    ∃ piece rest, cs = piece ++ rest ∧ piece ≠ [] ∧ n = length + byteSize piece := by
  have hlonger : ∀ {c : Char} {cs : List Char} {length : Nat},
      (∃ piece rest, cs = piece ++ rest ∧ piece ≠ [] ∧ n = length + c.utf8Size + byteSize piece) →
      ∃ piece rest, c :: cs = piece ++ rest ∧ piece ≠ [] ∧ n = length + byteSize piece := by
    rintro c cs length ⟨piece, rest, rfl, -, hn⟩
    exact ⟨c :: piece, rest, rfl, List.cons_ne_nil c piece, by rw [hn, byteSize_cons, Nat.add_assoc]⟩
  fun_induction closedLength depth length cs with
  | case1 => cases h
  | case2 depth length c rest length' hopen ih => exact hlonger (ih h)
  | case3 depth length c rest length' hopen hclose hdepth =>
    refine ⟨[c], rest, rfl, List.cons_ne_nil c [], ?_⟩
    rw [byteSize_cons, byteSize_nil, Nat.add_zero]
    exact (Option.some.inj h).symm
  | case4 depth length c rest length' hopen hclose hdepth ih => exact hlonger (ih h)
  | case5 depth length c rest length' hopen hclose ih => exact hlonger (ih h)

theorem resourceList_sound {cs header : List Char} {start brace : Nat} {side : SideGuard}
    (hheader : Stands cs start header) (h : resourceList header start = some side) :
    side.Sound cs brace := by
  rw [resourceList] at h
  simp only at h
  split at h
  · rename_i length hlength
    cases h
    obtain ⟨piece, rest, hpiece, hne, hsize⟩ := closedLength_splits hlength
    rw [Nat.zero_add] at hsize
    have hsplit : header = header.takeWhile (· != '(') ++ piece ++ rest := by
      rw [List.append_assoc, ← hpiece, List.takeWhile_append_dropWhile]
    rw [hsplit] at hheader
    rw [SideGuard.Sound, hsize]
    exact hheader.part.stretch hne
  · cases h

theorem classifyGo_side {cs header : List Char} {start brace : Nat} {word : String}
    {returned : Bool} {side : SideGuard} (hstart : Boundary cs start) (hle : start ≤ brace)
    (h : (classifyGo header start word returned).2 = some side) : side.Sound cs brace := by
  rw [classifyGo] at h
  split at h
  · cases h
  · split at h
    · simp only at h
      split at h
      · cases h
        exact ⟨hstart, hle⟩
      · cases h
    · cases h

theorem classify_side {language : Language} {cs header : List Char} {start brace : Nat}
    {side : SideGuard} (hheader : Stands cs start header) (hle : start ≤ brace)
    (h : (classify language header start).2 = some side) : side.Sound cs brace := by
  revert h
  fun_cases classify language header start with
  | case4 => exact resourceList_sound hheader
  | case7 => exact classifyGo_side hheader.start_boundary hle
  | _ => exact nofun

/-! ## Blocks -/

structure OpenBlock.Sound (cs : List Char) (b : OpenBlock) : Prop where
  header : Boundary cs b.headerStart
  header_le : b.headerStart ≤ b.brace
  side : ∀ guard, b.side = some guard → guard.Sound cs b.brace

theorem OpenBlock.Sound.closing {cs : List Char} {b : OpenBlock} {stop : Nat} (h : b.Sound cs)
    (hstop : Boundary cs stop) (hlt : b.brace < stop) :
    Closing cs b.brace stop (b.close stop) := by
  have hscopes : (b.close stop).scopes.length ≤ 1 ∧
      ∀ r ∈ (b.close stop).scopes, r.span = ⟨b.brace, stop⟩ := by
    rw [OpenBlock.close]
    cases b.block <;> rcases b.side with _ | (_ | _) <;> simp
  refine ⟨hscopes.1, hscopes.2, fun g hg => ?_⟩
  rw [OpenBlock.close, guards_append, List.mem_append] at hg
  rcases hg with hg | hg
  · split at hg
    · cases hg
    · rw [List.mem_singleton.1 hg]
      exact h.header.stretch hstop (Nat.lt_of_le_of_lt h.header_le hlt)
    · cases hg
  · split at hg
    · rename_i span hside
      rw [List.mem_singleton.1 hg]
      exact h.side _ hside
    · rename_i start hside
      rw [List.mem_singleton.1 hg]
      obtain ⟨hstart, hle⟩ := h.side _ hside
      exact hstart.stretch hstop (Nat.lt_of_le_of_lt hle hlt)
    · cases hg

/-! ## The pass -/

/-- The header of a block that opens where the pass stands. -/
def BraceState.header (st : BraceState) : Nat × List Char :=
  lastSegment st.statementStart st.pending.reverse

/-- `rest` is what has not been read. The pending text stands right before it. -/
structure BraceState.Sound (cs rest : List Char) (st : BraceState) : Prop where
  pending : ∃ front, cs = front ++ st.pending.reverse ++ rest ∧ byteSize front = st.statementStart
  offset : st.offset = st.statementStart + byteSize st.pending
  blocks : ∀ b ∈ st.stack, b.Sound cs
  discipline : Discipline cs (st.stack.map OpenBlock.brace) st.outline st.offset

namespace BraceState

variable {cs piece rest : List Char} {st : BraceState}

theorem sound_start (cs : List Char) : Sound cs cs {} where
  pending := ⟨[], rfl, rfl⟩
  offset := rfl
  blocks := nofun
  discipline := .start cs

namespace Sound

theorem pending_stands (h : Sound cs rest st) : Stands cs st.statementStart st.pending.reverse := by
  obtain ⟨front, hcs, hfront⟩ := h.pending
  exact ⟨front, rest, hcs, hfront⟩

theorem taken (h : Sound cs rest st) : ∃ front, cs = front ++ rest ∧ byteSize front = st.offset := by
  obtain ⟨front, hcs, hfront⟩ := h.pending
  refine ⟨front ++ st.pending.reverse, hcs, ?_⟩
  rw [byteSize_append, byteSize_reverse, hfront, h.offset]

theorem offset_boundary (h : Sound cs rest st) : Boundary cs st.offset := by
  obtain ⟨front, hcs, hfront⟩ := h.taken
  exact boundary_iff.2 ⟨front, rest, hcs, hfront⟩

/-- A new statement after the next piece, with what has happened to the blocks. -/
theorem restart (h : Sound cs (piece ++ rest) st) {stack : List OpenBlock} {outline : Skeleton}
    (hblocks : ∀ b ∈ stack, b.Sound cs)
    (hdiscipline : Discipline cs (stack.map OpenBlock.brace) outline
      (st.offset + byteSize piece)) :
    Sound cs rest { st.restart (st.offset + byteSize piece) with
      stack := stack, outline := outline } where
  pending := by
    obtain ⟨front, hcs, hfront⟩ := h.taken
    refine ⟨front ++ piece, by rw [hcs]; simp [BraceState.restart], ?_⟩
    rw [byteSize_append, hfront]
    rfl
  offset := rfl
  blocks := hblocks
  discipline := hdiscipline

theorem hold (h : Sound cs (piece ++ rest) st) :
    Sound cs rest { st with
      offset := st.offset + byteSize piece, pending := piece.reverse ++ st.pending } where
  pending := by
    obtain ⟨front, hcs, hfront⟩ := h.pending
    exact ⟨front, by rw [hcs]; simp, hfront⟩
  offset := by
    simp only [byteSize_append, byteSize_reverse]
    rw [h.offset]
    omega
  blocks := h.blocks
  discipline := h.discipline.advance (Nat.le_add_right _ _)

theorem header (h : Sound cs rest st) :
    Stands cs st.header.1 st.header.2 ∧ st.header.1 ≤ st.offset := by
  obtain ⟨k, hk, hstands⟩ := lastSegment_stands st.statementStart st.pending.reverse
  have hle := hstands.stop_le
  rw [byteSize_reverse] at hle
  rw [BraceState.header, hk, h.offset]
  exact ⟨h.pending_stands.trans hstands, by omega⟩

/-- The block that opens at the offset. -/
theorem opened (h : Sound cs rest st) (language : Language) :
    OpenBlock.Sound cs
      { headerStart := st.header.1
        brace := st.offset
        block := (classify language st.header.2 st.header.1).1
        side := (classify language st.header.2 st.header.1).2 } where
  header := h.header.1.start_boundary
  header_le := h.header.2
  side _ hside := classify_side h.header.1 h.header.2 hside

theorem step (language : Language) {l : Lexeme} (h : Sound cs (l.chars ++ rest) st) :
    Sound cs rest (st.step language l) := by
  have hadvance := h.discipline.advance (Nat.le_add_right st.offset (byteSize l.chars))
  cases l with
  | directive _ => exact h.restart h.blocks hadvance
  | string _ => exact h.hold
  | comment _ => exact h.hold
  | code c =>
    rw [BraceState.step]
    simp only
    split
    · rename_i hopen
      rw [beq_iff_eq] at hopen
      subst hopen
      refine h.restart ?_ (h.discipline.push (Nat.le_refl _) h.offset_boundary)
      intro b hb
      rcases List.mem_cons.1 hb with rfl | hb
      · exact h.opened language
      · exact h.blocks b hb
    · split
      · have hnext := (h.restart h.blocks hadvance).offset_boundary
        split
        · exact h.restart h.blocks hadvance
        · rename_i top below hstack
          have hblocks := h.blocks
          have hdiscipline := h.discipline
          rw [hstack] at hblocks hdiscipline
          have htop := hdiscipline.open_sound top.brace List.mem_cons_self
          have hclosing := (hblocks top List.mem_cons_self).closing hnext
            (Nat.lt_of_lt_of_le htop.2 (Nat.le_add_right _ _))
          exact h.restart (fun b hb => hblocks b (List.mem_cons_of_mem top hb))
            (hdiscipline.close (Nat.le_add_right _ _) hnext hclosing)
      · split
        · exact h.restart h.blocks hadvance
        · exact h.hold

theorem finish (h : Sound cs [] st) : Discipline cs [] st.finish (byteSize cs) := by
  obtain ⟨front, hcs, hfront⟩ := h.taken
  have hsize : st.offset = byteSize cs := by rw [← hfront, hcs, List.append_nil]
  have hdiscipline := h.discipline
  rw [← List.append_nil (st.stack.map OpenBlock.brace)] at hdiscipline
  rw [← hsize]
  refine hdiscipline.closeAll (Nat.le_refl _) h.offset_boundary fun b hb => ?_
  refine (h.blocks b hb).closing h.offset_boundary ?_
  exact (h.discipline.open_sound b.brace (List.mem_map_of_mem hb)).2

end Sound

theorem sound_run (language : Language) {ls : List Lexeme}
    (h : Sound cs (ls.flatMap Lexeme.chars ++ rest) st) :
    Sound cs rest (ls.foldl (BraceState.step language) st) := by
  induction ls generalizing st with
  | nil => exact h
  | cons l ls ih =>
    rw [List.flatMap_cons, List.append_assoc] at h
    exact ih (h.step language)

end BraceState

theorem braceBlocks_discipline (language : Language) (cs : List Char) :
    Discipline cs [] (braceBlocks language cs) (byteSize cs) := by
  refine BraceState.Sound.finish (BraceState.sound_run language ?_)
  rw [lexemes_chars, List.append_nil]
  exact BraceState.sound_start cs

end LeakScan.Scope.Outline
