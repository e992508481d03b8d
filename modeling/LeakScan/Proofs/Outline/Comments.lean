import LeakScan.Proofs.Outline.Bare

/-!
# LeakScan.Proofs.Outline.Comments

What comments do to the outline of a text in braces. They are skipped when braces are looked for, but
the statement in front of a brace is judged with its comments in it.

* `statementOf`, `blockAfter` — the lexemes since the last statement, and the block that a brace after
  them opens.
* `Pairing` — which braces belong together. This depends on the lexemes only.
* `braceBlocks_eq`, `braceBlocks_blankComments_eq` — both outlines close the same blocks at the same
  places, each judged by its own view of the statements.
* `closedOutline_eq_iff` — outlines are equal exactly if they are block by block.
* `braceBlocks_blankComments_iff` — so comments change an outline exactly where they change a
  judgement.
-/

namespace LeakScan.Scope.Outline

open Text

/-- Braces, semicolons and preprocessor lines end a statement. -/
def Lexeme.ends : Lexeme → Bool
  | .code c => c == '\x7b' || c == '\x7d' || c == ';'
  | .directive _ => true
  | _ => false

def textOf (ls : List Lexeme) : List Char := ls.flatMap Lexeme.chars

/-- The lexemes since the last statement. -/
def statementOf (seen : List Lexeme) : List Lexeme :=
  (seen.reverse.takeWhile fun l => !l.ends).reverse

/-- Where the last statement starts. -/
def statementStart (seen : List Lexeme) : Nat :=
  byteSize (textOf (seen.reverse.dropWhile fun l => !l.ends).reverse)

/-- The block that opens after some lexemes, judged by what `view` shows of its statement. -/
def blockAfter (language : Language) (view : Lexeme → List Char) (seen : List Lexeme) : OpenBlock :=
  let (start, header) := lastSegment (statementStart seen) ((statementOf seen).flatMap view)
  let (block, side) := classify language header start
  { headerStart := start, brace := byteSize (textOf seen), block := block, side := side }

/-- The block after some lexemes is the same without the comments of its statement, wherever it
ends. -/
def JudgedAlike (language : Language) (seen : List Lexeme) : Prop :=
  ∀ stop, (blockAfter language Lexeme.bareChars seen).close stop =
    (blockAfter language Lexeme.chars seen).close stop

/-! ## Statements -/

theorem textOf_append (a b : List Lexeme) : textOf (a ++ b) = textOf a ++ textOf b :=
  List.flatMap_append

theorem textOf_singleton (l : Lexeme) : textOf [l] = l.chars := List.append_nil _

theorem statementOf_concat (seen : List Lexeme) (l : Lexeme) :
    statementOf (seen ++ [l]) = if l.ends then [] else statementOf seen ++ [l] := by
  cases hl : l.ends <;> simp [statementOf, hl]

theorem statementStart_concat (seen : List Lexeme) (l : Lexeme) :
    statementStart (seen ++ [l]) =
      if l.ends then byteSize (textOf (seen ++ [l])) else statementStart seen := by
  cases hl : l.ends <;> simp [statementStart, hl]

theorem statement_size (seen : List Lexeme) :
    statementStart seen + byteSize (textOf (statementOf seen)) = byteSize (textOf seen) := by
  rw [statementStart, statementOf, ← byteSize_append, ← textOf_append, ← List.reverse_append,
    List.takeWhile_append_dropWhile, List.reverse_reverse]

theorem statementStart_le (seen : List Lexeme) : statementStart seen ≤ byteSize (textOf seen) := by
  rw [← statement_size]
  exact Nat.le_add_right _ _

theorem statementStart_mono (seen : List Lexeme) (l : Lexeme) :
    statementStart seen ≤ statementStart (seen ++ [l]) := by
  rw [statementStart_concat]
  split
  · refine Nat.le_trans (statementStart_le seen) ?_
    rw [textOf_append, byteSize_append]
    exact Nat.le_add_right _ _
  · exact Nat.le_refl _

/-! ## Braces -/

/-- The lexemes seen, those before each open brace, innermost first, and those before each closed
brace with the place where its block ends. -/
structure Pairing where
  seen : List Lexeme := []
  stack : List (List Lexeme) := []
  closed : List (List Lexeme × Nat) := []

namespace Pairing

def step (p : Pairing) (l : Lexeme) : Pairing :=
  let seen := p.seen ++ [l]
  match l with
  | .code c =>
    if c == '\x7b' then { p with seen := seen, stack := p.seen :: p.stack }
    else if c == '\x7d' then
      match p.stack with
      | [] => { p with seen := seen }
      | top :: below =>
        ⟨seen, below, p.closed ++ [(top, byteSize (textOf seen))]⟩
    else { p with seen := seen }
  | _ => { p with seen := seen }

/-- The lexemes before each brace that has opened a block. -/
def fronts (p : Pairing) : List (List Lexeme) := p.closed.map Prod.fst ++ p.stack

/-- All blocks in the order in which they end; those still open end with the text. -/
def closings (p : Pairing) : List (List Lexeme × Nat) :=
  p.closed ++ p.stack.map fun front => (front, byteSize (textOf p.seen))

def run (ls : List Lexeme) : Pairing := ls.foldl step {}

theorem seen_step (p : Pairing) (l : Lexeme) : (p.step l).seen = p.seen ++ [l] := by
  fun_cases step p l <;> rfl

theorem fronts_step (p : Pairing) (l : Lexeme) :
    (p.step l).fronts =
      if l = .code '\x7b' then p.closed.map Prod.fst ++ p.seen :: p.stack else p.fronts := by
  fun_cases step p l <;> simp_all [fronts]

end Pairing

/-- The outline of some blocks in the order in which they end. -/
def closedOutline (language : Language) (view : Lexeme → List Char)
    (blocks : List (List Lexeme × Nat)) : Skeleton :=
  blocks.foldl (fun acc b => acc ++ (blockAfter language view b.1).close b.2) {}

theorem closedOutline_concat (language : Language) (view : Lexeme → List Char)
    (blocks : List (List Lexeme × Nat)) (front : List Lexeme) (stop : Nat) :
    closedOutline language view (blocks ++ [(front, stop)]) =
      closedOutline language view blocks ++ (blockAfter language view front).close stop := by
  rw [closedOutline, List.foldl_concat]
  rfl

/-- The pass over a text that has got as far as the pairing, with a view of the lexemes. -/
def Pairing.state (language : Language) (view : Lexeme → List Char) (p : Pairing) : BraceState where
  offset := byteSize (textOf p.seen)
  statementStart := statementStart p.seen
  pending := ((statementOf p.seen).flatMap view).reverse
  stack := p.stack.map (blockAfter language view)
  outline := closedOutline language view p.closed

/-- A way to see lexemes as other ones, `pieces`, of the same size: those that end a statement stay,
and no others arise. -/
structure Reading (view : Lexeme → List Char) (pieces : Lexeme → List Lexeme) : Prop where
  chars : ∀ l, textOf (pieces l) = view l
  size : ∀ l, byteSize (view l) = byteSize l.chars
  ending : ∀ l, l.ends = true → pieces l = [l]
  going : ∀ l, l.ends = false → ∀ p ∈ pieces l, p.ends = false

theorem reading_whole : Reading Lexeme.chars fun l => [l] where
  chars l := textOf_singleton l
  size _ := rfl
  ending _ _ := rfl
  going l hl p hp := by rwa [List.mem_singleton.1 hp]

theorem reading_bare : Reading Lexeme.bareChars Lexeme.bare where
  chars := flatMap_chars_bare
  size := byteSize_bareChars
  ending l hl := by
    cases l with
    | comment cs => cases hl
    | _ => rfl
  going l hl p hp := by
    cases l with
    | comment cs =>
      obtain ⟨c, hc, rfl⟩ := List.mem_map.1 hp
      rcases mem_blanked hc with rfl | rfl <;> rfl
    | _ => rwa [List.mem_singleton.1 hp]

namespace BraceState

variable {language : Language} {st : BraceState}

theorem step_going {l : Lexeme} (h : l.ends = false) :
    st.step language l =
      { st with
        offset := st.offset + byteSize l.chars
        pending := l.chars.reverse ++ st.pending } := by
  cases l with
  | code c =>
    simp only [Lexeme.ends, Bool.or_eq_false_iff] at h
    simp [BraceState.step, h, Lexeme.chars]
  | string cs => rfl
  | comment cs => rfl
  | directive cs => cases h

theorem run_going {ls : List Lexeme} (h : ∀ l ∈ ls, l.ends = false) :
    ls.foldl (step language) st =
      { st with
        offset := st.offset + byteSize (textOf ls)
        pending := (textOf ls).reverse ++ st.pending } := by
  induction ls generalizing st with
  | nil => rfl
  | cons l ls ih =>
    rw [List.foldl_cons, step_going (h l List.mem_cons_self),
      ih fun m hm => h m (List.mem_cons_of_mem l hm)]
    simp [textOf, Nat.add_assoc]

end BraceState

namespace Reading

variable {view : Lexeme → List Char} {pieces : Lexeme → List Lexeme}

theorem step (h : Reading view pieces) (language : Language) (p : Pairing) (l : Lexeme) :
    (pieces l).foldl (BraceState.step language) (p.state language view) =
      (p.step l).state language view := by
  cases hl : l.ends with
  | false =>
    rw [BraceState.run_going (h.going l hl), h.chars]
    have hstep : p.step l = { p with seen := p.seen ++ [l] } := by
      cases l with
      | code c =>
        simp only [Lexeme.ends, Bool.or_eq_false_iff] at hl
        simp [Pairing.step, hl]
      | _ => rfl
    rw [hstep, Pairing.state, Pairing.state]
    simp only [statementOf_concat, statementStart_concat, hl, textOf_append, textOf_singleton,
      byteSize_append, h.size]
    simp
  | true =>
    rw [h.ending l hl, List.foldl_cons, List.foldl_nil]
    -- all of these start a new statement; braces also open or close a block
    have hnext : byteSize (textOf (p.seen ++ [l])) = byteSize (textOf p.seen) + byteSize l.chars := by
      rw [textOf_append, textOf_singleton, byteSize_append]
    have hrestart : ∀ stack closed, Pairing.state language view ⟨p.seen ++ [l], stack, closed⟩ =
        { (p.state language view).restart (byteSize (textOf p.seen) + byteSize l.chars) with
          stack := stack.map (blockAfter language view)
          outline := closedOutline language view closed } := by
      intro stack closed
      simp only [Pairing.state, BraceState.restart, statementOf_concat, statementStart_concat, hl,
        if_true, hnext, List.flatMap_nil, List.reverse_nil]
    cases l with
    | string cs => cases hl
    | comment cs => cases hl
    | directive cs => exact (hrestart p.stack p.closed).symm
    | code c =>
      rw [BraceState.step, Pairing.step]
      simp only
      split
      · rw [hrestart]
        simp only [Pairing.state, List.map_cons, blockAfter, List.reverse_reverse]
        rfl
      · split
        · cases hstack : p.stack with
          | nil =>
            simp only [Pairing.state, hstack, List.map_nil]
            exact (hrestart [] p.closed).symm
          | cons top below =>
            simp only
            rw [hrestart, closedOutline_concat, hnext]
            simp only [Pairing.state, hstack, List.map_cons]
        · split
          · exact (hrestart p.stack p.closed).symm
          · rename_i h1 h2 h3
            simp [Lexeme.ends, h1, h2, h3] at hl

theorem run (h : Reading view pieces) (language : Language) (p : Pairing) (ls : List Lexeme) :
    (ls.flatMap pieces).foldl (BraceState.step language) (p.state language view) =
      (ls.foldl Pairing.step p).state language view := by
  induction ls generalizing p with
  | nil => rfl
  | cons l ls ih => rw [List.flatMap_cons, List.foldl_append, h.step, ih, List.foldl_cons]

end Reading

theorem finish_state (language : Language) (view : Lexeme → List Char) (p : Pairing) :
    (p.state language view).finish = closedOutline language view p.closings := by
  rw [Pairing.closings, closedOutline, List.foldl_append, List.foldl_map]
  exact List.foldl_map

/-- The blocks of a text, with its comments in the headers. -/
theorem braceBlocks_eq (language : Language) (cs : List Char) :
    braceBlocks language cs =
      closedOutline language Lexeme.chars (Pairing.run (lexemes language cs)).closings := by
  have hrun := reading_whole.run language {} (lexemes language cs)
  rw [List.flatMap_singleton'] at hrun
  rw [← finish_state, Pairing.run, ← hrun]
  rfl

/-- The blocks of a text without its comments: the same, without comments in the headers. -/
theorem braceBlocks_blankComments_eq {language : Language} {cs : List Char}
    (h : ¬HidesDirective language cs) :
    braceBlocks language (blankComments language cs) =
      closedOutline language Lexeme.bareChars (Pairing.run (lexemes language cs)).closings := by
  have hrun := reading_bare.run language {} (lexemes language cs)
  rw [← (lexemes_blankComments_iff language cs).2 h] at hrun
  rw [← finish_state, Pairing.run, ← hrun]
  rfl

/-! ## Places of blocks -/

/-- The statements of two blocks, braces included, share no offset. -/
def Separate (a b : List Lexeme) : Prop :=
  byteSize (textOf a) < statementStart b ∨ byteSize (textOf b) < statementStart a

theorem Separate.symm {a b : List Lexeme} (h : Separate a b) : Separate b a := Or.symm h

/-- Every opening brace seen has its block, and the statements of blocks are apart. -/
structure Pairing.Sound (p : Pairing) : Prop where
  mem_fronts : ∀ front, front ∈ p.fronts ↔ ∃ back, p.seen = front ++ .code '\x7b' :: back
  earlier : ∀ front ∈ p.fronts, byteSize (textOf front) < statementStart p.seen
  separate : p.fronts.Pairwise Separate

namespace Pairing

namespace Sound

variable {p : Pairing}

theorem start : Sound {} := ⟨by simp [fronts], by simp [fronts], .nil⟩

theorem concat_eq_iff {seen front : List Lexeme} {l m : Lexeme} :
    (∃ back, seen ++ [l] = front ++ m :: back) ↔
      (l = m ∧ front = seen) ∨ ∃ back, seen = front ++ m :: back := by
  constructor
  · rintro ⟨back, heq⟩
    rcases List.eq_nil_or_concat back with rfl | ⟨back, x, rfl⟩
    · obtain ⟨rfl, hlast⟩ := List.append_inj' heq rfl
      exact .inl ⟨(List.cons.inj hlast).1, rfl⟩
    · rw [List.concat_eq_append, ← List.cons_append, ← List.append_assoc] at heq
      exact .inr ⟨back, (List.append_inj' heq rfl).1⟩
  · rintro (⟨rfl, rfl⟩ | ⟨back, rfl⟩)
    · exact ⟨[], rfl⟩
    · exact ⟨back ++ [l], by simp⟩

theorem step (h : p.Sound) (l : Lexeme) : (p.step l).Sound := by
  have hearlier : ∀ front ∈ p.fronts,
      byteSize (textOf front) < statementStart (p.seen ++ [l]) := fun front hfront =>
    Nat.lt_of_lt_of_le (h.earlier front hfront) (statementStart_mono p.seen l)
  by_cases hl : l = .code '\x7b'
  · have hfronts : (p.step l).fronts = p.closed.map Prod.fst ++ p.seen :: p.stack := by
      rw [fronts_step, if_pos hl]
    have hmem : ∀ front, front ∈ (p.step l).fronts ↔ front = p.seen ∨ front ∈ p.fronts := by
      intro front
      rw [hfronts, fronts]
      simp only [List.mem_append, List.mem_cons]
      exact or_left_comm
    constructor
    · intro front
      rw [hmem, seen_step, concat_eq_iff, h.mem_fronts]
      simp [hl]
    · intro front hfront
      rw [seen_step]
      rcases (hmem front).1 hfront with rfl | hfront
      · have hends : l.ends = true := by rw [hl]; rfl
        rw [statementStart_concat, if_pos hends, textOf_append, byteSize_append, hl]
        exact Nat.lt_add_of_pos_right (by decide)
      · exact hearlier front hfront
    · rw [hfronts, List.pairwise_middle Separate.symm]
      exact List.pairwise_cons.2 ⟨fun front hfront => .inr (h.earlier front hfront), h.separate⟩
  · have hfronts : (p.step l).fronts = p.fronts := by
      rw [fronts_step, if_neg hl]
    constructor
    · intro front
      rw [hfronts, seen_step, concat_eq_iff, h.mem_fronts]
      simp [hl]
    · rw [hfronts, seen_step]
      exact hearlier
    · rw [hfronts]
      exact h.separate

end Sound

theorem seen_foldl (p : Pairing) (ls : List Lexeme) : (ls.foldl step p).seen = p.seen ++ ls := by
  induction ls generalizing p with
  | nil => exact (List.append_nil _).symm
  | cons l ls ih =>
    rw [List.foldl_cons, ih, seen_step, List.append_assoc]
    rfl

theorem Sound.foldl {p : Pairing} (h : p.Sound) (ls : List Lexeme) :
    (ls.foldl Pairing.step p).Sound := by
  induction ls generalizing p with
  | nil => exact h
  | cons l ls ih => exact ih (h.step l)

theorem sound_run (ls : List Lexeme) : (run ls).Sound := Sound.start.foldl ls

theorem mem_fronts_run {ls front : List Lexeme} :
    front ∈ (run ls).fronts ↔ ∃ back, ls = front ++ .code '\x7b' :: back := by
  have hseen : (run ls).seen = ls := seen_foldl {} ls
  rw [(sound_run ls).mem_fronts, hseen]

theorem fronts_closings (p : Pairing) : p.closings.map Prod.fst = p.fronts := by
  simp [closings, fronts, Function.comp_def]

end Pairing

def SideGuard.start : SideGuard → Nat
  | .resources span => span.start
  | .deferredFrom start => start

/-- A guard that comes with a block starts inside the header. -/
theorem classify_side_start {language : Language} {header : List Char} {start : Nat}
    {side : SideGuard} (h : (classify language header start).2 = some side) :
    start ≤ side.start ∧ side.start ≤ start + byteSize header := by
  have hresources : ∀ {side}, resourceList header start = some side →
      start ≤ side.start ∧ side.start ≤ start + byteSize header := by
    intro side h
    rw [resourceList] at h
    simp only at h
    split at h
    · cases h
      have hsize := congrArg byteSize
        (List.takeWhile_append_dropWhile (p := (· != '(')) (l := header))
      rw [byteSize_append] at hsize
      simp only [SideGuard.start]
      omega
    · cases h
  have hgo : ∀ {word returned side}, (classifyGo header start word returned).2 = some side →
      start ≤ side.start ∧ side.start ≤ start + byteSize header := by
    intro word returned side h
    rw [classifyGo] at h
    split at h
    · cases h
    · split at h
      · simp only at h
        split at h
        · cases h
          exact ⟨Nat.le_refl _, Nat.le_add_right _ _⟩
        · cases h
      · cases h
  revert h
  fun_cases classify language header start with
  | case4 => exact hresources
  | case7 => exact hgo
  | _ =>
    intro h
    cases h

/-- What a block adds starts in its statement or at its brace. -/
structure StartsWithin (front : List Lexeme) (added : Skeleton) : Prop where
  scopes : ∀ r ∈ added.scopes,
    statementStart front ≤ r.span.start ∧ r.span.start ≤ byteSize (textOf front)
  guards : ∀ g ∈ added.guards,
    statementStart front ≤ g.span.start ∧ g.span.start ≤ byteSize (textOf front)

theorem Reading.startsWithin {view : Lexeme → List Char} {pieces : Lexeme → List Lexeme}
    (h : Reading view pieces) (language : Language) (front : List Lexeme) (stop : Nat) :
    StartsWithin front ((blockAfter language view front).close stop) := by
  have hsize : ∀ ls : List Lexeme, byteSize (ls.flatMap view) = byteSize (textOf ls) := by
    intro ls
    induction ls with
    | nil => rfl
    | cons l ls ih =>
      rw [List.flatMap_cons, byteSize_append, h.size, ih]
      exact (byteSize_append l.chars (textOf ls)).symm
  obtain ⟨k, hk, hstands⟩ :=
    lastSegment_stands (statementStart front) ((statementOf front).flatMap view)
  have hstop := hstands.stop_le
  have hstatement := statement_size front
  rw [hsize] at hstop
  have hside : ∀ side, (blockAfter language view front).side = some side →
      statementStart front ≤ side.start ∧ side.start ≤ byteSize (textOf front) := by
    intro side hside
    have hclassify : (classify language
        (lastSegment (statementStart front) ((statementOf front).flatMap view)).2
        (lastSegment (statementStart front) ((statementOf front).flatMap view)).1).2 = some side :=
      hside
    have hheader := classify_side_start hclassify
    omega
  constructor
  · intro r hr
    have hstart : r.span.start = byteSize (textOf front) := by
      rw [OpenBlock.close] at hr
      cases hblock : (blockAfter language view front).block <;>
        rcases hs : (blockAfter language view front).side with _ | (_ | _) <;>
        simp_all [blockAfter]
    have := statementStart_le front
    omega
  · intro g hg
    rw [OpenBlock.close, guards_append, List.mem_append] at hg
    rcases hg with hg | hg
    · split at hg
      · cases hg
      · rw [List.mem_singleton.1 hg]
        simp only [blockAfter]
        omega
      · cases hg
    · split at hg
      · rename_i span hspan
        rw [List.mem_singleton.1 hg]
        exact hside _ hspan
      · rename_i start hstart
        rw [List.mem_singleton.1 hg]
        exact hside _ hstart
      · cases hg

/-- Where the parts of a list can be told from each other, each part can be found in the whole. -/
theorem filter_flatMap_eq {α β : Type} {l : List α} {f : α → List β} (own : α → β → Bool)
    (hown : ∀ x ∈ l, ∀ e ∈ f x, own x e = true)
    (hothers : l.Pairwise fun x y => (∀ e ∈ f x, own y e = false) ∧ ∀ e ∈ f y, own x e = false)
    {x : α} (hx : x ∈ l) : (l.flatMap f).filter (own x) = f x := by
  induction l with
  | nil => cases hx
  | cons y l ih =>
    obtain ⟨hfirst, hrest⟩ := List.pairwise_cons.1 hothers
    rw [List.flatMap_cons, List.filter_append]
    rcases List.mem_cons.1 hx with rfl | hx
    · have hnone : (l.flatMap f).filter (own x) = [] := by
        refine List.filter_eq_nil_iff.2 fun e he => ?_
        obtain ⟨z, hz, hez⟩ := List.mem_flatMap.1 he
        simp [(hfirst z hz).2 e hez]
      rw [hnone, List.append_nil, List.filter_eq_self.2 (hown x List.mem_cons_self)]
    · have hnone : (f y).filter (own x) = [] := by
        refine List.filter_eq_nil_iff.2 fun e he => ?_
        simp [(hfirst x hx).1 e he]
      rw [hnone, List.nil_append, ih (fun z hz => hown z (List.mem_cons_of_mem y hz)) hrest hx]

theorem foldl_append_parts {β : Type} (f : β → Skeleton) (l : List β) (acc : Skeleton) :
    (l.foldl (fun acc b => acc ++ f b) acc).scopes = acc.scopes ++ l.flatMap (fun b => (f b).scopes) ∧
      (l.foldl (fun acc b => acc ++ f b) acc).guards =
        acc.guards ++ l.flatMap (fun b => (f b).guards) := by
  induction l generalizing acc with
  | nil => simp
  | cons b l ih =>
    rw [List.foldl_cons, (ih _).1, (ih _).2]
    simp

theorem returns_close (b : OpenBlock) (stop : Nat) : (b.close stop).returns = [] := by
  rw [OpenBlock.close]
  cases b.block <;> rcases b.side with _ | (_ | _) <;> rfl

theorem skeleton_ext {a b : Skeleton} (hscopes : a.scopes = b.scopes)
    (hguards : a.guards = b.guards) (hreturns : a.returns = b.returns) : a = b := by
  cases a
  cases b
  simp_all

/-- Lists put together from parts that start in the statements of separate blocks are equal only part
by part. -/
theorem parts_eq {β : Type} {start : β → Nat} {blocks : List (List Lexeme × Nat)}
    {f g : List Lexeme × Nat → List β} (hblocks : (blocks.map Prod.fst).Pairwise Separate)
    (hf : ∀ b, ∀ e ∈ f b, statementStart b.1 ≤ start e ∧ start e ≤ byteSize (textOf b.1))
    (hg : ∀ b, ∀ e ∈ g b, statementStart b.1 ≤ start e ∧ start e ≤ byteSize (textOf b.1))
    (heq : blocks.flatMap f = blocks.flatMap g) {b : List Lexeme × Nat} (hb : b ∈ blocks) :
    f b = g b := by
  have hfind : ∀ f : List Lexeme × Nat → List β,
      (∀ b, ∀ e ∈ f b, statementStart b.1 ≤ start e ∧ start e ≤ byteSize (textOf b.1)) →
      (blocks.flatMap f).filter (fun e => decide (statementStart b.1 ≤ start e ∧
        start e ≤ byteSize (textOf b.1))) = f b := by
    intro f hf
    refine filter_flatMap_eq (fun (b : List Lexeme × Nat) e => decide (statementStart b.1 ≤ start e ∧
      start e ≤ byteSize (textOf b.1))) (fun a _ e he => decide_eq_true (hf a e he)) ?_ hb
    refine (List.pairwise_map.1 hblocks).imp fun {a c} hac => ⟨fun e he => ?_, fun e he => ?_⟩
    · have hown := hf a e he
      refine decide_eq_false fun hother => ?_
      rcases hac with hac | hac <;> omega
    · have hown := hf c e he
      refine decide_eq_false fun hother => ?_
      rcases hac with hac | hac <;> omega
  rw [← hfind f hf, heq, hfind g hg]

theorem closedOutline_eq_iff (language : Language) {view view' : Lexeme → List Char}
    {pieces pieces' : Lexeme → List Lexeme} (h : Reading view pieces) (h' : Reading view' pieces')
    {blocks : List (List Lexeme × Nat)} (hblocks : (blocks.map Prod.fst).Pairwise Separate) :
    closedOutline language view blocks = closedOutline language view' blocks ↔
      ∀ b ∈ blocks, (blockAfter language view b.1).close b.2 =
        (blockAfter language view' b.1).close b.2 := by
  constructor
  · intro heq b hb
    have hscopes := congrArg Skeleton.scopes heq
    have hguards := congrArg Skeleton.guards heq
    simp only [closedOutline, foldl_append_parts, List.nil_append] at hscopes hguards
    have hscope := parts_eq hblocks (fun b => (h.startsWithin language b.1 b.2).scopes)
      (fun b => (h'.startsWithin language b.1 b.2).scopes) hscopes hb
    have hguard := parts_eq hblocks (fun b => (h.startsWithin language b.1 b.2).guards)
      (fun b => (h'.startsWithin language b.1 b.2).guards) hguards hb
    have hreturns := returns_close (blockAfter language view b.1) b.2
    rw [← returns_close (blockAfter language view' b.1) b.2] at hreturns
    exact skeleton_ext hscope hguard hreturns
  · intro hall
    rw [closedOutline, closedOutline]
    exact List.foldl_ext _ _ _ fun acc b hb => by rw [hall b hb]

/-! ## Judgements -/

/-- Stretches of managed resources come with a block and are never the block itself. -/
theorem classify_ne_managed (language : Language) (header : List Char) (start : Nat) :
    (classify language header start).1 ≠ .guard .managed := by
  have hgo : ∀ word returned, (classifyGo header start word returned).1 ≠ .guard .managed := by
    intro word returned
    fun_cases classifyGo header start word returned <;> simp [function, closure]
  have hswift : ∀ word returned, classifySwift header word returned ≠ .guard .managed := by
    intro word returned
    fun_cases classifySwift header word returned <;> simp [function, closure]
  have hmethod : ∀ word, classifyMethod header word ≠ .guard .managed := by
    intro word
    fun_cases classifyMethod header word <;> simp [function]
  have hcurly : ∀ word returned, classifyCurly language header word returned ≠ .guard .managed := by
    intro word returned
    fun_cases classifyCurly language header word returned with
    | case4 => exact hmethod word
    | _ => simp [function, closure]
  fun_cases classify language header start with
  | case7 => exact hgo _ _
  | case8 => exact hswift _ _
  | case9 => exact hcurly _ _
  | _ => simp

/-- What a block adds, moved to another end. Managed resources end where they are written. -/
def endingAt (stop : Nat) (added : Skeleton) : Skeleton where
  scopes := added.scopes.map fun r => { r with span := ⟨r.span.start, stop⟩ }
  guards := added.guards.map fun g =>
    if g.kind == .managed then g else ⟨g.kind, ⟨g.span.start, stop⟩⟩

theorem endingAt_close {b : OpenBlock} (h : b.block ≠ .guard .managed) (stop stop' : Nat) :
    endingAt stop' (b.close stop) = b.close stop' := by
  have hguard : ∀ kind, b.block = .guard kind → kind ≠ .managed := by
    rintro _ hkind rfl
    exact h hkind
  refine skeleton_ext ?_ ?_ (returns_close b stop').symm
  · simp only [endingAt, OpenBlock.close, scopes_append]
    cases b.block <;> rcases b.side with _ | (_ | _) <;> rfl
  · simp only [endingAt, OpenBlock.close, guards_append]
    cases hblock : b.block with
    | scope => rcases b.side with _ | (_ | _) <;> rfl
    | guard kind => rcases b.side with _ | (_ | _) <;> simp [hguard kind hblock]
    | plain => rcases b.side with _ | (_ | _) <;> rfl

theorem judgedAlike_of_close {language : Language} {front : List Lexeme} {stop : Nat}
    (h : (blockAfter language Lexeme.bareChars front).close stop =
      (blockAfter language Lexeme.chars front).close stop) : JudgedAlike language front := by
  intro stop'
  rw [← endingAt_close (classify_ne_managed language _ _) stop stop', h]
  exact endingAt_close (classify_ne_managed language _ _) stop stop'

/-- Comments are skipped in the search for braces, unless a preprocessor line hides behind one. So
without them the outline is the same exactly if each block is judged alike. -/
theorem braceBlocks_blankComments_iff (language : Language) (cs : List Char) :
    (lexemes language (blankComments language cs) = (lexemes language cs).flatMap Lexeme.bare ↔
      ¬HidesDirective language cs) ∧
    (¬HidesDirective language cs →
      (braceBlocks language (blankComments language cs) = braceBlocks language cs ↔
        ∀ front back, lexemes language cs = front ++ .code '\x7b' :: back →
          JudgedAlike language front)) := by
  refine ⟨lexemes_blankComments_iff language cs, fun hdirective => ?_⟩
  have hsound := Pairing.sound_run (lexemes language cs)
  rw [braceBlocks_blankComments_eq hdirective, braceBlocks_eq,
    closedOutline_eq_iff language reading_bare reading_whole
      (by rw [Pairing.fronts_closings]; exact hsound.separate)]
  constructor
  · intro hall front back hsplit
    have hfront := Pairing.mem_fronts_run.2 ⟨back, hsplit⟩
    rw [← Pairing.fronts_closings] at hfront
    obtain ⟨b, hb, rfl⟩ := List.mem_map.1 hfront
    exact judgedAlike_of_close (hall b hb)
  · intro hall b hb
    have hfront : b.1 ∈ (Pairing.run (lexemes language cs)).fronts := by
      rw [← Pairing.fronts_closings]
      exact List.mem_map_of_mem hb
    obtain ⟨back, hsplit⟩ := Pairing.mem_fronts_run.1 hfront
    exact hall b.1 back hsplit b.2

/-- A comment behind a preprocessor line and one above a function. -/
def notedFunction : List Char :=
  "#define LIMIT 8 // slots\n/* disk */\nvoid load() \x7b\n\x7d\n".toList

theorem noted_function_kept :
    ¬HidesDirective .cpp notedFunction ∧
      braceBlocks .cpp (blankComments .cpp notedFunction) = braceBlocks .cpp notedFunction ∧
      ∀ front back, lexemes .cpp notedFunction = front ++ .code '\x7b' :: back →
        JudgedAlike .cpp front := by
  have hdirective : ¬HidesDirective .cpp notedFunction := by decide +kernel
  have hsame : braceBlocks .cpp (blankComments .cpp notedFunction) =
      braceBlocks .cpp notedFunction := by decide +kernel
  exact ⟨hdirective, hsame,
    ((braceBlocks_blankComments_iff .cpp notedFunction).2 hdirective).1 hsame⟩

/-- A method with a comment between its header and its brace. -/
def notedMethod : List Char := "class Cache \x7b\n  void load() // disk\n  \x7b\n  \x7d\n\x7d\n".toList

/-- The comment hides the method. -/
theorem noted_method_lost :
    braceBlocks .java notedMethod ≠ braceBlocks .java (blankComments .java notedMethod) ∧
      (braceBlocks .java notedMethod).scopes.map (·.name) = [some "Cache"] ∧
      (braceBlocks .java (blankComments .java notedMethod)).scopes.map (·.name) =
        [some "load", some "Cache"] := by
  decide +kernel

end LeakScan.Scope.Outline
