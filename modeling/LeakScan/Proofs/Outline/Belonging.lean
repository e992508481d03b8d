import LeakScan.Proofs.Outline.Whole
import LeakScan.Proofs.Regex.Run
import LeakScan.Proofs.Scope.Innermost
import LeakScan.Proofs.Scope.Kinds

/-!
# LeakScan.Proofs.Outline.Belonging

Which block a line of an indented text belongs to.

* `Line.IsStraight` — a line with no bracket, documentation string or lambda left open or begun.
* `blockStop` — where a block ends, read off the lines below its header.
* `mem_indentationBlocks` — the scopes of a straight text: one for each header.
* `lt_blockStop_iff` — a block reaches a line exactly if all content down to it is indented deeper.
* `Heads`, `Opens` — a header that a line stands under, and the scope that a header opens.
* `scopeAt_indented` — every content line lies in the scope of the last header it stands under.
-/

namespace LeakScan.Scope.Outline

open Text Regex

namespace Line

/-- Neither blank nor a comment. -/
def isContent (l : Line) : Bool := !(l.trimmed.isEmpty || l.trimmed.head? == some '#')

/-- A `def` or `class` line. -/
def isHeader (l : Line) : Bool := defLine.isMatch l.trimmed || classLine.isMatch l.trimmed

/-- No bracket stays open, no documentation string starts or ends, and there is no lambda. -/
structure IsStraight (l : Line) : Prop where
  balanced : bracketDelta l.text = 0
  no_triple : ∀ quote ∈ ['"', '\''], occursIn [quote, quote, quote] l.text = false
  no_lambda : wordPlaces "lambda".toList none 0 l.text = []

/-- The block that a line opens. -/
def block (l : Line) : IndentBlock := ⟨l.indent, l.bodyStart, lineBlock l.trimmed⟩

variable {l : Line}

theorem bodyStart_lt_stop (h : l.isContent = true) : l.bodyStart < l.stop := by
  obtain ⟨after, hafter⟩ := l.body_eq
  have hstop := l.bodyStart_add
  have hpos : 0 < byteSize l.trimmed := by
    refine byteSize_pos fun hnil => ?_
    simp [isContent, hnil] at h
  rw [hafter, byteSize_append] at hstop
  omega

theorem trimmed_infix (l : Line) : l.trimmed <:+: l.text := by
  obtain ⟨after, hafter⟩ := trim_split l.text
  exact ⟨l.text.takeWhile isBlank, after, hafter.symm⟩

end Line

/-! ## Straight lines -/

theorem countTriple_eq_zero {quote : Char} {cs : List Char}
    (h : ¬[quote, quote, quote] <:+: cs) : countTriple quote cs = 0 := by
  fun_induction countTriple quote cs with
  | case1 a b c rest heq =>
    simp only [Bool.and_eq_true, beq_iff_eq] at heq
    obtain ⟨⟨rfl, rfl⟩, rfl⟩ := heq
    exact absurd ⟨[], rest, rfl⟩ h
  | case2 a b c rest _ ih => exact ih fun hin => h (List.infix_cons hin)
  | case3 => rfl

theorem opensTriple?_eq_none {l : Line} (h : l.IsStraight) : opensTriple? l.trimmed = none := by
  have hzero : ∀ quote ∈ ['"', '\''], countTriple quote l.trimmed = 0 := by
    intro quote hquote
    refine countTriple_eq_zero fun hin => ?_
    have hthere := occursIn_iff.2 (hin.trans l.trimmed_infix)
    rw [h.no_triple quote hquote] at hthere
    cases hthere
  rw [opensTriple?, hzero '"' (by decide), hzero '\'' (by decide)]
  rfl

theorem lambdaScope?_eq_none {l : Line} (h : l.IsStraight) : lambdaScope? l = none := by
  have hall : (lambdaWord.findAll l.text).map (·.span.start) = [] := by
    rw [← h.no_lambda]
    exact findAll_wordRegex ⟨by decide, List.all_eq_true.1 (by decide)⟩ l.text
  rw [lambdaScope?, lambdaAt?, hall]
  rfl

/-- Where what satisfies a condition stands in front of all else, it is what the condition takes. -/
theorem takeWhile_dropWhile_eq_filter {α : Type} {p : α → Bool} {xs : List α}
    (h : xs.Pairwise fun a b => p b = true → p a = true) :
    xs.takeWhile p = xs.filter p ∧ xs.dropWhile p = xs.filter fun a => !p a := by
  induction xs with
  | nil => exact ⟨rfl, rfl⟩
  | cons a xs ih =>
    obtain ⟨ha, hxs⟩ := List.pairwise_cons.1 h
    obtain ⟨htake, hdrop⟩ := ih hxs
    by_cases hp : p a = true
    · simp [hp, htake, hdrop]
    · have hnone : ∀ b ∈ xs, p b = false := fun b hb => by simpa using mt (ha b hb) hp
      have hfilter : xs.filter p = [] := by simpa using hnone
      have hrest : (xs.filter fun b => !p b) = xs := by simpa using hnone
      simp [hp, hfilter, hrest]

/-- What holds before and after every line of a straight text: inner blocks are indented deeper. -/
structure IndentState.IsLevel (st : IndentState) : Prop where
  docstring : st.docstring = none
  depth : st.depth = 0
  deeper : st.stack.Pairwise fun inner outer => outer.indent < inner.indent

namespace IndentState.IsLevel

variable {st : IndentState} {l : Line}

theorem start : IsLevel {} := ⟨rfl, rfl, .nil⟩

theorem step_skip (h : st.IsLevel) (hl : l.isContent = false) : st.step l = st := by
  rw [IndentState.step, h.docstring]
  simp only [Line.isContent, Bool.not_eq_false'] at hl
  exact if_pos hl

/-- The blocks that a line leaves are all that are indented as deep, since inner blocks are
indented deeper. -/
theorem mem_left_iff (h : st.IsLevel) (indent : Nat) {b : IndentBlock} :
    (b ∈ st.stack.takeWhile (fun b => indent ≤ b.indent) ↔ b ∈ st.stack ∧ indent ≤ b.indent) ∧
      (b ∈ st.stack.dropWhile (fun b => indent ≤ b.indent) ↔ b ∈ st.stack ∧ b.indent < indent) := by
  have hfront : st.stack.Pairwise fun inner outer =>
      decide (indent ≤ outer.indent) = true → decide (indent ≤ inner.indent) = true := by
    refine h.deeper.imp fun hlt hle => ?_
    rw [decide_eq_true_eq] at hle ⊢
    omega
  obtain ⟨htake, hdrop⟩ := takeWhile_dropWhile_eq_filter hfront
  rw [htake, hdrop, List.mem_filter, List.mem_filter]
  simp

/-- A content line closes the blocks that it leaves and opens its own. -/
theorem step_content (h : st.IsLevel) (hl : l.isContent = true) (hs : l.IsStraight) :
    (st.step l).docstring = none ∧ (st.step l).depth = 0 ∧ (st.step l).contentEnd = l.stop ∧
      (st.step l).stack = (st.statement l).stack ∧
      (st.step l).outline.scopes = (st.closeTo l.indent).outline.scopes := by
  have hcode : (l.trimmed.isEmpty || l.trimmed.head? == some '#') = false := by
    simpa [Line.isContent] using hl
  have hdepth : st.depth ≤ 0 := Int.le_of_eq h.depth
  have hstatement : (st.statement l).outline.scopes = (st.closeTo l.indent).outline.scopes ∧
      (st.statement l).depth = st.depth := by
    rw [IndentState.statement]
    simp only
    split <;> simp [IndentState.closeTo]
  rw [IndentState.step, h.docstring]
  simp only [hcode, if_pos hdepth, opensTriple?_eq_none hs, lambdaScope?_eq_none hs, hs.balanced]
  simp [hstatement, h.depth]

theorem mem_stack_step (h : st.IsLevel) (hl : l.isContent = true) (hs : l.IsStraight)
    {b : IndentBlock} :
    b ∈ (st.step l).stack ↔ (b ∈ st.stack ∧ b.indent < l.indent) ∨
      (b = l.block ∧ b.block ≠ .plain) := by
  rw [(h.step_content hl hs).2.2.2.1, ← (h.mem_left_iff l.indent).2, IndentState.statement]
  simp only
  split
  · rename_i hplain
    simp only [IndentState.closeTo, iff_self_or]
    rintro ⟨rfl, hblock⟩
    exact absurd (beq_iff_eq.1 hplain) hblock
  · rename_i hplain
    simp only [IndentState.closeTo, List.mem_cons, Line.block]
    rw [or_comm]
    refine or_congr_right ⟨fun heq => ⟨heq, ?_⟩, And.left⟩
    simpa [heq] using hplain

theorem step (h : st.IsLevel) (hs : l.IsStraight) : (st.step l).IsLevel := by
  by_cases hl : l.isContent = true
  · obtain ⟨hdocstring, hdepth, -, hstack, -⟩ := h.step_content hl hs
    refine ⟨hdocstring, hdepth, ?_⟩
    have hkept : ((st.closeTo l.indent).stack).Pairwise fun inner outer =>
        outer.indent < inner.indent :=
      h.deeper.sublist (List.dropWhile_sublist _)
    rw [hstack, IndentState.statement]
    simp only
    split
    · exact hkept
    · refine List.pairwise_cons.2 ⟨fun b hb => ?_, hkept⟩
      exact ((h.mem_left_iff l.indent).2.1 hb).2
  · rw [h.step_skip (by simpa using hl)]
    exact h

end IndentState.IsLevel

/-! ## The scopes of a straight text -/

/-- Where a block of some indentation ends: at the end of the last content line before one that is
not indented deeper, or with the text. `reached` is the end of the last content line so far. -/
def blockStop (indent size : Nat) : Nat → List Line → Nat
  | _, [] => size
  | reached, l :: rest =>
    if l.isContent then
      if indent < l.indent then blockStop indent size l.stop rest else reached
    else blockStop indent size reached rest

section BlockStop

variable {indent size reached : Nat} {l : Line} {rest : List Line}

theorem blockStop_deeper (hl : l.isContent = true) (h : indent < l.indent) :
    blockStop indent size reached (l :: rest) = blockStop indent size l.stop rest := by
  rw [blockStop, if_pos hl, if_pos h]

theorem blockStop_left (hl : l.isContent = true) (h : l.indent ≤ indent) :
    blockStop indent size reached (l :: rest) = reached := by
  rw [blockStop, if_pos hl, if_neg (Nat.not_lt.2 h)]

theorem blockStop_skip (hl : l.isContent = false) :
    blockStop indent size reached (l :: rest) = blockStop indent size reached rest := by
  rw [blockStop, if_neg (by simp [hl])]

end BlockStop

theorem mem_foldl_close {blocks : List IndentBlock} {stop : Nat} {outline : Skeleton}
    {r : RawScope} :
    r ∈ (blocks.foldl (fun acc b => acc ++ b.close stop) outline).scopes ↔
      r ∈ outline.scopes ∨ ∃ b ∈ blocks, r ∈ (b.close stop).scopes := by
  induction blocks generalizing outline with
  | nil => simp
  | cons b rest ih =>
    rw [List.foldl_cons, ih, scopes_append, List.mem_append, List.exists_mem_cons_iff, or_assoc]

/-- The scope that a header opens, `below` being the lines after it. -/
def Line.closed (l : Line) (size : Nat) (below : List Line) : Skeleton :=
  l.block.close (blockStop l.indent size l.stop below)

/-- The pass from any point on: what is closed stays, and the open blocks and those of the lines to
come end where their indentation says. By induction on these lines. -/
theorem mem_finish_run {lines : List Line} (hs : ∀ l ∈ lines, l.IsStraight) {st : IndentState}
    (h : st.IsLevel) (size : Nat) {r : RawScope} :
    r ∈ ((lines.foldl IndentState.step st).finish size).scopes ↔
      r ∈ st.outline.scopes ∨
      (∃ b ∈ st.stack, r ∈ (b.close (blockStop b.indent size st.contentEnd lines)).scopes) ∨
      ∃ above l below, lines = above ++ l :: below ∧ l.isContent = true ∧
        r ∈ (l.closed size below).scopes := by
  induction lines generalizing st with
  | nil => simp [IndentState.finish, mem_foldl_close, blockStop]
  | cons l rest ih =>
    have hl := hs l List.mem_cons_self
    -- the splits of the lines: the first one, and those of the rest
    have hsplits : (∃ above l' below, l :: rest = above ++ l' :: below ∧ l'.isContent = true ∧
        r ∈ (l'.closed size below).scopes) ↔
        (l.isContent = true ∧ r ∈ (l.closed size rest).scopes) ∨
          ∃ above l' below, rest = above ++ l' :: below ∧ l'.isContent = true ∧
            r ∈ (l'.closed size below).scopes := by
      constructor
      · rintro ⟨above, l', below, heq, hmem⟩
        cases above with
        | nil =>
          cases heq
          exact .inl hmem
        | cons a above =>
          cases heq
          exact .inr ⟨above, l', below, rfl, hmem⟩
      · rintro (hmem | ⟨above, l', below, rfl, hmem⟩)
        · exact ⟨[], l, rest, rfl, hmem⟩
        · exact ⟨l :: above, l', below, rfl, hmem⟩
    rw [List.foldl_cons, ih (fun l' hl' => hs l' (List.mem_cons_of_mem l hl')) (h.step hl), hsplits]
    by_cases hcontent : l.isContent = true
    · obtain ⟨-, -, hreach, -, hscopes⟩ := h.step_content hcontent hl
      rw [hreach, hscopes, IndentState.closeTo, mem_foldl_close, or_assoc]
      refine or_congr_right ?_
      constructor
      · rintro (⟨b, hb, hr⟩ | ⟨b, hb, hr⟩ | hlater)
        · obtain ⟨hstack, hle⟩ := (h.mem_left_iff l.indent).1.1 hb
          refine .inl ⟨b, hstack, ?_⟩
          rwa [blockStop_left hcontent hle]
        · rcases (h.mem_stack_step hcontent hl).1 hb with ⟨hstack, hlt⟩ | ⟨rfl, -⟩
          · refine .inl ⟨b, hstack, ?_⟩
            rwa [blockStop_deeper hcontent hlt]
          · exact .inr (.inl ⟨hcontent, hr⟩)
        · exact .inr (.inr hlater)
      · rintro (⟨b, hstack, hr⟩ | ⟨-, hr⟩ | hlater)
        · rcases Nat.lt_or_ge b.indent l.indent with hlt | hle
          · rw [blockStop_deeper hcontent hlt] at hr
            exact .inr (.inl ⟨b, (h.mem_stack_step hcontent hl).2 (.inl ⟨hstack, hlt⟩), hr⟩)
          · rw [blockStop_left hcontent hle] at hr
            exact .inl ⟨b, (h.mem_left_iff l.indent).1.2 ⟨hstack, hle⟩, hr⟩
        · refine .inr (.inl ⟨l.block, (h.mem_stack_step hcontent hl).2 (.inr ⟨rfl, ?_⟩), hr⟩)
          intro hplain
          simp [Line.closed, IndentBlock.close, hplain] at hr
        · exact .inr (.inr hlater)
    · rw [Bool.not_eq_true] at hcontent
      simp only [h.step_skip hcontent, blockStop_skip hcontent, hcontent, Bool.false_eq_true,
        false_and, false_or]

theorem Line.isHeader_iff {l : Line} :
    l.isHeader = true ↔
      ∃ kind name callee returned, lineBlock l.trimmed = .scope kind name callee returned := by
  rw [isHeader, lineBlock, isMatch, isMatch]
  cases defLine.find? l.trimmed with
  | some m => simp
  | none =>
    cases classLine.find? l.trimmed with
    | some m => simp
    | none =>
      simp only [Option.isSome_none, Bool.or_self, Bool.false_eq_true, false_iff]
      rintro ⟨kind, name, callee, returned, heq⟩
      split at heq <;> cases heq

theorem header_of_lineBlock {trimmed : List Char} {kind : RawKind} {name callee : Option String}
    {returned : Bool} (h : lineBlock trimmed = .scope kind name callee returned) :
    kind ≠ .closure ∧ callee = none ∧ returned = false := by
  unfold lineBlock at h
  split at h
  · cases h
    exact ⟨by decide, rfl, rfl⟩
  · split at h
    · cases h
      exact ⟨by decide, rfl, rfl⟩
    · split at h <;> cases h

/-- A header is no comment and not blank. -/
theorem Line.isContent_of_isHeader {l : Line} (h : l.isHeader = true) : l.isContent = true := by
  have hanchored : ∀ {r : Regex} {m : Match}, 0 < r.least → r.mayStart '#' = false →
      Matched (.seq (.anchor .textStart) r) l.trimmed m → l.isContent = true := by
    intro r m hleast hstart hmatched
    obtain ⟨c, hc, hmay⟩ := hmatched.mayStart_head hleast
    have hne : c ≠ '#' := by
      rintro rfl
      rw [hstart] at hmay
      cases hmay
    cases htrimmed : l.trimmed with
    | nil => simp [htrimmed] at hc
    | cons d rest =>
      rw [htrimmed] at hc
      cases hc
      simpa [Line.isContent, htrimmed] using hne
  rw [Line.isHeader, Bool.or_eq_true, isMatch, isMatch, Option.isSome_iff_exists,
    Option.isSome_iff_exists] at h
  rcases h with ⟨m, hm⟩ | ⟨m, hm⟩
  · exact hanchored (by decide) (by decide +kernel) (matched_find? hm)
  · exact hanchored (by decide) (by decide +kernel) (matched_find? hm)

/-- A header of a text and the scope that it opens. -/
structure HeaderScope (cs : List Char) (above : List Line) (h : Line) (below : List Line)
    (r : RawScope) : Prop where
  split : linesOf cs = above ++ h :: below
  block : lineBlock h.trimmed = .scope r.kind r.name r.callee r.returned
  span : r.span = ⟨h.bodyStart, blockStop h.indent (byteSize cs) h.stop below⟩

theorem HeaderScope.isContent {cs : List Char} {above below : List Line} {h : Line} {r : RawScope}
    (hscope : HeaderScope cs above h below r) : h.isContent = true :=
  Line.isContent_of_isHeader (Line.isHeader_iff.2 ⟨_, _, _, _, hscope.block⟩)

section Order

variable {size : Nat} {lines : List Line}

/-- Lines one after the other, all inside the text. -/
structure InOrder (size : Nat) (lines : List Line) : Prop where
  ordered : lines.Pairwise fun a b => a.stop < b.start
  inside : ∀ l ∈ lines, l.stop ≤ size

theorem linesOf_inOrder (cs : List Char) : InOrder (byteSize cs) (linesOf cs) :=
  ⟨(linesOf_stand cs).2, fun l hl => ((linesOf_stand cs).1 l hl).stop_le⟩

theorem InOrder.tail {l : Line} (h : InOrder size (l :: lines)) : InOrder size lines :=
  ⟨(List.pairwise_cons.1 h.ordered).2, fun x hx => h.inside x (List.mem_cons_of_mem l hx)⟩

theorem InOrder.after {above : List Line} {l : Line} (h : InOrder size (above ++ l :: lines)) :
    InOrder size lines ∧ (∀ x ∈ lines, l.stop < x.start) ∧ l.stop ≤ size := by
  have hback := (List.pairwise_append.1 h.ordered).2.1
  obtain ⟨hnext, hrest⟩ := List.pairwise_cons.1 hback
  refine ⟨⟨hrest, fun x hx => h.inside x ?_⟩, hnext, h.inside l (by simp)⟩
  exact List.mem_append_right above (List.mem_cons_of_mem l hx)

theorem reached_le_blockStop (h : InOrder size lines) (indent : Nat) {reached : Nat}
    (hreached : ∀ l ∈ lines, reached ≤ l.start) (hsize : reached ≤ size) :
    reached ≤ blockStop indent size reached lines := by
  induction lines generalizing reached with
  | nil => exact hsize
  | cons l rest ih =>
    obtain ⟨hnext, -⟩ := List.pairwise_cons.1 h.ordered
    have hfirst := hreached l List.mem_cons_self
    have hstop : l.start ≤ l.stop := Nat.le_add_right _ _
    rw [blockStop]
    split
    · split
      · have := ih h.tail (fun x hx => Nat.le_of_lt (hnext x hx)) (h.inside l List.mem_cons_self)
        omega
      · exact Nat.le_refl _
    · exact ih h.tail (fun x hx => hreached x (List.mem_cons_of_mem l hx)) hsize

/-- By induction on the lines between the header and the line. -/
theorem lt_blockStop_iff {between below : List Line} {l : Line} {indent reached : Nat}
    (h : InOrder size (between ++ l :: below)) (hl : l.isContent = true)
    (hreached : ∀ x ∈ between ++ l :: below, reached ≤ x.start) :
    l.bodyStart < blockStop indent size reached (between ++ l :: below) ↔
      indent < l.indent ∧ ∀ x ∈ between, x.isContent = true → indent < x.indent := by
  have hbody := l.start_le_bodyStart
  induction between generalizing reached with
  | nil =>
    have hfirst := hreached l (by simp)
    obtain ⟨hrest, hnext, hsize⟩ := h.after
    rw [List.nil_append]
    rcases Nat.lt_or_ge indent l.indent with hlt | hle
    · have hstop := reached_le_blockStop hrest indent
        (fun x hx => Nat.le_of_lt (hnext x hx)) hsize
      have := l.bodyStart_lt_stop hl
      rw [blockStop_deeper hl hlt]
      simp only [List.not_mem_nil, false_implies, implies_true, and_true]
      omega
    · rw [blockStop_left hl hle]
      simp only [List.not_mem_nil, false_implies, implies_true, and_true]
      omega
  | cons x between ih =>
    rw [List.cons_append] at h hreached ⊢
    obtain ⟨hlater, -⟩ := List.pairwise_cons.1 h.ordered
    cases hx : x.isContent with
    | false =>
      have hskip := ih h.tail fun y hy => hreached y (List.mem_cons_of_mem x hy)
      rw [blockStop_skip hx]
      refine hskip.trans ?_
      simp [hx]
    | true =>
      rcases Nat.lt_or_ge indent x.indent with hlt | hle
      · have hdeeper := ih h.tail fun y hy => Nat.le_of_lt (hlater y hy)
        rw [blockStop_deeper hx hlt]
        refine hdeeper.trans ?_
        simp [hx, hlt]
      · have hfirst := hreached l (by simp)
        rw [blockStop_left hx hle]
        refine iff_of_false (by omega) fun hall => ?_
        have := hall.2 x List.mem_cons_self hx
        omega

end Order

theorem mem_closed_iff {size : Nat} {above below : List Line} {l : Line} {r : RawScope}
    (h : InOrder size (above ++ l :: below)) (hl : l.isContent = true) :
    r ∈ (l.closed size below).scopes ↔
      lineBlock l.trimmed = .scope r.kind r.name r.callee r.returned ∧
        r.span = ⟨l.bodyStart, blockStop l.indent size l.stop below⟩ := by
  obtain ⟨hrest, hnext, hsize⟩ := h.after
  have hstop := reached_le_blockStop hrest l.indent (fun x hx => Nat.le_of_lt (hnext x hx)) hsize
  have hlt := l.bodyStart_lt_stop hl
  have hmax : max (blockStop l.indent size l.stop below) (l.bodyStart + 1) =
      blockStop l.indent size l.stop below := by omega
  simp only [Line.closed, Line.block, IndentBlock.close, hmax]
  cases r with
  | mk kind span name callee returned =>
    cases lineBlock l.trimmed with
    | scope kind' name' callee' returned' =>
      simp only [List.mem_singleton, RawScope.mk.injEq, Block.scope.injEq]
      constructor
      · rintro ⟨rfl, rfl, rfl, rfl, rfl⟩
        exact ⟨⟨rfl, rfl, rfl, rfl⟩, rfl⟩
      · rintro ⟨⟨rfl, rfl, rfl, rfl⟩, rfl⟩
        exact ⟨rfl, rfl, rfl, rfl, rfl⟩
    | guard kind' => simp
    | plain => simp

/-- The scopes of a straight text are those of its headers. -/
theorem mem_outline_iff {cs : List Char} (h : ∀ l ∈ linesOf cs, l.IsStraight) {r : RawScope} :
    r ∈ (outline .python cs).scopes ↔ ∃ above l below, HeaderScope cs above l below r := by
  have hscopes : (outline .python cs).scopes =
      (indentationBlocks (linesOf cs) (byteSize cs)).scopes := by
    exact List.append_nil _
  rw [hscopes, indentationBlocks, mem_finish_run h .start]
  constructor
  · rintro (hnone | ⟨b, hb, -⟩ | ⟨above, l, below, hsplit, hcontent, hr⟩)
    · cases hnone
    · cases hb
    · have horder := linesOf_inOrder cs
      rw [hsplit] at horder
      obtain ⟨hblock, hspan⟩ := (mem_closed_iff horder hcontent).1 hr
      exact ⟨above, l, below, hsplit, hblock, hspan⟩
  · rintro ⟨above, l, below, hscope⟩
    have horder := linesOf_inOrder cs
    rw [hscope.split] at horder
    exact .inr (.inr ⟨above, l, below, hscope.split, hscope.isContent,
      (mem_closed_iff horder hscope.isContent).2 ⟨hscope.block, hscope.span⟩⟩)

/-! ## Headers and scopes -/

/-- Two places in a list: the same, or one before the other. -/
theorem split_cases {α : Type} {above below above' below' : List α} {h l : α}
    (heq : above ++ h :: below = above' ++ l :: below') :
    (above = above' ∧ h = l ∧ below = below') ∨
      (∃ between, above' = above ++ h :: between ∧ below = between ++ l :: below') ∨
      ∃ between, above = above' ++ l :: between ∧ below' = between ++ h :: below := by
  rcases List.append_eq_append_iff.1 heq with ⟨more, hfront, hback⟩ | ⟨more, hfront, hback⟩
  · cases more with
    | nil =>
      cases hback
      exact .inl ⟨by simpa using hfront.symm, rfl, rfl⟩
    | cons x more =>
      cases hback
      exact .inr (.inl ⟨more, hfront, rfl⟩)
  · cases more with
    | nil =>
      cases hback
      exact .inl ⟨by simpa using hfront, rfl, rfl⟩
    | cons x more =>
      cases hback
      exact .inr (.inr ⟨more, hfront, rfl⟩)

section Tree

variable {cs : List Char} {above below above' below' : List Line} {h h' : Line} {r r' : RawScope}

/-- Later lines start later. -/
theorem bodyStart_lt (hsplit : linesOf cs = above ++ h :: below) (hmem : h' ∈ below) :
    h.bodyStart < h'.bodyStart := by
  have horder := linesOf_inOrder cs
  rw [hsplit] at horder
  have hnext := horder.after.2.1 h' hmem
  have hstop := h.bodyStart_add
  have hbody := h'.start_le_bodyStart
  omega

/-- A header is known by where it starts. -/
theorem HeaderScope.eq_of_start (hscope : HeaderScope cs above h below r)
    (hscope' : HeaderScope cs above' h' below' r') (hstart : r.span.start = r'.span.start) :
    h = h' ∧ r = r' := by
  have hbody : h.bodyStart = h'.bodyStart := by
    rw [hscope.span, hscope'.span] at hstart
    exact hstart
  rcases split_cases (hscope.split.symm.trans hscope'.split) with
    ⟨rfl, rfl, rfl⟩ | ⟨between, -, hbelow⟩ | ⟨between, -, hbelow⟩
  · refine ⟨rfl, ?_⟩
    have hblock := hscope.block.symm.trans hscope'.block
    have hspan := hscope.span.trans hscope'.span.symm
    cases r
    cases r'
    simp only [Block.scope.injEq] at hblock hspan
    obtain ⟨rfl, rfl, rfl, rfl⟩ := hblock
    rw [hspan]
  · have hlater : h.bodyStart < h'.bodyStart := bodyStart_lt hscope.split (by simp [hbelow])
    omega
  · have hlater : h'.bodyStart < h.bodyStart := bodyStart_lt hscope'.split (by simp [hbelow])
    omega

/-- A header above a content line reaches it exactly if all content between them, and the line, is
indented deeper. -/
theorem HeaderScope.holds_iff {between : List Line} {l : Line}
    (hscope : HeaderScope cs above h (between ++ l :: below) r) (hl : l.isContent = true) :
    r.span.holds l.bodyStart = true ↔
      h.indent < l.indent ∧ ∀ x ∈ between, x.isContent = true → h.indent < x.indent := by
  have horder := linesOf_inOrder cs
  rw [hscope.split] at horder
  obtain ⟨hrest, hnext, -⟩ := horder.after
  have hstart : h.bodyStart < l.bodyStart := bodyStart_lt hscope.split (by simp)
  rw [Span.holds_iff, hscope.span, ← lt_blockStop_iff hrest hl fun x hx =>
    Nat.le_of_lt (hnext x hx)]
  exact and_iff_right (Nat.le_of_lt hstart)

theorem HeaderScope.holds_self (hscope : HeaderScope cs above h below r) :
    r.span.holds h.bodyStart = true := by
  have horder := linesOf_inOrder cs
  rw [hscope.split] at horder
  obtain ⟨hrest, hnext, hsize⟩ := horder.after
  have hstop := reached_le_blockStop hrest h.indent (fun x hx => Nat.le_of_lt (hnext x hx)) hsize
  have hlt := h.bodyStart_lt_stop hscope.isContent
  rw [Span.holds_iff, hscope.span]
  exact ⟨Nat.le_refl _, Nat.lt_of_lt_of_le hlt hstop⟩

theorem nested_outlineTree (language : Language) (lifecycle : Lifecycle) (cs : List Char) :
    ScopeTree.Nested (byteSize cs) (outlineTree language lifecycle cs) :=
  ScopeTree.nested_build _ _ _ _

theorem kept_outlineTree (language : Language) (lifecycle : Lifecycle) (cs : List Char) :
    ScopeTree.Kept (byteSize cs) (outline language cs) (outlineTree language lifecycle cs) :=
  (outline_proper language cs).kept false lifecycle

theorem classify_header (lifecycle : Lifecycle) (parent : Scope.Kind) {r : RawScope}
    (h : r.kind ≠ .closure) :
    (ScopeTree.classify lifecycle parent r).2 = r.name ∧
      ((ScopeTree.classify lifecycle parent r).1 = .classLike ↔ r.kind = .classLike) := by
  cases hkind : r.kind with
  | closure => exact absurd hkind h
  | classLike => simp [ScopeTree.classify, hkind]
  | function =>
    have hhook : (r.callee.filter fun _ => false) = none := by
      cases r.callee <;> rfl
    simp only [ScopeTree.classify, hkind]
    simp only [show (RawKind.function == RawKind.closure) = false from rfl, Bool.false_and, hhook]
    split
    · simp
    · split <;> simp

/-- Nothing is cut off, so a scope has the span of a header, and then comes from it. -/
theorem exists_headerScope (hs : ∀ l ∈ linesOf cs, l.IsStraight) (lifecycle : Lifecycle) {i : Nat}
    (hi : i < (outlineTree .python lifecycle cs).scopes.length) (hne : i ≠ 0) :
    ∃ above h below r, HeaderScope cs above h below r ∧
      ((outlineTree .python lifecycle cs).get i).span = r.span ∧
      ((outlineTree .python lifecycle cs).get i).name = r.name ∧
      (((outlineTree .python lifecycle cs).get i).kind = .classLike ↔ r.kind = .classLike) := by
  have hid := (nested_outlineTree .python lifecycle cs).id_eq i hi
  obtain ⟨r, hr, hspan⟩ : ∃ r ∈ (outline .python cs).scopes,
      r.span = ((outlineTree .python lifecycle cs).get i).span := by
    obtain ⟨inner, hinner, hperm⟩ := (kept_outlineTree .python lifecycle cs).scopes
    have hmem := ScopeTree.mem_scopes_iff.2 ⟨i, hi, rfl⟩
    rw [hinner] at hmem
    rcases List.mem_cons.1 hmem with hroot | hmem
    · rw [hroot] at hid
      exact absurd hid.symm hne
    · exact List.mem_map.1 (hperm.mem_iff.1 (List.mem_map_of_mem hmem))
  obtain ⟨above, h, below, hscope⟩ := (mem_outline_iff hs).1 hr
  obtain ⟨s, hnest, hget⟩ := List.mem_map.1 (ScopeTree.mem_scopes_iff.2 ⟨i, hi, rfl⟩)
  rcases ScopeTree.mem_nest hnest with rfl | ⟨r', hr', id, parent, rfl⟩
  · rw [← hget] at hid
    exact absurd hid.symm hne
  · obtain ⟨above', h', below', hscope'⟩ := (mem_outline_iff hs).1 hr'
    have hstart : r.span.start = r'.span.start := by
      rw [hspan, ← hget]
      rfl
    obtain ⟨-, rfl⟩ := hscope.eq_of_start hscope' hstart
    refine ⟨above, h, below, r, hscope, hspan.symm, ?_⟩
    rw [← hget]
    exact classify_header lifecycle parent.kind (header_of_lineBlock hscope.block).1

theorem exists_scope (lifecycle : Lifecycle) (hr : r ∈ (outline .python cs).scopes) :
    ∃ i < (outlineTree .python lifecycle cs).scopes.length, i ≠ 0 ∧
      ((outlineTree .python lifecycle cs).get i).span = r.span := by
  obtain ⟨inner, hinner, hperm⟩ := (kept_outlineTree .python lifecycle cs).scopes
  obtain ⟨s, hs, hspan⟩ := List.mem_map.1 (hperm.symm.mem_iff.1 (List.mem_map_of_mem hr))
  obtain ⟨i, hi, rfl⟩ := List.getElem_of_mem hs
  have hlt : i + 1 < (outlineTree .python lifecycle cs).scopes.length := by
    rw [hinner]
    simpa using hi
  refine ⟨i + 1, hlt, Nat.succ_ne_zero i, ?_⟩
  rw [ScopeTree.get_eq_getElem hlt, ← hspan]
  simp only [hinner, List.getElem_cons_succ]

end Tree

/-- The line stands under the header: both it and all content between them are indented deeper. -/
structure Heads (h : Line) (between : List Line) (l : Line) : Prop where
  header : h.isHeader = true
  deeper : h.indent < l.indent
  between_deeper : ∀ x ∈ between, x.isContent = true → h.indent < x.indent

/-- Scope `i` is the one that a header opens: the only one below the whole file that starts with
the header, of the header's kind and name. -/
structure Opens (t : ScopeTree) (h : Line) (i : Nat) : Prop where
  known : i < t.scopes.length
  inner : i ≠ 0
  start : (t.get i).span.start = h.bodyStart
  only : ∀ j < t.scopes.length, j ≠ 0 → (t.get j).span.start = h.bodyStart → j = i
  block : ∃ kind, lineBlock h.trimmed = .scope kind (t.get i).name none false ∧
    ((t.get i).kind = .classLike ↔ kind = .classLike)

section Belonging

variable {cs : List Char} {above below : List Line} {h l : Line} {r : RawScope}
  {lifecycle : Lifecycle} {i j : Nat}

theorem exists_headerScope_of_isHeader (hlines : linesOf cs = above ++ h :: below)
    (hheader : h.isHeader = true) : ∃ r, HeaderScope cs above h below r := by
  obtain ⟨kind, name, callee, returned, hblock⟩ := Line.isHeader_iff.1 hheader
  exact ⟨⟨kind, ⟨h.bodyStart, blockStop h.indent (byteSize cs) h.stop below⟩, name, callee,
    returned⟩, hlines, hblock, rfl⟩

/-- Scopes with one span are the same, the whole file apart. -/
theorem eq_of_span (hi : i < (outlineTree .python lifecycle cs).scopes.length)
    (hj : j < (outlineTree .python lifecycle cs).scopes.length) (hi0 : i ≠ 0) (hj0 : j ≠ 0)
    (hspan : ((outlineTree .python lifecycle cs).get i).span =
      ((outlineTree .python lifecycle cs).get j).span) : i = j := by
  obtain ⟨inner, hinner, hperm⟩ := (kept_outlineTree .python lifecycle cs).scopes
  have hnodup : (inner.map (·.span)).Nodup := by
    refine hperm.nodup_iff.2 (List.pairwise_map.2 ?_)
    exact (outline_proper .python cs).nested.imp And.left
  obtain ⟨i, rfl⟩ := Nat.exists_eq_succ_of_ne_zero hi0
  obtain ⟨j, rfl⟩ := Nat.exists_eq_succ_of_ne_zero hj0
  rw [ScopeTree.get_eq_getElem hi, ScopeTree.get_eq_getElem hj] at hspan
  simp only [hinner, List.length_cons, Nat.succ_eq_add_one, List.getElem_cons_succ,
    Nat.add_lt_add_iff_right] at hi hj hspan
  have hnth : (inner.map (·.span))[i]? = (inner.map (·.span))[j]? := by
    simp [hi, hj, hspan]
  rw [(List.getElem?_inj (by simpa using hi) hnodup).1 hnth]

theorem HeaderScope.opens (hs : ∀ l ∈ linesOf cs, l.IsStraight)
    (hscope : HeaderScope cs above h below r)
    (hi : i < (outlineTree .python lifecycle cs).scopes.length) (hne : i ≠ 0)
    (hspan : ((outlineTree .python lifecycle cs).get i).span = r.span) :
    Opens (outlineTree .python lifecycle cs) h i := by
  have hstart : r.span.start = h.bodyStart := congrArg Span.start hscope.span
  obtain ⟨_, _, _, r', hscope', hspan', hname, hkind⟩ := exists_headerScope hs lifecycle hi hne
  obtain ⟨-, rfl⟩ := hscope.eq_of_start hscope' (by rw [← hspan, hspan'])
  refine ⟨hi, hne, by rw [hspan, hstart], ?_, ?_⟩
  · intro j hj hj0 hjstart
    obtain ⟨_, _, _, q, hq, hjspan, -⟩ := exists_headerScope hs lifecycle hj hj0
    obtain ⟨-, rfl⟩ := hscope.eq_of_start hq (by rw [hstart, ← hjstart, hjspan])
    exact eq_of_span hj hi hj0 hne (hjspan.trans hspan.symm)
  · refine ⟨r.kind, ?_, hkind⟩
    obtain ⟨-, hcallee, hreturned⟩ := header_of_lineBlock hscope.block
    rw [hscope.block, hname, hcallee, hreturned]

/-- A header that reaches an offset is the innermost scope there or outside of it. -/
theorem HeaderScope.start_le (hs : ∀ l ∈ linesOf cs, l.IsStraight)
    (hscope : HeaderScope cs above h below r) {offset : Nat}
    (hholds : r.span.holds offset = true) :
    (outlineTree .python lifecycle cs).scopeAt offset ≠ 0 ∧
      h.bodyStart ≤ ((outlineTree .python lifecycle cs).get
        ((outlineTree .python lifecycle cs).scopeAt offset)).span.start := by
  have hnested := nested_outlineTree .python lifecycle cs
  have hproper := outline_proper .python cs
  have hr : r ∈ (outline .python cs).scopes := (mem_outline_iff hs).2 ⟨above, h, below, hscope⟩
  have hstart : r.span.start = h.bodyStart := congrArg Span.start hscope.span
  have hinside : offset < byteSize cs :=
    Nat.lt_of_lt_of_le (Span.holds_iff.1 hholds).2 (hproper.scopes r hr).inside
  obtain ⟨j, hj, hj0, hspan⟩ := exists_scope lifecycle hr
  have hinner := (hnested.scopeAt_mem hinside).2.2 j hj (by rw [hspan]; exact hholds)
  constructor
  · intro hroot
    rw [hroot] at hinner
    have habove : 0 ∈ (outlineTree .python lifecycle cs).ancestors j :=
      (List.mem_cons.1 (hnested.root_mem_lineage hj)).resolve_left (Ne.symm hj0)
    exact hinner (hnested.isInner_of_mem_ancestors hj habove)
  · rw [ScopeTree.isInner_iff, hspan, hstart] at hinner
    omega

end Belonging

/-- The scope at a content line of a straight text is the one that the line opens. A line that opens
none lies in the scope of the last header that it stands under, and without one in the whole
file. -/
theorem scopeAt_indented (lifecycle : Lifecycle) {cs : List Char}
    (hs : ∀ l ∈ linesOf cs, l.IsStraight) {above below : List Line} {l : Line}
    (hlines : linesOf cs = above ++ l :: below) (hl : l.isContent = true) :
    let t := outlineTree .python lifecycle cs
    (l.isHeader = true → Opens t l (t.scopeAt l.bodyStart)) ∧
      (l.isHeader = false →
        (∃ front h between, above = front ++ h :: between ∧ Heads h between l ∧
          (∀ front' h' between', between = front' ++ h' :: between' → ¬Heads h' between' l) ∧
          Opens t h (t.scopeAt l.bodyStart)) ∨
        (∀ front h between, above = front ++ h :: between → ¬Heads h between l) ∧
          t.scopeAt l.bodyStart = 0) := by
  intro t
  have hinside : l.bodyStart < byteSize cs := by
    have hstop := (linesOf_inOrder cs).inside l (by rw [hlines]; simp)
    exact Nat.lt_of_lt_of_le (l.bodyStart_lt_stop hl) hstop
  obtain ⟨hi, hholds, -⟩ := (nested_outlineTree .python lifecycle cs).scopeAt_mem hinside
  -- a header that the line stands under has a scope that holds the line
  have hheads : ∀ front h between, above = front ++ h :: between → Heads h between l →
      t.scopeAt l.bodyStart ≠ 0 ∧ h.bodyStart ≤ (t.get (t.scopeAt l.bodyStart)).span.start := by
    rintro front h between rfl hheads
    have hsplit : linesOf cs = front ++ h :: (between ++ l :: below) := by simp [hlines]
    obtain ⟨r, hscope⟩ := exists_headerScope_of_isHeader hsplit hheads.header
    exact hscope.start_le hs ((hscope.holds_iff hl).2 ⟨hheads.deeper, hheads.between_deeper⟩)
  have hown : l.isHeader = true →
      t.scopeAt l.bodyStart ≠ 0 ∧ l.bodyStart ≤ (t.get (t.scopeAt l.bodyStart)).span.start := by
    intro hheader
    obtain ⟨r, hscope⟩ := exists_headerScope_of_isHeader hlines hheader
    exact hscope.start_le hs hscope.holds_self
  by_cases hroot : t.scopeAt l.bodyStart = 0
  · refine ⟨fun hheader => absurd hroot (hown hheader).1, fun _ => .inr ⟨?_, hroot⟩⟩
    intro front h between hsplit hh
    exact (hheads front h between hsplit hh).1 hroot
  · obtain ⟨front, h, back, r, hscope, hspan, -⟩ := exists_headerScope hs lifecycle hi hroot
    have hopens := hscope.opens hs hi hroot hspan
    have hstart : (t.get (t.scopeAt l.bodyStart)).span.start = h.bodyStart := hopens.start
    rw [hspan] at hholds
    rcases split_cases (hscope.split.symm.trans hlines) with
      ⟨-, rfl, -⟩ | ⟨between, habove, rfl⟩ | ⟨between, -, hbelow⟩
    · refine ⟨fun _ => hopens, fun hno => ?_⟩
      rw [Line.isHeader_iff.2 ⟨_, _, _, _, hscope.block⟩] at hno
      cases hno
    · have hlater : h.bodyStart < l.bodyStart := bodyStart_lt hscope.split (by simp)
      obtain ⟨hdeeper, hbetween⟩ := (hscope.holds_iff hl).1 hholds
      refine ⟨fun hheader => ?_, fun _ => .inl ⟨front, h, between, habove,
        ⟨Line.isHeader_iff.2 ⟨_, _, _, _, hscope.block⟩, hdeeper, hbetween⟩, ?_, hopens⟩⟩
      · have := (hown hheader).2
        omega
      · rintro front' h' between' rfl hh
        have hinner := (hheads (front ++ h :: front') h' between' (by simp [habove]) hh).2
        have hlater' : h.bodyStart < h'.bodyStart := bodyStart_lt hscope.split (by simp)
        omega
    · have hlater : l.bodyStart < h.bodyStart := bodyStart_lt hlines (by simp [hbelow])
      rw [Span.holds_iff, hscope.span] at hholds
      exact absurd hholds.1 (Nat.not_le.2 hlater)

/-- A method of a class with a comment and a blank line that are not indented, and two lines after
it that are indented less. -/
def clockText : List Char :=
  ("class Clock:\n  def tick(self):\n    now = 1\n# later\n\n    self.t = now\n" ++
    "  rate = 2\nrun = 3\n").toList

def tickLine : Line := ⟨13, "  def tick(self):".toList⟩

def tickBody : List Line := ((linesOf clockText).take 5).drop 2

def clockLine : Line := ⟨52, "    self.t = now".toList⟩

theorem clock_line_in_method :
    (∀ l ∈ linesOf clockText, l.IsStraight) ∧
      linesOf clockText = (linesOf clockText).take 1 ++ tickLine :: tickBody ++
        clockLine :: (linesOf clockText).drop 6 ∧
      clockLine.isContent = true ∧ clockLine.isHeader = false ∧
      Opens (outlineTree .python {} clockText) tickLine
        ((outlineTree .python {} clockText).scopeAt clockLine.bodyStart) := by
  have hs : ∀ l ∈ linesOf clockText, l.IsStraight := by
    have hlines : ∀ l ∈ linesOf clockText, bracketDelta l.text = 0 ∧
        ['"', '\''].all (fun quote => !occursIn [quote, quote, quote] l.text) = true ∧
        wordPlaces "lambda".toList none 0 l.text = [] := by decide +kernel
    refine fun l hl => ⟨(hlines l hl).1, fun quote hquote => ?_, (hlines l hl).2.2⟩
    simpa using List.all_eq_true.1 (hlines l hl).2.1 quote hquote
  have hsplit : linesOf clockText = (linesOf clockText).take 1 ++ tickLine :: tickBody ++
      clockLine :: (linesOf clockText).drop 6 := by decide +kernel
  have hl : clockLine.isContent = true := by decide +kernel
  have hno : clockLine.isHeader = false := by decide +kernel
  have htick : Heads tickLine tickBody clockLine :=
    ⟨by decide +kernel, by decide +kernel, by decide +kernel⟩
  have hplain : ∀ x ∈ tickBody, x.isHeader = false := by decide +kernel
  refine ⟨hs, hsplit, hl, hno, ?_⟩
  rcases (scopeAt_indented {} hs hsplit hl).2 hno with
    ⟨front, h, between, habove, hheads, hlast, hopens⟩ | ⟨hnone, -⟩
  · rcases split_cases habove with ⟨-, rfl, -⟩ | ⟨more, -, hbody⟩ | ⟨more, -, hbody⟩
    · exact hopens
    · have hheader := hplain h (by rw [hbody]; simp)
      rw [hheads.header] at hheader
      cases hheader
    · exact absurd htick (hlast more tickLine tickBody hbody)
  · exact absurd htick (hnone _ _ _ rfl)

end LeakScan.Scope.Outline
