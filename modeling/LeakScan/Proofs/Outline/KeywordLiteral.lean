import LeakScan.Proofs.Outline.IndentLiteral
import LeakScan.Scope.Outline.Keywords

/-!
# LeakScan.Proofs.Outline.KeywordLiteral

A line of a text with keyword blocks reads the same whatever quiet content a string literal of it
has.

* `KeywordQuiet` — contents that close no argument list and no parameter list, start no comment and
  no call, and hold no ` = `.
* `Exchange.Stops`, `Exchange.Fails` — expressions that do not leave a content, and those that fail
  in it.
* `opens?_exchange` — what a line opens.
* `KeywordState.step_exchange` — so one line leads to the same state.
-/

namespace LeakScan

open Text

namespace Text.Exchange

open Regex

/-! ## Expressions inside a content -/

/-- The expression does not lead out of the content. -/
def Stops (x : Exchange) (content : List Char) (r : Regex) : Prop :=
  ∀ ⦃k : Cont⦄, (∀ ⦃u⦄, x.Within content u → k u = none) →
    ∀ ⦃t⦄, x.Within content t → run r k t = none

/-- The expression does not match anywhere in the content. -/
def Fails (x : Exchange) (content : List Char) (r : Regex) : Prop :=
  ∀ ⦃k : Cont⦄ ⦃t⦄, x.Within content t → run r k t = none

variable {x : Exchange} {content : List Char} {r : Regex} {rs : List Regex}

theorem stops_of_readsNoQuote (h : r.readsNoQuote = true) : x.Stops content r :=
  fun _ hk _ ht => run_within h hk ht

theorem Fails.stops_opt (h : x.Fails content r) : x.Stops content (opt r) := by
  intro k hk t ht
  rw [opt, run_alt, h ht, Option.none_or]
  exact hk ht

theorem Stops.fails_cons (h : x.Stops content r) (hrs : x.Fails content (seqs rs)) :
    x.Fails content (seqs (r :: rs)) := by
  intro k t ht
  rw [run_seqs_cons]
  exact h (fun _ hu => hrs hu) ht

theorem Fails.cons (h : x.Fails content r) : x.Fails content (seqs (r :: rs)) := by
  intro k t ht
  rw [run_seqs_cons]
  exact h ht

theorem fails_char {c : CharClass} (hquote : c.contains x.quote = false)
    (hcontent : ∀ d ∈ content, c.contains d = false) : x.Fails content (.char c) := by
  rintro k t ⟨rest, hsuffix, hrest⟩
  cases rest with
  | nil => rw [run_char_cons hrest, if_neg (by simp [hquote])]
  | cons d rest =>
    rw [run_char_cons hrest, if_neg (by simp [hcontent d (hsuffix.subset List.mem_cons_self)])]

/-- The closing quote stands between the content and the end of the text. -/
theorem fails_textEnd : x.Fails content (.anchor .textEnd) := by
  rintro k t ⟨rest, _, hrest⟩
  rw [run, if_neg]
  cases rest <;> simp [Anchor.holds, hrest]

end Text.Exchange

namespace Scope.Outline

open Regex

structure KeywordQuiet (content : List Char) : Prop where
  noClose : ')' ∉ content
  noBar : '|' ∉ content
  noComment : occursIn [' ', '#'] content = false
  noAssignment : occursIn [' ', '=', ' '] content = false
  noCall : '(' ∉ content ∨ ∀ c ∈ content, nameStart.contains c = false

/-! ## What a line opens -/

theorem not_contains_one {c : Char} {content : List Char} (h : c ∉ content) :
    ∀ d ∈ content, (CharClass.one c).contains d = false := by
  intro d hd
  rw [contains_one, beq_eq_false_iff_ne]
  rintro rfl
  exact h hd

/-- The name of a call stands in the content with its argument list, or not at all. -/
theorem doLine_fails {x : Exchange} {content : List Char} (h : KeywordQuiet content) :
    x.Fails content doLine := by
  have hclass : ∀ c : CharClass, c.contains '"' = false → c.contains '\'' = false →
      (∀ d ∈ content, c.contains d = false) → x.Fails content (.char c) := fun c hdouble hsingle =>
    Exchange.fails_char (x.isQuote.not_mem hdouble hsingle)
  have hbar : x.Fails content (seqs [one '|', many (noneOf "|"), one '|']) :=
    (hclass _ (by decide) (by decide) (not_contains_one h.noBar)).cons
  have hstops : ∀ r : Regex, r.readsNoQuote = true → x.Stops content r := fun _ =>
    Exchange.stops_of_readsNoQuote
  refine (hstops _ (by decide +kernel)).fails_cons ?_
  rcases h.noCall with hopen | hname
  · have hparen : x.Fails content parenthesised :=
      (hclass _ (by decide) (by decide) (not_contains_one hopen)).cons
    refine (hstops _ (by decide +kernel)).fails_cons <| (hstops _ (by decide +kernel)).fails_cons <|
      hparen.stops_opt.fails_cons <| (hstops _ (by decide +kernel)).fails_cons <|
      (hstops _ (by decide +kernel)).fails_cons <| (hstops _ (by decide +kernel)).fails_cons <|
      hbar.stops_opt.fails_cons <| (hstops _ (by decide +kernel)).fails_cons ?_
    exact Exchange.fails_textEnd
  · have hgroup : x.Fails content
        (.group "name" (seqs [.char nameStart, many word, opt (chars "?!")])) := by
      intro k t ht
      exact (hclass _ (by decide) (by decide) hname).cons ht
    exact hgroup.cons

theorem doLine_exchange {x : Exchange} (hleft : KeywordQuiet x.left)
    (hright : KeywordQuiet x.right) :
    Exchange.SameMatch x.Outside (doLine.find? x.first) (doLine.find? x.second) := by
  have htracks : ∀ r : Regex, r.readsNoQuote = true → x.Tracks x.Outside r := fun _ =>
    Exchange.tracks_of_readsNoQuote fun _ h => h
  have hparen : x.Tracks x.Outside parenthesised :=
    Exchange.tracks_enclosed rfl (fun _ h => h) (by decide) (by decide) hleft.noClose hright.noClose
  have hbars : x.Tracks x.Outside (seqs [one '|', many (noneOf "|"), one '|']) :=
    Exchange.tracks_enclosed rfl (fun _ h => h) (by decide) (by decide) hleft.noBar hright.noBar
  have hline : x.Tracks x.Outside doLine :=
    (htracks _ (by decide +kernel)).cons <| (htracks _ (by decide +kernel)).cons <|
    (htracks _ (by decide +kernel)).cons <| hparen.opt.cons <|
    (htracks _ (by decide +kernel)).cons <| (htracks _ (by decide +kernel)).cons <|
    (htracks _ (by decide +kernel)).cons <| hbars.opt.cons <|
    (htracks _ (by decide +kernel)).cons <| htracks _ (by decide +kernel)
  exact Exchange.find?_agree hline (fun _ ht => doLine_fails hleft ht)
    fun _ ht => doLine_fails hright ht

theorem keywordBlock?_exchange {x : Exchange} (hleft : KeywordQuiet x.left)
    (hright : KeywordQuiet x.right) (keyword : String) (name : List Char) :
    keywordBlock? keyword name x.first = keywordBlock? keyword name x.second := by
  have hquote : x.quote ∉ [' ', '=', ' '] := quote_not_mem x (by decide) (by decide)
  have hassignment : occursIn [' ', '=', ' '] x.first = occursIn [' ', '=', ' '] x.second := by
    rw [Exchange.first, Exchange.second, occursIn_withLiteral _ _ hquote (by simp),
      occursIn_withLiteral _ _ hquote (by simp), hleft.noAssignment, hright.noAssignment]
  rw [keywordBlock?, keywordBlock?, hassignment, x.getLast?_eq]

theorem opens?_exchange {x : Exchange} (hleft : KeywordQuiet x.left)
    (hright : KeywordQuiet x.right) : opens? x.first = opens? x.second := by
  have hopening : Exchange.SameMatch x.Outside (openingLine.find? x.first)
      (openingLine.find? x.second) :=
    Exchange.find?_readsNoQuote (by decide +kernel)
  have hdo := doLine_exchange hleft hright
  rw [opens?, opens?, ← hopening.eq, ← hdo.eq, returnLine_exchange x]
  cases hm : openingLine.find? x.first with
  | some m =>
    simp only [Exchange.groupText?_eq hopening hm, keywordBlock?_exchange hleft hright]
  | none =>
    cases hm : doLine.find? x.first with
    | some m => simp only [nameOf_exchange hdo hm]
    | none => rfl

/-! ## Comments and ends -/

/-- A comment starts on one side of a character that is no part of its start. -/
theorem beforeComment_cut {c : Char} (hblank : c ≠ ' ') (hmark : c ≠ '#')
    (front back : List Char) :
    beforeComment (front ++ c :: back) =
      if occursIn [' ', '#'] front then beforeComment front
      else front ++ c :: beforeComment back := by
  induction front with
  | nil => simp [beforeComment, occursIn, hblank]
  | cons d front ih =>
    have hhead : ((front ++ c :: back).head? == some '#') = (front.head? == some '#') := by
      cases front with
      | nil => simpa using hmark
      | cons e front => rfl
    have hstart : startsWith [' ', '#'] (d :: front) = (d == ' ' && front.head? == some '#') := by
      by_cases hd : ' ' = d
      · subst hd
        cases front with
        | nil => rfl
        | cons e front =>
          by_cases he : '#' = e
          · subst he
            rfl
          · simp [startsWith, stripPrefix?, he, Ne.symm he]
      · simp [startsWith, stripPrefix?, hd, Ne.symm hd]
    rw [List.cons_append, beforeComment, hhead, ih, occursIn, hstart]
    by_cases hcut : (d == ' ' && front.head? == some '#') = true
    · simp only [hcut, Bool.true_or, if_true, beforeComment]
    · have hgoes := Bool.eq_false_iff.2 hcut
      simp only [hgoes, Bool.false_or, Bool.false_eq_true, if_false, beforeComment]
      split <;> rfl

/-- The texts before their comments are the same, or differ in the literal only. -/
theorem beforeComment_exchange {x : Exchange} (hleft : KeywordQuiet x.left)
    (hright : KeywordQuiet x.right) :
    beforeComment x.first = beforeComment x.second ∨
      ∃ back, beforeComment x.first = (x.before back).first ∧
        beforeComment x.second = (x.before back).second := by
  have hblank : x.quote ≠ ' ' := x.isQuote.ne (by decide) (by decide)
  have hmark : x.quote ≠ '#' := x.isQuote.ne (by decide) (by decide)
  have hcut : ∀ content, KeywordQuiet content →
      beforeComment (withLiteral x.front x.quote content x.back) =
        if occursIn [' ', '#'] x.front then beforeComment x.front
        else withLiteral x.front x.quote content (beforeComment x.back) := by
    intro content hquiet
    rw [withLiteral, beforeComment_cut hblank hmark, beforeComment_cut hblank hmark,
      hquiet.noComment]
    rfl
  rw [Exchange.first, Exchange.second, hcut _ hleft, hcut _ hright]
  split
  · exact .inl rfl
  · exact .inr ⟨beforeComment x.back, rfl, rfl⟩

theorem endsBlock_exchange (x : Exchange) : endsBlock x.first = endsBlock x.second := by
  have hsuffix : ∀ {needle content : List Char}, x.quote ∉ needle →
      (stripSuffix? needle (withLiteral x.front x.quote content x.back)).isSome =
        (stripSuffix? needle x.back).isSome := by
    intro needle content h
    rw [withLiteral, stripSuffix?_cut h, stripSuffix?_cut h]
  have hspace : x.quote ∉ " end".toList := quote_not_mem x (by decide) (by decide)
  have hsemicolon : x.quote ∉ ";end".toList := quote_not_mem x (by decide) (by decide)
  rw [endsBlock, endsBlock, Exchange.first, Exchange.second, hsuffix hspace, hsuffix hsemicolon,
    hsuffix hspace, hsuffix hsemicolon]

theorem isEndLine_exchange (x : Exchange) : isEndLine x.first = isEndLine x.second := by
  have hword : x.quote ∉ "end".toList := quote_not_mem x (by decide) (by decide)
  have hfirst : (x.first == "end".toList) = false :=
    beq_eq_false_iff_ne.2 (withLiteral_ne _ _ hword)
  have hsecond : (x.second == "end".toList) = false :=
    beq_eq_false_iff_ne.2 (withLiteral_ne _ _ hword)
  rw [isEndLine, isEndLine, hfirst, hsecond,
    x.startsWith_eq (quote_not_mem x (by decide) (by decide)),
    x.startsWith_eq (quote_not_mem x (by decide) (by decide))]

theorem KeywordState.step_exchange {x : Exchange} (hleft : KeywordQuiet x.left)
    (hright : KeywordQuiet x.right) (st : KeywordState) (start : Nat) :
    st.step ⟨start, x.first⟩ = st.step ⟨start, x.second⟩ := by
  have hstop : (Line.mk start x.first).stop = (Line.mk start x.second).stop := by
    simp only [Line.stop, x.byteSize_eq]
  have hbody : (Line.mk start x.first).bodyStart = (Line.mk start x.second).bodyStart := by
    simp only [Line.bodyStart, x.takeWhile_eq x.isQuote.not_blank]
  rcases beforeComment_exchange hleft hright with hsame | ⟨back, hfirst, hsecond⟩
  · simp only [KeywordState.step, hsame, hstop, hbody]
  · let w := (x.before back).trimmed
    have hword : w.quote ∉ "ensure".toList := quote_not_mem w (by decide) (by decide)
    have hensure : (w.first == "ensure".toList) = false ∧ (w.second == "ensure".toList) = false :=
      ⟨beq_eq_false_iff_ne.2 (withLiteral_ne _ _ hword),
        beq_eq_false_iff_ne.2 (withLiteral_ne _ _ hword)⟩
    simp only [KeywordState.step, hfirst, hsecond, (x.before back).trim_first,
      (x.before back).trim_second, hstop, hbody]
    rw [List.isEmpty_eq_false_iff.2 w.first_ne_nil, List.isEmpty_eq_false_iff.2 w.second_ne_nil,
      w.head?_eq, hensure.1, hensure.2, isEndLine_exchange w, endsBlock_exchange w,
      opens?_exchange (x := w) hleft hright]

end Scope.Outline

end LeakScan
