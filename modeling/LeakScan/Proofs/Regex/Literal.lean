import LeakScan.Proofs.Regex.Run
import LeakScan.Proofs.Text.Literal

/-!
# LeakScan.Proofs.Regex.Literal

Searches of two texts that differ in the content of one string literal.

* `Exchange.Abreast` — cursors at the same place of both texts, ahead of the literal or beyond it.
* `Exchange.Tracks` — an expression that takes threads abreast to threads abreast. Expressions that
  read no quote do (`tracks_of_readsNoQuote`), and so does a stretch up to a closing character that
  the contents do not hold (`tracks_enclosed`).
* `find?_anchored`, `find?_agree` — such expressions find the same match in both texts.
-/

namespace LeakScan

open Text

namespace Regex

/-- Expressions that read no quote and repeat single characters only. -/
def readsNoQuote : Regex → Bool
  | .empty => true
  | .char k => !k.contains '"' && !k.contains '\''
  | .anchor _ => true
  | .seq a b => a.readsNoQuote && b.readsNoQuote
  | .alt a b => a.readsNoQuote && b.readsNoQuote
  | .star greedy (.char k) => greedy && !k.contains '"' && !k.contains '\''
  | .star _ _ => false
  | .rep _ _ _ _ => false
  | .group _ r => r.readsNoQuote

theorem contains_ofList (cs : List Char) (c : Char) :
    (CharClass.ofList cs).contains c = cs.contains c := by
  induction cs with
  | nil => rfl
  | cons d cs ih =>
    have hone : (CharClass.one d).contains c = (c == d) := by
      rw [contains_one, Bool.eq_iff_iff, beq_iff_eq, beq_iff_eq, eq_comm]
    cases cs with
    | nil => rw [CharClass.ofList, hone, List.contains_cons, List.contains_nil, Bool.or_false]
    | cons e cs =>
      rw [List.contains_cons, ← ih, ← hone]
      rfl

theorem contains_noneOf (s : String) (c : Char) :
    (CharClass.noneOf s).contains c = !s.toList.contains c := by
  rw [CharClass.noneOf, CharClass.contains, CharClass.ofChars, contains_ofList]

theorem run_alt (a b : Regex) (k : Cont) (t : Thread) :
    run (.alt a b) k t = (run a k t).or (run b k t) := by
  rw [run]
  cases run a k t <;> rfl

theorem run_plus (r : Regex) (k : Cont) (t : Thread) :
    run (plus r) k t = run r (run (many r) k) t := rfl

end Regex

namespace Text.Exchange

open Regex

inductive Abreast (x : Exchange) : Bool → Cursor → Cursor → Prop where
  | ahead {before : Option Char} {front : List Char} {offset : Nat}
      (h : offset + byteSize front = x.place) :
      Abreast x false ⟨before, withLiteral front x.quote x.left x.back, offset⟩
        ⟨before, withLiteral front x.quote x.right x.back, offset⟩
  | beyond {p : Cursor} (h : x.reach ≤ p.offset) : Abreast x true p p

/-- Threads abreast that have closed the same groups, at spans with some property. -/
structure Paired (x : Exchange) (ok : Span → Prop) (beyond : Bool) (t u : Thread) : Prop where
  groups : t.groups = u.groups
  spans : ∀ g ∈ t.groups, ok g.2
  abreast : x.Abreast beyond t.cursor u.cursor

def Agree (x : Exchange) (ok : Span → Prop) : Option Thread → Option Thread → Prop :=
  Option.Rel fun t u => ∃ beyond, x.Paired ok beyond t u

/-- Whatever follows, if it agrees on threads abreast so does the whole. -/
def Tracks (x : Exchange) (ok : Span → Prop) (r : Regex) : Prop :=
  ∀ ⦃k k' : Cont⦄, (∀ ⦃beyond t u⦄, x.Paired ok beyond t u → x.Agree ok (k t) (k' u)) →
    ∀ ⦃beyond t u⦄, x.Paired ok beyond t u → x.Agree ok (run r k t) (run r k' u)

variable {x : Exchange} {ok : Span → Prop} {beyond : Bool} {k k' : Cont} {t u : Thread}

theorem Abreast.offset_eq {p q : Cursor} (h : x.Abreast beyond p q) : p.offset = q.offset := by
  cases h <;> rfl

theorem Abreast.offset_le {p q : Cursor} (h : x.Abreast false p q) : p.offset ≤ x.place := by
  cases h with
  | ahead hplace => exact Nat.le_of_add_right_le (Nat.le_of_eq hplace)

theorem Abreast.reach_le {p q : Cursor} (h : x.Abreast true p q) : x.reach ≤ p.offset := by
  cases h with
  | beyond hreach => exact hreach

theorem Abreast.holds_eq {p q : Cursor} (h : x.Abreast beyond p q) (a : Anchor) :
    a.holds p = a.holds q := by
  cases h with
  | @ahead _ front => cases front <;> rfl
  | beyond => rfl

theorem Agree.or {a b a' b' : Option Thread} (h : x.Agree ok a b) (h' : x.Agree ok a' b') :
    x.Agree ok (a.or a') (b.or b') := by
  cases h with
  | some h => exact .some h
  | none => exact h'

theorem Agree.many_cons {c : CharClass} {d : Char} {rest rest' : List Char}
    (hhere : x.Agree ok (k t) (k' u)) (ht : t.cursor.rest = d :: rest)
    (hu : u.cursor.rest = d :: rest')
    (hmore : c.contains d = true →
      x.Agree ok (run (many (.char c)) k { t with cursor := t.cursor.past [d] rest })
        (run (many (.char c)) k' { u with cursor := u.cursor.past [d] rest' })) :
    x.Agree ok (run (many (.char c)) k t) (run (many (.char c)) k' u) := by
  rw [run_many_cons ht, run_many_cons hu]
  split
  · rename_i hd
    exact (hmore hd).or hhere
  · exact hhere

/-! ## One step, and runs of one class -/

section Class

variable {c : CharClass} (hc : beyond = true ∨ c.contains x.quote = false)
  (hk : ∀ ⦃t u⦄, x.Paired ok beyond t u → x.Agree ok (k t) (k' u))

include hc hk

theorem run_char (h : x.Paired ok beyond t u) :
    x.Agree ok (run (.char c) k t) (run (.char c) k' u) := by
  obtain ⟨p, gs⟩ := t
  obtain ⟨q, gs'⟩ := u
  obtain ⟨hgroups, hspans, habreast⟩ := h
  cases habreast with
  | @ahead before front offset hplace =>
    cases front with
    | nil =>
      have hno : ¬ c.contains x.quote = true := by simpa using hc
      rw [run_char_cons rfl, run_char_cons rfl, if_neg hno, if_neg hno]
      exact .none
    | cons d front =>
      rw [run_char_cons rfl, run_char_cons rfl]
      split
      · exact hk ⟨hgroups, hspans, .ahead (by simpa [Nat.add_assoc] using hplace)⟩
      · exact .none
  | beyond hreach =>
    cases hrest : p.rest with
    | nil =>
      rw [run_char_nil hrest, run_char_nil hrest]
      exact .none
    | cons d rest =>
      rw [run_char_cons hrest, run_char_cons hrest]
      split
      · exact hk ⟨hgroups, hspans, .beyond (Nat.le_trans hreach (Nat.le_add_right _ _))⟩
      · exact .none

/-- By induction on what is left of the text, up to the literal or to the end. -/
theorem run_many (h : x.Paired ok beyond t u) :
    x.Agree ok (run (many (.char c)) k t) (run (many (.char c)) k' u) := by
  obtain ⟨p, gs⟩ := t
  obtain ⟨q, gs'⟩ := u
  have hgroups : gs = gs' := h.groups
  have hspans : ∀ g ∈ gs, ok g.2 := h.spans
  cases h.abreast with
  | @ahead before front offset hplace =>
    clear h
    induction front generalizing before offset with
    | nil =>
      have hno : c.contains x.quote = false := by simpa using hc
      refine Agree.many_cons (hk ⟨hgroups, hspans, .ahead hplace⟩) rfl rfl fun hyes => ?_
      simp [hno] at hyes
    | cons d front ih =>
      refine Agree.many_cons (hk ⟨hgroups, hspans, .ahead hplace⟩) rfl rfl fun _ => ih ?_
      simpa [Nat.add_assoc] using hplace
  | beyond hreach =>
    clear h
    obtain ⟨before, rest, offset⟩ := p
    induction rest generalizing before offset with
    | nil =>
      rw [run_many_nil rfl, run_many_nil rfl]
      exact hk ⟨hgroups, hspans, .beyond hreach⟩
    | cons d rest ih =>
      exact Agree.many_cons (hk ⟨hgroups, hspans, .beyond hreach⟩) rfl rfl
        fun _ => ih _ _ (Nat.le_trans hreach (Nat.le_add_right _ _))

end Class

/-- One case for each expression. No thread comes to the other side of the literal, so a group that
is closed stands outside it. -/
theorem run_readsNoQuote {r : Regex} (hok : ∀ span, x.Outside span → ok span)
    (hr : r.readsNoQuote = true)
    (hk : ∀ ⦃t u⦄, x.Paired ok beyond t u → x.Agree ok (k t) (k' u)) (h : x.Paired ok beyond t u) :
    x.Agree ok (run r k t) (run r k' u) := by
  induction r generalizing k k' t u with
  | empty => exact hk h
  | char c =>
    simp only [readsNoQuote, Bool.and_eq_true, Bool.not_eq_true'] at hr
    exact run_char (.inr (x.isQuote.not_mem hr.1 hr.2)) hk h
  | anchor a =>
    rw [run, run, h.abreast.holds_eq a]
    split
    · exact hk h
    · exact .none
  | seq a b iha ihb =>
    rw [readsNoQuote, Bool.and_eq_true] at hr
    exact iha hr.1 (fun _ _ h => ihb hr.2 hk h) h
  | alt a b iha ihb =>
    rw [readsNoQuote, Bool.and_eq_true] at hr
    rw [run_alt, run_alt]
    exact (iha hr.1 hk h).or (ihb hr.2 hk h)
  | star greedy r =>
    cases r with
    | char c =>
      simp only [readsNoQuote, Bool.and_eq_true, Bool.not_eq_true'] at hr
      obtain ⟨⟨rfl, hdouble⟩, hsingle⟩ := hr
      exact run_many (.inr (x.isQuote.not_mem hdouble hsingle)) hk h
    | _ => cases hr
  | rep => cases hr
  | group name r ih =>
    refine ih hr (fun v w hvw => hk ⟨?_, ?_, hvw.abreast⟩) h
    · simp only [hvw.groups, hvw.abreast.offset_eq, h.abreast.offset_eq]
    · intro g hg
      rcases List.mem_cons.1 hg with rfl | hg
      · refine hok _ ?_
        cases beyond with
        | false => exact .inl hvw.abreast.offset_le
        | true => exact .inr h.abreast.reach_le
      · exact hvw.spans g hg

theorem tracks_of_readsNoQuote {r : Regex} (hok : ∀ span, x.Outside span → ok span)
    (hr : r.readsNoQuote = true) : x.Tracks ok r :=
  fun _ _ hk _ _ _ h => run_readsNoQuote hok hr (fun _ _ h => hk h) h

theorem Tracks.cons {r : Regex} {rs : List Regex} (hr : x.Tracks ok r)
    (hrs : x.Tracks ok (seqs rs)) : x.Tracks ok (seqs (r :: rs)) := by
  intro k k' hk beyond t u h
  rw [run_seqs_cons, run_seqs_cons]
  exact hr (fun _ _ _ h => hrs hk h) h

theorem Tracks.opt {r : Regex} (hr : x.Tracks ok r) : x.Tracks ok (opt r) := by
  intro k k' hk beyond t u h
  rw [Regex.opt, run_alt, run_alt]
  exact (hr hk h).or (hk h)

/-! ## Across the literal -/

section Across

variable {c : CharClass} {d : Char} (hleft : ∀ e ∈ x.quote :: x.left, c.contains e = true ∧ e ≠ d)
  (hright : ∀ e ∈ x.quote :: x.right, c.contains e = true ∧ e ≠ d) (hawait : Awaits d k)
  (hawait' : Awaits d k')
  (hk : ∀ ⦃beyond t u⦄, x.Paired ok beyond t u → x.Agree ok (k t) (k' u))

include hleft hright hawait hawait' hk

/-- From the opening quote on, a run of one class comes out behind the closing quote. -/
theorem run_many_inside {gs : List (String × Span)} (hgs : ∀ g ∈ gs, ok g.2) :
    x.Agree ok
      (run (many (.char c)) k ⟨⟨some x.quote, x.left ++ x.quote :: x.back,
        x.place + x.quote.utf8Size⟩, gs⟩)
      (run (many (.char c)) k' ⟨⟨some x.quote, x.right ++ x.quote :: x.back,
        x.place + x.quote.utf8Size⟩, gs⟩) := by
  have hthrough : ∀ {content k t}, (∀ e ∈ x.quote :: content, c.contains e = true ∧ e ≠ d) →
      byteSize content = byteSize x.left → Awaits d k →
      t = ⟨⟨some x.quote, content ++ x.quote :: x.back, x.place + x.quote.utf8Size⟩, gs⟩ →
      run (many (.char c)) k t = run (many (.char c)) k ⟨⟨some x.quote, x.back, x.reach⟩, gs⟩ := by
    rintro content k _ hcontent hsize hawait rfl
    rw [run_many_through hawait (fun e he => hcontent e (by simpa [or_comm] using he))
      (List.append_assoc content [x.quote] x.back).symm]
    simp only [Cursor.past, List.getLast?_append, List.getLast?_singleton, Option.some_or,
      byteSize_append, byteSize_cons, byteSize_nil, hsize, reach]
    congr 3
    omega
  rw [hthrough hleft rfl hawait rfl, hthrough hright x.size.symm hawait' rfl]
  have hsame : x.Paired ok true ⟨⟨some x.quote, x.back, x.reach⟩, gs⟩
      ⟨⟨some x.quote, x.back, x.reach⟩, gs⟩ := ⟨rfl, hgs, .beyond (Nat.le_refl _)⟩
  exact run_many (.inl rfl) (fun _ _ h => hk h) hsame

theorem run_many_across (h : x.Paired ok beyond t u) :
    x.Agree ok (run (many (.char c)) k t) (run (many (.char c)) k' u) := by
  obtain ⟨p, gs⟩ := t
  obtain ⟨q, gs'⟩ := u
  obtain rfl : gs = gs' := h.groups
  have hspans : ∀ g ∈ gs, ok g.2 := h.spans
  cases h.abreast with
  | @ahead before front offset hplace =>
    clear h
    induction front generalizing before offset with
    | nil =>
      obtain rfl : offset = x.place := hplace
      exact Agree.many_cons (hk ⟨rfl, hspans, .ahead rfl⟩) rfl rfl
        fun _ => run_many_inside hleft hright hawait hawait' hk hspans
    | cons e front ih =>
      refine Agree.many_cons (hk ⟨rfl, hspans, .ahead hplace⟩) rfl rfl fun _ => ih ?_
      simpa [Nat.add_assoc] using hplace
  | beyond hreach => exact run_many (.inl rfl) (fun _ _ h => hk h) h

theorem run_plus_across (h : x.Paired ok beyond t u) :
    x.Agree ok (run (plus (.char c)) k t) (run (plus (.char c)) k' u) := by
  have hmore : ∀ ⦃beyond t u⦄, x.Paired ok beyond t u →
      x.Agree ok (run (many (.char c)) k t) (run (many (.char c)) k' u) :=
    fun _ _ _ h => run_many_across hleft hright hawait hawait' hk h
  obtain ⟨p, gs⟩ := t
  obtain ⟨q, gs'⟩ := u
  obtain rfl : gs = gs' := h.groups
  have hspans : ∀ g ∈ gs, ok g.2 := h.spans
  cases h.abreast with
  | @ahead before front offset hplace =>
    rw [run_plus, run_plus]
    cases front with
    | nil =>
      obtain rfl : offset = x.place := hplace
      have hquote := (hleft x.quote List.mem_cons_self).1
      rw [run_char_cons rfl, run_char_cons rfl, if_pos hquote, if_pos hquote]
      exact run_many_inside hleft hright hawait hawait' hk hspans
    | cons e front =>
      rw [run_char_cons rfl, run_char_cons rfl]
      split
      · exact hmore ⟨rfl, hspans, .ahead (by simpa [Nat.add_assoc] using hplace)⟩
      · exact .none
  | beyond hreach => exact run_char (.inl rfl) (fun _ _ h => hmore h) h

end Across

/-- An opening character, anything up to the closing one, and that one. -/
theorem tracks_enclosed {o d : Char} {closing : String} (hclosing : closing.toList = [d])
    (hok : ∀ span, x.Outside span → ok span) (ho : (one o).readsNoQuote = true)
    (hd : (one d).readsNoQuote = true) (hleft : d ∉ x.left) (hright : d ∉ x.right) :
    x.Tracks ok (seqs [one o, many (noneOf closing), one d]) := by
  have hquote : d ≠ x.quote := by
    simp only [one, readsNoQuote, contains_one, Bool.and_eq_true, Bool.not_eq_true'] at hd
    exact beq_eq_false_iff_ne.1 (x.isQuote.not_mem (p := (d == ·)) hd.1 hd.2)
  have hclass : ∀ content, d ∉ content → ∀ e ∈ x.quote :: content,
      (CharClass.noneOf closing).contains e = true ∧ e ≠ d := by
    intro content hcontent e he
    have hne : e ≠ d := by
      rintro rfl
      rcases List.mem_cons.1 he with rfl | he
      · exact hquote rfl
      · exact hcontent he
    exact ⟨by simpa [contains_noneOf, hclosing] using hne, hne⟩
  refine Tracks.cons (tracks_of_readsNoQuote hok ho) fun k k' hk beyond t u h => ?_
  rw [run_seqs_cons, run_seqs_cons]
  exact run_many_across (hclass _ hleft) (hclass _ hright) (awaits_one d k) (awaits_one d k')
    (fun _ _ _ h => tracks_of_readsNoQuote hok hd hk h) h

/-! ## Inside the literal -/

/-- The thread stands in a content, before its closing quote. -/
def Within (x : Exchange) (content : List Char) (t : Thread) : Prop :=
  ∃ rest, rest <:+ content ∧ t.cursor.rest = rest ++ x.quote :: x.back

variable {content : List Char}

section ClassWithin

variable {c : CharClass} (hc : c.contains x.quote = false)
  (hk : ∀ ⦃u⦄, x.Within content u → k u = none)

include hc hk

theorem run_char_within (h : x.Within content t) : run (.char c) k t = none := by
  obtain ⟨rest, hsuffix, hrest⟩ := h
  cases rest with
  | nil => rw [run_char_cons hrest, if_neg (by simp [hc])]
  | cons e rest =>
    rw [run_char_cons hrest]
    split
    · exact hk ⟨rest, (List.suffix_cons e rest).trans hsuffix, rfl⟩
    · rfl

theorem run_many_within (h : x.Within content t) : run (many (.char c)) k t = none := by
  obtain ⟨rest, hsuffix, hrest⟩ := h
  induction rest generalizing t with
  | nil =>
    rw [run_many_cons hrest, if_neg (by simp [hc])]
    exact hk ⟨[], hsuffix, hrest⟩
  | cons e rest ih =>
    rw [run_many_cons hrest, hk ⟨e :: rest, hsuffix, hrest⟩]
    split
    · rw [Option.or_none]
      exact ih ((List.suffix_cons e rest).trans hsuffix) rfl
    · rfl

end ClassWithin

/-- An expression that reads no quote cannot leave the content. -/
theorem run_within {r : Regex} (hr : r.readsNoQuote = true)
    (hk : ∀ ⦃u⦄, x.Within content u → k u = none) (h : x.Within content t) : run r k t = none := by
  induction r generalizing k t with
  | empty => exact hk h
  | char c =>
    simp only [readsNoQuote, Bool.and_eq_true, Bool.not_eq_true'] at hr
    exact run_char_within (x.isQuote.not_mem hr.1 hr.2) hk h
  | anchor a =>
    rw [run]
    split
    · exact hk h
    · rfl
  | seq a b iha ihb =>
    rw [readsNoQuote, Bool.and_eq_true] at hr
    exact iha hr.1 (fun _ h => ihb hr.2 hk h) h
  | alt a b iha ihb =>
    rw [readsNoQuote, Bool.and_eq_true] at hr
    rw [run_alt, iha hr.1 hk h, ihb hr.2 hk h]
    rfl
  | star greedy r =>
    cases r with
    | char c =>
      simp only [readsNoQuote, Bool.and_eq_true, Bool.not_eq_true'] at hr
      obtain ⟨⟨rfl, hdouble⟩, hsingle⟩ := hr
      exact run_many_within (x.isQuote.not_mem hdouble hsingle) hk h
    | _ => cases hr
  | rep => cases hr
  | group name r ih => exact ih hr (fun _ h => hk h) h

/-! ## Searches -/

/-- The same match, with its groups at spans with some property. -/
def SameMatch (ok : Span → Prop) : Option Match → Option Match → Prop :=
  Option.Rel fun m n => m = n ∧ ∀ g ∈ m.groups, ok g.2

theorem SameMatch.searchFrom_cons {r : Regex} {before : Option Char} {offset : Nat} {c : Char}
    {cs cs' : List Char}
    (hhere : SameMatch ok ((r.matchAt ⟨before, c :: cs, offset⟩).map (·.1))
      ((r.matchAt ⟨before, c :: cs', offset⟩).map (·.1)))
    (hmore : SameMatch ok ((searchFrom r (some c) (offset + c.utf8Size) cs).map (·.1))
      ((searchFrom r (some c) (offset + c.utf8Size) cs').map (·.1))) :
    SameMatch ok ((searchFrom r before offset (c :: cs)).map (·.1))
      ((searchFrom r before offset (c :: cs')).map (·.1)) := by
  rw [searchFrom, searchFrom]
  generalize r.matchAt ⟨before, c :: cs, offset⟩ = a at hhere
  generalize r.matchAt ⟨before, c :: cs', offset⟩ = b at hhere
  cases a with
  | none =>
    cases b with
    | none => exact hmore
    | some b => cases hhere
  | some a =>
    cases b with
    | none => cases hhere
    | some b => exact hhere

section Search

variable {r : Regex} (htracks : x.Tracks ok r)

include htracks

theorem matchAt_agree {p q : Cursor} (h : x.Abreast beyond p q) :
    SameMatch ok ((r.matchAt p).map (·.1)) ((r.matchAt q).map (·.1)) := by
  have hruns : x.Agree ok (run r some { cursor := p }) (run r some { cursor := q }) :=
    htracks (fun _ _ _ h => .some ⟨_, h⟩) ⟨rfl, by simp, h⟩
  rw [matchAt, matchAt]
  generalize run r some { cursor := p } = a at hruns
  generalize run r some { cursor := q } = b at hruns
  cases hruns with
  | none => exact .none
  | some hpaired =>
    obtain ⟨_, hpaired⟩ := hpaired
    refine .some ⟨?_, hpaired.spans⟩
    rw [h.offset_eq, hpaired.abreast.offset_eq, hpaired.groups]

/-- Beyond the literal the two texts are the same, and so is the search. -/
theorem searchFrom_beyond {before : Option Char} {offset : Nat} {cs : List Char}
    (h : x.reach ≤ offset) :
    SameMatch ok ((searchFrom r before offset cs).map (·.1))
      ((searchFrom r before offset cs).map (·.1)) := by
  induction cs generalizing before offset with
  | nil => exact matchAt_agree htracks (.beyond h)
  | cons c cs ih =>
    exact .searchFrom_cons (matchAt_agree htracks (.beyond h))
      (ih (Nat.le_trans h (Nat.le_add_right _ _)))

end Search

/-- A search that finds nothing inside a content goes on behind it. -/
theorem searchFrom_within {r : Regex} {before : Option Char} {offset : Nat} {rest : List Char}
    (hdead : ∀ ⦃t⦄, x.Within content t → run r some t = none) (h : rest <:+ content) :
    searchFrom r before offset (rest ++ x.quote :: x.back) =
      searchFrom r (some x.quote) (offset + byteSize rest + x.quote.utf8Size) x.back := by
  have hnone : ∀ before offset rest, rest <:+ content →
      r.matchAt ⟨before, rest ++ x.quote :: x.back, offset⟩ = none := by
    intro before offset rest hrest
    rw [matchAt, hdead ⟨rest, hrest, rfl⟩]
  induction rest generalizing before offset with
  | nil =>
    have hhere := hnone before offset [] h
    rw [List.nil_append] at hhere ⊢
    rw [searchFrom, hhere]
    rfl
  | cons c rest ih =>
    have hhere := hnone before offset (c :: rest) h
    rw [List.cons_append] at hhere ⊢
    rw [searchFrom, hhere, ih ((List.suffix_cons c rest).trans h), byteSize_cons,
      Nat.add_assoc offset]

/-- By induction on the text ahead of the literal. -/
theorem searchFrom_agree {r : Regex} (htracks : x.Tracks ok r)
    (hleft : ∀ ⦃t⦄, x.Within x.left t → run r some t = none)
    (hright : ∀ ⦃t⦄, x.Within x.right t → run r some t = none) {before : Option Char} {offset : Nat}
    {front : List Char} (h : offset + byteSize front = x.place) :
    SameMatch ok
      ((searchFrom r before offset (withLiteral front x.quote x.left x.back)).map (·.1))
      ((searchFrom r before offset (withLiteral front x.quote x.right x.back)).map (·.1)) := by
  induction front generalizing before offset with
  | nil =>
    refine .searchFrom_cons (matchAt_agree htracks (.ahead h)) ?_
    rw [searchFrom_within hleft List.suffix_rfl,
      searchFrom_within hright List.suffix_rfl, ← x.size]
    refine searchFrom_beyond htracks ?_
    simp only [reach, ← h, byteSize_nil]
    omega
  | cons c front ih =>
    refine .searchFrom_cons (matchAt_agree htracks (.ahead h)) (ih ?_)
    simpa [Nat.add_assoc] using h

theorem find?_agree {r : Regex} (htracks : x.Tracks ok r)
    (hleft : ∀ ⦃t⦄, x.Within x.left t → run r some t = none)
    (hright : ∀ ⦃t⦄, x.Within x.right t → run r some t = none) :
    SameMatch ok (r.find? x.first) (r.find? x.second) :=
  searchFrom_agree htracks hleft hright (Nat.zero_add _)

/-- An expression that starts at the start of the text is tried there only. -/
theorem find?_textStart (rs : List Regex) (cs : List Char) :
    (seqs (.anchor .textStart :: rs)).find? cs =
      ((seqs (.anchor .textStart :: rs)).matchAt (.ofText cs)).map (·.1) := by
  have hlater : ∀ c offset rest,
      (seqs (.anchor .textStart :: rs)).matchAt ⟨some c, rest, offset⟩ = none := by
    intro c offset rest
    rw [matchAt, run_seqs_cons]
    rfl
  have hnone : ∀ rest c offset,
      searchFrom (seqs (.anchor .textStart :: rs)) (some c) offset rest = none := by
    intro rest
    induction rest with
    | nil => exact fun c offset => hlater c offset []
    | cons d rest ih =>
      intro c offset
      rw [searchFrom, hlater, ih]
  rw [find?, search]
  cases cs with
  | nil => rfl
  | cons c cs =>
    rw [Cursor.ofText, searchFrom, hnone]
    generalize matchAt _ _ = found
    cases found <;> rfl

theorem find?_anchored {rs : List Regex} (htracks : x.Tracks ok (seqs (.anchor .textStart :: rs))) :
    SameMatch ok ((seqs (.anchor .textStart :: rs)).find? x.first)
      ((seqs (.anchor .textStart :: rs)).find? x.second) := by
  rw [find?_textStart, find?_textStart]
  exact matchAt_agree htracks (.ahead (Nat.zero_add _))

theorem find?_readsNoQuote {rs : List Regex}
    (h : (seqs (.anchor .textStart :: rs)).readsNoQuote = true) :
    SameMatch x.Outside ((seqs (.anchor .textStart :: rs)).find? x.first)
      ((seqs (.anchor .textStart :: rs)).find? x.second) :=
  find?_anchored (tracks_of_readsNoQuote (fun _ h => h) h)

theorem SameMatch.eq {a b : Option Match} (h : SameMatch ok a b) : a = b := by
  cases h with
  | none => rfl
  | some h => rw [h.1]

/-! ## Groups -/

/-- Groups outside the literal hold the same text. -/
theorem groupText?_eq {r : Regex} {m : Match}
    (h : SameMatch x.Outside (r.find? x.first) (r.find? x.second))
    (hm : r.find? x.first = some m) (name : String) :
    groupText? x.first m name = groupText? x.second m name := by
  have hout : ∀ g ∈ m.groups, x.Outside g.2 := by
    rw [← h.eq, hm] at h
    cases h with
    | some h => exact h.2
  rw [groupText?, groupText?]
  cases hgroup : m.group? name with
  | none => rfl
  | some span =>
    obtain ⟨piece, _, hstands, hstop, _⟩ := (matched_find? hm).group?_stands hgroup
    obtain ⟨before, after, hgroups, _⟩ := List.lookup_eq_some_iff.1 hgroup
    have hspan : span = ⟨span.start, span.start + byteSize piece⟩ := by rw [← hstop]
    have hspanOut : x.Outside span := hout (name, span) (by rw [hgroups]; simp)
    rw [hspan] at hspanOut ⊢
    rw [Option.bind_some, Option.bind_some, hstands.slice?, (stands_second hstands hspanOut).slice?]

end Text.Exchange

end LeakScan
