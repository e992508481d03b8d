import LeakScan.Match.Textual
import LeakScan.Proofs.Regex.Run

/-!
# LeakScan.Proofs.Imports.Placeholders

Patterns with call placeholders, and what becomes of these in a file.

* `Cuts cs ps` — the pieces of a text, one rule for each kind of piece; `cuts_patternPieces`.
* `Cuts.complete` — every placeholder that occurs in the text is a piece, since none starts inside
  another.
* `Cuts.findAll`, `Cuts.replaceFrom_eq` — the pieces are what `callRegex` finds, and replacing its
  matches rewrites the calls among them.
* `TextualPattern.regexFor_eq` — the expression used for a file is that of the expanded pattern, also
  where the one made in advance is taken.
-/

namespace LeakScan

open Text

/-- What a placeholder may name. -/
structure IsTarget (target : List Char) : Prop where
  nonempty : target ≠ []
  chars : ∀ c ∈ target, isCallChar c = true

/-- A placeholder as it is written. -/
def placeholderText (target : List Char) : List Char := '@' :: '\x7b' :: (target ++ ['\x7d'])

theorem placeholder?_eq_some_iff {cs target after : List Char} :
    placeholder? cs = some (target, after) ↔ IsTarget target ∧ cs = placeholderText target ++ after := by
  rw [placeholder?]
  constructor
  · intro h
    split at h
    · cases h
    · rename_i rest hrest
      simp only at h
      split at h
      · rename_i htake hdrop
        cases h
        refine ⟨⟨by simp [htake], fun d hd => List.all_eq_true.1 List.all_takeWhile d hd⟩, ?_⟩
        have hsplit : rest = rest.takeWhile isCallChar ++ '\x7d' :: after := by
          rw [← hdrop, List.takeWhile_append_dropWhile]
        rw [stripPrefix?_eq_some_iff.1 hrest]
        nth_rewrite 1 [hsplit]
        simp [placeholderText]
      · cases h
  · rintro ⟨htarget, rfl⟩
    obtain ⟨c, more, rfl⟩ := List.exists_cons_of_ne_nil htarget.nonempty
    have hrest : stripPrefix? ['@', '\x7b'] (placeholderText (c :: more) ++ after) =
        some (c :: more ++ '\x7d' :: after) := stripPrefix?_eq_some_iff.2 (by simp [placeholderText])
    have hclose : isCallChar '\x7d' = false := by decide
    have htake : (c :: more ++ '\x7d' :: after).takeWhile isCallChar = c :: more := by
      rw [List.takeWhile_append_of_pos htarget.chars, List.takeWhile_cons_of_neg (by simp [hclose]),
        List.append_nil]
    have hdrop : (c :: more ++ '\x7d' :: after).dropWhile isCallChar = '\x7d' :: after := by
      rw [List.dropWhile_append_of_pos htarget.chars, List.dropWhile_cons_of_neg (by simp [hclose])]
    rw [hrest]
    simp only [htake, hdrop]

theorem at_not_mem_tail {target : List Char} (h : IsTarget target) :
    '@' ∉ '\x7b' :: (target ++ ['\x7d']) := by
  have hat : '@' ∉ target := fun hmem => absurd (h.chars '@' hmem) (by decide)
  simp [hat]

/-! ## Pieces -/

namespace PatternPiece

/-- The piece as it stands in a pattern. -/
def text : PatternPiece → List Char
  | .plain c => [c]
  | .call target => placeholderText target.toList

def target? : PatternPiece → Option String
  | .plain _ => none
  | .call target => some target

end PatternPiece

/-- The pieces of a text from left to right. A character is plain only where no placeholder
starts. -/
inductive Cuts : List Char → List PatternPiece → Prop
  | nil : Cuts [] []
  | call {target : String} {after : List Char} {ps : List PatternPiece}
      (htarget : IsTarget target.toList) (hafter : Cuts after ps) :
      Cuts (placeholderText target.toList ++ after) (.call target :: ps)
  | plain {c : Char} {cs : List Char} {ps : List PatternPiece}
      (hno : ∀ target after, IsTarget target → c :: cs ≠ placeholderText target ++ after)
      (hcs : Cuts cs ps) : Cuts (c :: cs) (.plain c :: ps)

theorem cuts_pieces {fuel : Nat} {cs : List Char} (h : cs.length ≤ fuel) :
    Cuts cs (pieces fuel cs) := by
  induction fuel generalizing cs with
  | zero =>
    obtain rfl := List.eq_nil_of_length_eq_zero (Nat.le_zero.1 h)
    exact .nil
  | succ fuel ih =>
    cases cs with
    | nil => exact .nil
    | cons c cs =>
      rw [pieces]
      split
      · rename_i target after hsome
        obtain ⟨htarget, hcs⟩ := placeholder?_eq_some_iff.1 hsome
        have hafter : after.length ≤ fuel := by
          have hlength := congrArg List.length hcs
          simp only [placeholderText, List.length_cons, List.length_append, List.cons_append] at hlength h
          omega
        have hcall : Cuts (placeholderText (String.ofList target).toList ++ after)
            (.call (String.ofList target) :: pieces fuel after) :=
          .call (by simpa using htarget) (ih hafter)
        rw [hcs]
        simpa using hcall
      · rename_i hnone
        refine .plain (fun target after htarget hcs => ?_) (ih (Nat.le_of_succ_le_succ h))
        rw [placeholder?_eq_some_iff.2 ⟨htarget, hcs⟩] at hnone
        cases hnone

theorem cuts_patternPieces (source : String) : Cuts source.toList (patternPieces source) :=
  cuts_pieces (Nat.le_refl _)

namespace Cuts

variable {cs : List Char} {ps : List PatternPiece}

theorem text_eq (h : Cuts cs ps) : ps.flatMap PatternPiece.text = cs := by
  induction h with
  | nil => rfl
  | call _ _ ih => rw [List.flatMap_cons, ih, PatternPiece.text]
  | plain _ _ ih => rw [List.flatMap_cons, ih, PatternPiece.text, List.singleton_append]

theorem isTarget (h : Cuts cs ps) {target : String} (hmem : .call target ∈ ps) :
    IsTarget target.toList := by
  induction h with
  | nil => cases hmem
  | call htarget _ ih =>
    rcases List.mem_cons.1 hmem with heq | hmem
    · cases heq
      exact htarget
    · exact ih hmem
  | plain _ _ ih =>
    rcases List.mem_cons.1 hmem with heq | hmem
    · cases heq
    · exact ih hmem

end Cuts

/-- No placeholder starts inside another. -/
theorem append_of_placeholders {target target' after front back : List Char} (h : IsTarget target)
    (h' : IsTarget target')
    (heq : placeholderText target ++ after = front ++ placeholderText target' ++ back) :
    (front = [] ∧ target = target' ∧ after = back) ∨
      ∃ more, front = placeholderText target ++ more ∧
        after = more ++ placeholderText target' ++ back := by
  cases front with
  | nil =>
    have hsame := (placeholder?_eq_some_iff.2 ⟨h, heq.symm⟩).symm.trans
      (placeholder?_eq_some_iff.2 ⟨h', rfl⟩)
    cases hsame
    exact .inl ⟨rfl, rfl, rfl⟩
  | cons c front =>
    right
    rw [List.append_assoc, List.append_eq_append_iff] at heq
    rcases heq with ⟨more, hfront, hafter⟩ | ⟨more, htext, hmore⟩
    · exact ⟨more, hfront, by rw [hafter, List.append_assoc]⟩
    · cases more with
      | nil =>
        rw [List.append_nil] at htext
        exact ⟨[], by rw [htext, List.append_nil], by simpa using hmore.symm⟩
      | cons d more =>
        -- the second placeholder would bring an `@` into the first
        obtain ⟨rfl, -⟩ : d = '@' ∧ _ := List.cons.inj hmore.symm
        obtain ⟨-, htail⟩ := List.cons.inj htext
        exact absurd (htail ▸ List.mem_append_right _ List.mem_cons_self) (at_not_mem_tail h)

/-- Every placeholder in the text is a piece. -/
theorem Cuts.complete {cs : List Char} {ps : List PatternPiece} (h : Cuts cs ps)
    {front target back : List Char} (htarget : IsTarget target)
    (hcs : cs = front ++ placeholderText target ++ back) :
    ∃ before after, ps = before ++ .call (String.ofList target) :: after ∧
      before.flatMap PatternPiece.text = front ∧ after.flatMap PatternPiece.text = back := by
  induction h generalizing front with
  | nil => simp [placeholderText] at hcs
  | @call target' rest ps htarget' hrest ih =>
    rcases append_of_placeholders htarget' htarget hcs with ⟨rfl, rfl, rfl⟩ | ⟨more, rfl, hmore⟩
    · exact ⟨[], ps, by simp, rfl, hrest.text_eq⟩
    · obtain ⟨before, after, rfl, rfl, hback⟩ := ih hmore
      exact ⟨.call target' :: before, after, rfl, rfl, hback⟩
  | @plain c cs ps hno _ ih =>
    cases front with
    | nil => exact absurd hcs (hno target back htarget)
    | cons d front =>
      obtain ⟨rfl, htail⟩ := List.cons.inj hcs
      obtain ⟨before, after, rfl, rfl, hback⟩ := ih htail
      exact ⟨.plain c :: before, after, rfl, rfl, hback⟩

/-! ## The expression for placeholders -/

open Regex

def callClass : CharClass := .union (.union (.union .nothing .word) (.one '.')) (.one '*')

/-- Placeholders as an expression. The group is the target; it has a name since only groups with a
name are kept. -/
def callRegex : Regex :=
  .seq (one '@') (.seq (one '\x7b') (.seq (.group "call" (.rep true 1 none (.char callClass)))
    (one '\x7d')))

theorem ofPattern_callRegex :
    Regex.ofPattern "@\\\x7b(?P<call>[\\w.*]+)\\\x7d" = .ok callRegex := by
  decide +kernel

theorem contains_callClass : callClass.contains = isCallChar := by
  funext c
  have hone : ∀ d, (CharClass.one d).contains c = (c == d) := by
    intro d
    rw [contains_one, Bool.eq_iff_iff, beq_iff_eq, beq_iff_eq, eq_comm]
  simp only [callClass, CharClass.contains, hone, isCallChar, Bool.false_or]

/-- The match of a placeholder that starts at an offset. -/
def callMatch (offset : Nat) (target : List Char) : Regex.Match where
  span := ⟨offset, offset + byteSize (placeholderText target)⟩
  groups := [("call", ⟨offset + 2, offset + 2 + byteSize target⟩)]

/-- The target and the text behind the placeholder, from the target on. -/
def callEnd? (rest : List Char) : Option (List Char × List Char) :=
  match rest.takeWhile isCallChar, rest.dropWhile isCallChar with
  | _ :: _, '\x7d' :: after => some (rest.takeWhile isCallChar, after)
  | _, _ => none

theorem placeholder?_eq_bind (cs : List Char) :
    placeholder? cs = (stripPrefix? ['@', '\x7b'] cs).bind callEnd? := by
  rw [placeholder?]
  cases stripPrefix? ['@', '\x7b'] cs <;> rfl

/-- The run of call characters cannot stop early, since what follows is none of them. -/
theorem run_callEnd (t : Thread) :
    run (.seq (.group "call" (.rep true 1 none (.char callClass))) (one '\x7d')) some t =
      (callEnd? t.cursor.rest).map fun (target, after) => {
        cursor := t.cursor.past (target ++ ['\x7d']) after
        groups := ("call", ⟨t.cursor.offset, t.cursor.offset + byteSize target⟩) :: t.groups } := by
  let close : Cont := fun u => run (one '\x7d') some
    { u with groups := ("call", ⟨t.cursor.offset, u.cursor.offset⟩) :: u.groups }
  have hawaits : Awaits '\x7d' close := fun u hu => awaits_one '\x7d' some _ hu
  have hrun : run (.seq (.group "call" (.rep true 1 none (.char callClass))) (one '\x7d')) some t =
      run (.char callClass) (fun u => run (many (.char callClass)) close u) t := rfl
  rw [hrun]
  cases hrest : t.cursor.rest with
  | nil => rw [run_char_nil hrest]; rfl
  | cons x xs =>
    rw [run_char_cons hrest, run_many_awaits hawaits (by decide), contains_callClass, callEnd?]
    cases hx : isCallChar x with
    | false => simp [hx]
    | true =>
      have hxs : (t.cursor.past [x] xs).rest = xs := rfl
      rw [List.takeWhile_cons_of_pos hx, List.dropWhile_cons_of_pos hx, if_pos rfl]
      simp only [close, Cursor.past_past, hxs]
      cases hdrop : xs.dropWhile isCallChar with
      | nil => exact run_char_nil rfl
      | cons d after =>
        rw [one, run_char_cons rfl, contains_one]
        by_cases hd : d = '\x7d'
        · subst hd
          rw [if_pos (beq_self_eq_true _)]
          simp only [Cursor.past_past]
          rfl
        · rw [if_neg fun heq => hd (beq_iff_eq.1 heq).symm]
          split
          · rename_i heq
            exact absurd (List.cons.inj heq).1 hd
          · rfl

theorem matchAt_callRegex (p : Cursor) :
    callRegex.matchAt p = (placeholder? p.rest).map fun (target, after) =>
      (callMatch p.offset target, p.past (placeholderText target) after) := by
  have hrun : run callRegex some { cursor := p } =
      run (seqs (['@', '\x7b'].map one)) (fun u =>
        run (.seq (.group "call" (.rep true 1 none (.char callClass))) (one '\x7d')) some u)
        { cursor := p } := rfl
  rw [matchAt, hrun, run_ones, placeholder?_eq_bind]
  cases stripPrefix? ['@', '\x7b'] p.rest with
  | none => rfl
  | some rest =>
    have hrest : (p.past ['@', '\x7b'] rest).rest = rest := rfl
    simp only [Option.bind_some, run_callEnd, hrest]
    cases callEnd? rest with
    | none => rfl
    | some found =>
      simp only [Option.map_some, Cursor.past_past]
      rfl

/-- The matches of the placeholders among the pieces of a text that starts at `offset`. -/
def callMatches (offset : Nat) : List PatternPiece → List Regex.Match
  | [] => []
  | .plain c :: ps => callMatches (offset + c.utf8Size) ps
  | .call target :: ps =>
    callMatch offset target.toList ::
      callMatches (offset + byteSize (placeholderText target.toList)) ps

namespace Cuts

variable {cs rest : List Char} {ps : List PatternPiece}

/-- The leftmost match is the first placeholder, and the pieces behind it are those of the rest. -/
theorem searchFrom (h : Cuts cs ps) (before : Option Char) (offset : Nat) :
    match Regex.searchFrom callRegex before offset cs with
    | none => callMatches offset ps = []
    | some (m, q) =>
      ∃ more, Cuts q.rest more ∧ callMatches offset ps = m :: callMatches q.offset more ∧
        m.span.start < m.span.stop ∧ q.rest.length < cs.length := by
  induction h generalizing before offset with
  | nil => rw [Regex.searchFrom, matchAt_callRegex]; rfl
  | @call target after ps htarget hafter ih =>
    have hsome : placeholder? (placeholderText target.toList ++ after) =
        some (target.toList, after) := placeholder?_eq_some_iff.2 ⟨htarget, rfl⟩
    have hcons : placeholderText target.toList ++ after =
        '@' :: ('\x7b' :: (target.toList ++ ['\x7d']) ++ after) := rfl
    rw [hcons, Regex.searchFrom, matchAt_callRegex, ← hcons, hsome]
    refine ⟨ps, hafter, rfl, Nat.lt_add_of_pos_right (byteSize_pos (List.cons_ne_nil _ _)), ?_⟩
    simp only [Cursor.past, placeholderText, List.length_append, List.length_cons]
    omega
  | @plain c cs ps hno hcs ih =>
    have hnone : placeholder? (c :: cs) = none := by
      rw [Option.eq_none_iff_forall_ne_some]
      intro found hfound
      obtain ⟨htarget, heq⟩ := placeholder?_eq_some_iff.1 hfound
      exact hno _ _ htarget heq
    rw [Regex.searchFrom, matchAt_callRegex, hnone]
    have hmore := ih (some c) (offset + c.utf8Size)
    cases hfound : Regex.searchFrom callRegex (some c) (offset + c.utf8Size) cs with
    | none =>
      simp only [hfound] at hmore
      simp only [Option.map_none]
      exact hmore
    | some found =>
      simp only [hfound] at hmore
      simp only [Option.map_none]
      obtain ⟨more, hrest, heq, hspan, hlength⟩ := hmore
      exact ⟨more, hrest, heq, hspan, Nat.lt_succ_of_lt hlength⟩

theorem collect {p : Cursor} (h : Cuts p.rest ps) {fuel : Nat} (last : Option Nat)
    (hfuel : p.rest.length < fuel) : callRegex.collect fuel last p = callMatches p.offset ps := by
  induction fuel generalizing last p ps with
  | zero => exact absurd hfuel (Nat.not_lt_zero _)
  | succ fuel ih =>
    have hsearch := h.searchFrom p.before p.offset
    rw [Regex.collect, Regex.search]
    split
    · rename_i hnone
      rw [hnone] at hsearch
      exact hsearch.symm
    · rename_i m q hsome
      rw [hsome] at hsearch
      obtain ⟨more, hmore, heq, hspan, hlength⟩ := hsearch
      rw [if_pos hspan, ih hmore _ (by omega), heq]

theorem findAll (h : Cuts cs ps) : callRegex.findAll cs = callMatches 0 ps :=
  collect (p := .ofText cs) h none (Nat.lt_succ_self _)

/-- The groups of the matches are the targets. -/
theorem map_groupText? (h : Cuts rest ps) (front : List Char) :
    (callMatches (byteSize front) ps).map (fun m => groupText? (front ++ rest) m "call") =
      (ps.filterMap PatternPiece.target?).map fun target => some target.toList := by
  induction h generalizing front with
  | nil => rfl
  | @call target after ps htarget hafter ih =>
    have hstands : Stands (front ++ (placeholderText target.toList ++ after)) (byteSize front + 2)
        target.toList :=
      ⟨front ++ ['@', '\x7b'], '\x7d' :: after, by simp [placeholderText], by rw [byteSize_append]; rfl⟩
    have hgroup : groupText? (front ++ (placeholderText target.toList ++ after))
        (callMatch (byteSize front) target.toList) "call" = some target.toList := hstands.slice?
    have hmore := ih (front ++ placeholderText target.toList)
    rw [byteSize_append, List.append_assoc] at hmore
    rw [callMatches, List.map_cons, hgroup, hmore]
    rfl
  | @plain c cs ps hno hcs ih =>
    have hmore := ih (front ++ [c])
    rw [byteSize_append, List.append_assoc, byteSize_cons, byteSize_nil, Nat.add_zero] at hmore
    exact hmore

end Cuts

/-! ## Replacing all matches -/

namespace Regex

/-- The text from `start` on with every match replaced. -/
def replaceFrom (cs : List Char) (f : Match → List Char) (start : Nat) : List Match → List Char
  | [] => (slice? cs ⟨start, byteSize cs⟩).getD []
  | m :: ms => (slice? cs ⟨start, m.span.start⟩).getD [] ++ f m ++ replaceFrom cs f m.span.stop ms

def replaceAll (r : Regex) (cs : List Char) (f : Match → List Char) : List Char :=
  replaceFrom cs f 0 (r.findAll cs)

end Regex

/-- A piece with the call of a placeholder written in another way. -/
def PatternPiece.rewritten (g : String → List Char) : PatternPiece → List Char
  | .plain c => [c]
  | .call target => g target

theorem slice?_middle {front piece back : List Char} :
    slice? (front ++ piece ++ back) ⟨byteSize front, byteSize (front ++ piece)⟩ = some piece := by
  have hstands : Stands (front ++ piece ++ back) (byteSize front) piece := ⟨front, back, rfl, rfl⟩
  rw [byteSize_append]
  exact hstands.slice?

/-- By induction on the pieces; `gap` is the text since the last placeholder. -/
theorem Cuts.replaceFrom_eq {rest : List Char} {ps : List PatternPiece} (h : Cuts rest ps)
    {cs done gap : List Char} (hcs : cs = done ++ gap ++ rest) {f : Regex.Match → List Char}
    {g : String → List Char}
    (hf : ∀ m target, groupText? cs m "call" = some target → f m = g (String.ofList target)) :
    replaceFrom cs f (byteSize done) (callMatches (byteSize (done ++ gap)) ps) =
      gap ++ ps.flatMap (·.rewritten g) := by
  induction h generalizing done gap with
  | nil =>
    rw [callMatches, Regex.replaceFrom]
    nth_rewrite 2 [hcs]
    rw [List.append_nil, hcs, slice?_middle]
    simp
  | @call target after ps htarget hafter ih =>
    have hgroup : groupText? cs (callMatch (byteSize (done ++ gap)) target.toList) "call" =
        some target.toList := by
      have htexts := (Cuts.call htarget hafter).map_groupText? (done ++ gap)
      rw [← hcs] at htexts
      exact (List.cons.inj htexts).1
    have hnext : cs = done ++ gap ++ placeholderText target.toList ++ [] ++ after := by
      rw [hcs]
      simp
    have hmore := ih hnext
    rw [List.append_nil, byteSize_append, List.nil_append] at hmore
    have hspan : (callMatch (byteSize (done ++ gap)) target.toList).span =
        ⟨byteSize (done ++ gap), byteSize (done ++ gap) + byteSize (placeholderText target.toList)⟩ :=
      rfl
    rw [callMatches, Regex.replaceFrom, hf _ _ hgroup, String.ofList_toList, hspan, hmore, hcs,
      slice?_middle]
    simp [PatternPiece.rewritten]
  | @plain c cs' ps hno hplain ih =>
    have hnext : cs = done ++ (gap ++ [c]) ++ cs' := by
      rw [hcs]
      simp
    have hmore := ih hnext
    rw [← List.append_assoc, byteSize_append, byteSize_cons, byteSize_nil, Nat.add_zero] at hmore
    rw [callMatches, hmore]
    simp [PatternPiece.rewritten]

/-! ## Expansion -/

namespace ImportAliases

/-- What a placeholder stands for: its default spelling or one of the local ones. -/
def alternation (a : ImportAliases) (target : String) : List Char :=
  "(?:".toList ++ joinWith ['|']
    (defaultSpelling target.toList :: (a.spellings target).map fun s => Regex.escape s.toList) ++ [')']

theorem toList_expand (a : ImportAliases) (source : String) :
    (a.expand source).toList = (patternPieces source).flatMap (·.rewritten a.alternation) := by
  rw [expand, String.toList_ofList]
  refine List.flatMap_congr fun piece _ => ?_
  cases piece <;> rfl

theorem placeholderCalls_eq (source : String) :
    placeholderCalls source = (patternPieces source).filterMap PatternPiece.target? := by
  rw [placeholderCalls]
  refine List.filterMap_congr fun piece _ => ?_
  cases piece <;> rfl

/-- The decision looks at the same placeholders as the expansion. -/
theorem expand_eq_of_not_affects {a : ImportAliases} {source : String}
    (h : a.affects (placeholderCalls source) = false) : a.expand source = expand {} source := by
  rw [← String.toList_inj, toList_expand, toList_expand]
  refine List.flatMap_congr fun piece hpiece => ?_
  cases piece with
  | plain c => rfl
  | call target =>
    have hmem : target ∈ placeholderCalls source := by
      rw [placeholderCalls_eq]
      exact List.mem_filterMap.2 ⟨.call target, hpiece, rfl⟩
    have hnone : a.spellings target = [] := by
      rw [affects, List.any_eq_false] at h
      simpa using h target hmem
    rw [PatternPiece.rewritten, PatternPiece.rewritten, alternation, alternation, hnone]
    rfl

end ImportAliases

theorem TextualPattern.ofSource_eq_ok {source : String} {p : TextualPattern}
    (h : ofSource source = .ok p) :
    p.source = source ∧ p.calls = placeholderCalls source ∧
      Regex.ofPattern (ImportAliases.expand {} source) = .ok p.regex := by
  rw [ofSource] at h
  cases hregex : Regex.ofPattern (ImportAliases.expand {} source) with
  | ok regex =>
    rw [hregex] at h
    cases h
    exact ⟨rfl, rfl, rfl⟩
  | error e =>
    rw [hregex] at h
    cases h

/-- Whatever the imports are, the expression is that of the pattern expanded for the file. -/
theorem TextualPattern.regexFor_eq {source : String} {p : TextualPattern}
    (h : ofSource source = .ok p) (imports : ImportAliases) (ruleId : String) :
    p.regexFor imports ruleId =
      (Regex.ofPattern (imports.expand source)).mapError fun e =>
        .malformedRule ruleId s!"aliased pattern: {e.message}" := by
  obtain ⟨hsource, hcalls, hregex⟩ := ofSource_eq_ok h
  rw [regexFor, hcalls, hsource]
  cases haffects : imports.affects (placeholderCalls source) with
  | true =>
    rw [if_pos rfl]
    cases Regex.ofPattern (imports.expand source) <;> rfl
  | false =>
    rw [if_neg Bool.false_ne_true, ImportAliases.expand_eq_of_not_affects haffects, hregex]
    rfl

/-- Both passes over a pattern see the placeholders that occur in it, which are the matches of
`callRegex`. Expansion replaces these and nothing else, so it may be left out where no placeholder
has a local spelling. -/
theorem expand_placeholders (source : String) :
    (∃ ps : List PatternPiece,
      ps.flatMap PatternPiece.text = source.toList ∧
      (∀ target, .call target ∈ ps → IsTarget target.toList) ∧
      (∀ front target back, IsTarget target →
        source.toList = front ++ placeholderText target ++ back →
        ∃ before after, ps = before ++ .call (String.ofList target) :: after ∧
          before.flatMap PatternPiece.text = front ∧ after.flatMap PatternPiece.text = back) ∧
      placeholderCalls source = ps.filterMap PatternPiece.target? ∧
      ∀ a : ImportAliases, (a.expand source).toList = ps.flatMap (·.rewritten a.alternation)) ∧
    Regex.ofPattern "@\\\x7b(?P<call>[\\w.*]+)\\\x7d" = .ok callRegex ∧
    (callRegex.findAll source.toList).map (groupText? source.toList · "call") =
      (placeholderCalls source).map (some ·.toList) ∧
    (∀ a : ImportAliases, (a.expand source).toList = callRegex.replaceAll source.toList fun m =>
      a.alternation (String.ofList ((groupText? source.toList m "call").getD []))) ∧
    (∀ a : ImportAliases, a.affects (placeholderCalls source) = false →
      a.expand source = ImportAliases.expand {} source) ∧
    ∀ p, TextualPattern.ofSource source = .ok p →
      Regex.ofPattern (ImportAliases.expand {} source) = .ok p.regex ∧
      ∀ (a : ImportAliases) (ruleId : String), p.regexFor a ruleId =
        (Regex.ofPattern (a.expand source)).mapError fun e =>
          .malformedRule ruleId s!"aliased pattern: {e.message}" := by
  have hcuts := cuts_patternPieces source
  refine ⟨⟨patternPieces source, hcuts.text_eq, fun target => hcuts.isTarget,
    fun front target back htarget => hcuts.complete htarget, ImportAliases.placeholderCalls_eq source,
    fun a => a.toList_expand source⟩, ofPattern_callRegex, ?_, fun a => ?_,
    fun a => ImportAliases.expand_eq_of_not_affects, fun p hp => ?_⟩
  · have hgroups := hcuts.map_groupText? []
    rw [hcuts.findAll, ImportAliases.placeholderCalls_eq]
    exact hgroups
  · rw [a.toList_expand, replaceAll, hcuts.findAll]
    have hall : source.toList = [] ++ [] ++ source.toList := rfl
    refine (hcuts.replaceFrom_eq hall fun m target hgroup => ?_).symm
    rw [hgroup, Option.getD_some]
  · exact ⟨(TextualPattern.ofSource_eq_ok hp).2.2, TextualPattern.regexFor_eq hp⟩

/-- Two placeholders side by side. -/
def adjacentSource : String := "=@\x7bsocket.socket\x7d@\x7b*.connect\x7d\\("

def netTable : ImportAliases := .ofPython "import socket as net\n".toList

def systemTable : ImportAliases := .ofPython "import os as system\n".toList

theorem adjacentSource_read : ∃ p, TextualPattern.ofSource adjacentSource = .ok p := by
  have hread : (TextualPattern.ofSource adjacentSource).isOk = true := by decide +kernel
  cases hsource : TextualPattern.ofSource adjacentSource with
  | ok p => exact ⟨p, rfl⟩
  | error e =>
    rw [hsource] at hread
    cases hread

theorem adjacent_placeholders_expanded :
    (∃ before after : List PatternPiece,
      before.flatMap PatternPiece.text = "=@\x7bsocket.socket\x7d".toList ∧
      after.flatMap PatternPiece.text = "\\(".toList ∧
      placeholderCalls adjacentSource =
        (before ++ .call "*.connect" :: after).filterMap PatternPiece.target?) ∧
    systemTable.affects (placeholderCalls adjacentSource) = false ∧
    systemTable.expand adjacentSource = ImportAliases.expand {} adjacentSource ∧
    netTable.affects (placeholderCalls adjacentSource) = true ∧
    ∃ p, TextualPattern.ofSource adjacentSource = .ok p ∧
      p.regexFor netTable "py.connect" =
        (Regex.ofPattern "=(?:socket\\.socket|net\\.socket)(?:(?:[\\w.]+\\.)?connect)\\(").mapError
          fun e => .malformedRule "py.connect" s!"aliased pattern: {e.message}" := by
  obtain ⟨⟨ps, -, -, hcomplete, hcalls, -⟩, -, -, -, hkept, hregex⟩ :=
    expand_placeholders adjacentSource
  obtain ⟨before, after, hps, hbefore, hafter⟩ :=
    hcomplete "=@\x7bsocket.socket\x7d".toList "*.connect".toList "\\(".toList
      ⟨by decide, List.all_eq_true.1 (by decide)⟩ (by decide)
  have hunaffected : systemTable.affects (placeholderCalls adjacentSource) = false := by
    decide +kernel
  obtain ⟨p, hp⟩ := adjacentSource_read
  have hexpand : netTable.expand adjacentSource =
      "=(?:socket\\.socket|net\\.socket)(?:(?:[\\w.]+\\.)?connect)\\(" := by decide +kernel
  refine ⟨⟨before, after, hbefore, hafter, ?_⟩, hunaffected, hkept systemTable hunaffected,
    by decide +kernel, p, hp, ?_⟩
  · rw [hcalls, hps, String.ofList_toList]
  · rw [(hregex p hp).2, hexpand]

/-- A placeholder may stand in what only looks like one. -/
example : placeholderCalls "@\x7b@\x7ba.b\x7d\x7d@\x7b\x7d@\x7bd-e\x7d@\x7bf" = ["a.b"] := by
  decide +kernel

end LeakScan
