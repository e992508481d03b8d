import LeakScan.Proofs.Imports.Lines

/-!
# LeakScan.Proofs.Imports.Listing

The list of a `from` statement, between parentheses and on one line.

* `Listing` — the items, with the blanks, line breaks and comments that stand between them.
* `Comment.Harmless`, `Silent` — what a comment may say without a change to what is read.
* `Listing.read` — what is read between the parentheses; `Listing.read_eq_items` says that harmless
  comments leave the items.
* `ofPython_parenthesised`, `ofPython_oneLine` — the tables of the two ways to write a list.
-/

namespace LeakScan.ImportAliases

open Text

/-! ## Layouts -/

/-- What a comment says behind its hash. -/
structure Comment where
  text : List Char
  oneLine : '\n' ∉ text

structure Blanks where
  chars : List Char
  blank : AllBlank chars

def noBlanks : Blanks := ⟨[], allBlank_nil⟩

def oneBlank : Blanks := ⟨[' '], allBlank_nil.cons (by decide)⟩

/-- What stands behind a comma: blanks, which may break the line, or a comment with its line break
and blanks around. -/
inductive Spacing where
  | blanks (b : Blanks)
  | comment (before : Blanks) (c : Comment) (after : Blanks)

def Spacing.text : Spacing → List Char
  | blanks b => b.chars
  | comment before c after => before.chars ++ '#' :: (c.text ++ '\n' :: after.chars)

def Spacing.comment? : Spacing → Option Comment
  | blanks _ => none
  | comment _ c _ => some c

def Item.text : Item → List Char
  | ⟨name, none⟩ => name.chars
  | ⟨name, some l⟩ => name.chars ++ " as ".toList ++ l.chars

/-- The items of a list and what stands around them; a comma may follow the last one. -/
structure Listing where
  opening : Blanks
  front : List (Item × Spacing)
  final : Item
  ending : Option Spacing
  closing : Blanks

namespace Listing

def items (l : Listing) : List Item := l.front.map (·.1) ++ [l.final]

def frontText (front : List (Item × Spacing)) : List Char :=
  front.flatMap fun (item, s) => item.text ++ ',' :: s.text

/-- The text between the parentheses. -/
def inner (l : Listing) : List Char :=
  l.opening.chars ++ (frontText l.front ++ (l.final.text ++
    ((l.ending.elim [] fun s => ',' :: s.text) ++ l.closing.chars)))

def parenthesised (l : Listing) : List Char := '(' :: (l.inner ++ [')'])

/-- The same list on one line. -/
def flat (l : Listing) : Listing where
  opening := noBlanks
  front := l.front.map fun (item, _) => (item, .blanks oneBlank)
  final := l.final
  ending := none
  closing := noBlanks

def oneLine (l : Listing) : List Char := l.flat.inner

/-- The comments behind the commas between the items. -/
def comments (l : Listing) : List Comment := l.front.filterMap (·.2.comment?)

/-- The comment behind the comma that follows the last item. -/
def lastComment? (l : Listing) : Option Comment := l.ending.bind (·.comment?)

end Listing

/-! ## Lines of a listing -/

section ItemText

variable (item : Item)

theorem Item.mem_text {item : Item} {c : Char} (h : c ∈ item.text) :
    isWordChar c = true ∨ c = ' ' := by
  obtain ⟨name, none | l⟩ := item
  · exact .inl (name.word c h)
  · have has : (" as ".toList.all fun c => isWordChar c || c == ' ') = true := by decide
    simp only [Item.text, List.mem_append] at h
    rcases h with (h | h) | h
    · exact .inl (name.word c h)
    · simpa using List.all_eq_true.1 has c h
    · exact .inl (l.word c h)

theorem Item.not_mem_text {item : Item} {c : Char} (hword : isWordChar c = false)
    (hblank : c ≠ ' ') : c ∉ item.text := by
  intro hmem
  rcases item.mem_text hmem with h | h
  · rw [hword] at h
    cases h
  · exact hblank h

theorem words_itemText : words item.text = item.words := by
  obtain ⟨name, none | l⟩ := item
  · exact words_eq_singleton name.ne_nil fun c hc => not_isBlank_of_isWordChar (name.word c hc)
  · have htext : Item.text ⟨name, some l⟩ =
        name.chars ++ ' ' :: ("as".toList ++ ' ' :: l.chars) := by
      simp [Item.text]
    rw [htext, words_append_cons (by decide), words_append_cons (by decide),
      words_eq_singleton name.ne_nil fun c hc => not_isBlank_of_isWordChar (name.word c hc),
      words_eq_singleton l.ne_nil fun c hc => not_isBlank_of_isWordChar (l.word c hc)]
    rfl

theorem Calm.still_item {cs : List Char} (h : Calm cs)
    (hcs : ∀ c ∈ cs.head?, isWordChar c = false) : Still (item.text ++ cs) := by
  obtain ⟨name, none | l⟩ := item
  · exact h.still_name name hcs
  · have hline : '\n' ∉ " as ".toList ++ l.chars := by
      rw [List.mem_append, not_or]
      exact ⟨by decide, fun hmem => absurd (l.word _ hmem) (by decide)⟩
    rw [Item.text, List.append_assoc, List.append_assoc, ← List.append_assoc " as ".toList]
    refine (h.append hline).still_name name ?_
    rintro c ⟨⟩
    decide

end ItemText

theorem Still.spacing {cs : List Char} (h : Still cs) (s : Spacing) : Still (s.text ++ cs) := by
  cases s with
  | blanks b => exact h.append_blanks b.blank
  | comment before c after =>
    have hafter : Still (after.chars ++ cs) := h.append_blanks after.blank
    have hcomment : Still ('#' :: (c.text ++ '\n' :: (after.chars ++ cs))) :=
      (hafter.calm_newline.append c.oneLine).still_cons (by decide) (by decide) (by decide)
        (by decide)
    have hbefore := hcomment.append_blanks before.blank
    simpa [Spacing.text] using hbefore

namespace Listing

theorem still_front {cs : List Char} (h : Still cs) (front : List (Item × Spacing)) :
    Still (frontText front ++ cs) := by
  induction front with
  | nil => exact h
  | cons p front ih =>
    obtain ⟨item, s⟩ := p
    have hcomma : Calm (',' :: (s.text ++ (frontText front ++ cs))) :=
      (ih.spacing s).calm.cons (by decide)
    have hitem := hcomma.still_item item (by rintro c ⟨⟩; decide)
    simpa [frontText] using hitem

theorem still_inner (l : Listing) : Still (l.inner ++ [')']) := by
  have hclose : Still [')'] :=
    (calm_of_not_mem List.not_mem_nil).still_cons (by decide) (by decide) (by decide) (by decide)
  have hclosing : Still (l.closing.chars ++ [')']) := hclose.append_blanks l.closing.blank
  have hending : Calm ((l.ending.elim [] fun s => ',' :: s.text) ++
      (l.closing.chars ++ [')'])) := by
    cases l.ending with
    | none => exact hclosing.calm
    | some s => exact (hclosing.spacing s).calm.cons (by decide)
  have hhead : ∀ c ∈ ((l.ending.elim [] fun s => ',' :: s.text) ++
      (l.closing.chars ++ [')'])).head?, isWordChar c = false := by
    cases l.ending with
    | none =>
      cases hblanks : l.closing.chars with
      | nil =>
        rintro c ⟨⟩
        decide
      | cons d blanks =>
        rintro c ⟨⟩
        exact not_isWordChar_of_isBlank (l.closing.blank _ (hblanks ▸ List.mem_cons_self))
    | some s =>
      rintro c ⟨⟩
      decide
  have hinner :=
    (still_front (hending.still_item l.final hhead) l.front).append_blanks l.opening.blank
  simpa [inner] using hinner

end Listing

/-! ## Reading a listing -/

/-- The text before the first closing parenthesis. -/
def untilClose (cs : List Char) : List Char := cs.takeWhile (· != ')')

theorem untilClose_append {front : List Char} (h : ')' ∉ front) (cs : List Char) :
    untilClose (front ++ cs) = front ++ untilClose cs :=
  List.takeWhile_append_of_pos (bne_of_not_mem h)

theorem untilClose_eq {cs : List Char} (h : ')' ∉ cs) : untilClose cs = cs := by
  have hself := untilClose_append h []
  rwa [List.append_nil, show untilClose [] = [] from rfl, List.append_nil] at hself

theorem untilClose_close {front : List Char} (h : ')' ∉ front) (back : List Char) :
    untilClose (front ++ ')' :: back) = front := by
  rw [untilClose_append h]
  exact List.append_nil _

theorem not_mem_untilClose (cs : List Char) : ')' ∉ untilClose cs := by
  intro hmem
  have hpass := List.mem_takeWhile_imp hmem
  simp at hpass

/-- What the reader finds in the list. -/
def Listing.read (module : ModulePath) (l : Listing) : List (String × String) :=
  listBindings module.chars (untilClose l.inner)

theorem ofPython_parenthesised {module : ModulePath} {head : List Char} (h : LeadIn module head)
    (l : Listing) (after : List Char) :
    ofPython (head ++ (l.parenthesised ++ '\n' :: after)) =
      ⟨.ofList (plainBindings after ++ (l.read module ++ qualifiedBindings after))⟩ := by
  have hcalm : Calm l.parenthesised := l.still_inner.calm.cons (by decide)
  obtain ⟨rest, hrest⟩ : ∃ rest, l.inner ++ [')'] = untilClose l.inner ++ ')' :: rest := by
    by_cases hmem : ')' ∈ l.inner
    · obtain ⟨front, back, hinner, hfront⟩ := List.eq_append_cons_of_mem hmem
      refine ⟨back ++ [')'], ?_⟩
      rw [hinner, untilClose_close hfront, List.append_assoc, List.cons_append]
    · exact ⟨[], by rw [untilClose_eq hmem]⟩
  have hread : fromImport? (head ++ (l.parenthesised ++ '\n' :: after)) =
      some (module.chars, '(' :: (untilClose l.inner ++ [')']), rest ++ '\n' :: after) := by
    rw [Listing.parenthesised, hrest, ← fromImport?_wrapped h (not_mem_untilClose l.inner)]
    simp
  have hskip : Calm rest := by
    have hwhole := l.still_inner.calm
    rw [hrest, List.append_cons] at hwhole
    exact hwhole.of_append
  rw [ofPython_eq, hcalm.plainBindings_eq h, qualifiedBindings_of_some hread, fromBindings_wrapped,
    hskip.qualifiedBindings_eq]
  rfl

/-! ## Items and comments in a list -/

section Items

variable (module : ModulePath)

theorem listBindings_item (item : Item) :
    listBindings module.chars item.text = [item.binding module] := by
  rw [listBindings_singleton _ (Item.not_mem_text (by decide) (by decide)),
    pieceBinding?_item (words_itemText item)]
  rfl

theorem listBindings_blanks {blanks : List Char} (h : AllBlank blanks) :
    listBindings module.chars blanks = [] :=
  listBindings_append_blank module.chars h []

theorem pieceBinding?_hash (module piece : List Char) :
    pieceBinding? module ('#' :: piece) = none := by
  rw [Option.eq_none_iff_forall_ne_some]
  intro e he
  obtain ⟨n, l, hentry, -⟩ := entry_of_pieceBinding? he
  have hdotted : Dotted ('#' :: piece) := by
    cases hentry with
    | plain h hn => exact dotted_plain h hn
    | renamed h hn hl => exact dotted_renamed h hn fun c hc => isDotted_of_isWordChar (hl c hc)
  exact hdotted.not_mem (by decide) (by decide) List.mem_cons_self

/-- The first piece of a comment is no item, for its hash. -/
theorem listBindings_hash (module cs : List Char) : listBindings module ('#' :: cs) =
    (splitOn ',' cs).tail.filterMap (pieceBinding? module) := by
  obtain ⟨piece, pieces, hcs⟩ := List.exists_cons_of_ne_nil (splitOn_ne_nil ',' cs)
  rw [listBindings, splitOn, hcs]
  simp [pieceBinding?_hash]

/-- Behind its first comma the text of a comment has no piece that reads as an item. -/
def Silent (cs : List Char) : Prop := ∀ piece ∈ (splitOn ',' cs).tail, ∀ n l, ¬ Entry piece n l

theorem Silent.listBindings_eq {cs : List Char} (h : Silent cs) :
    listBindings module.chars ('#' :: cs) = [] := by
  rw [listBindings_hash, List.filterMap_eq_nil_iff]
  intro piece hpiece
  rw [Option.eq_none_iff_forall_ne_some]
  intro e he
  obtain ⟨n, l, hentry, -⟩ := entry_of_pieceBinding? he
  exact h piece hpiece n l hentry

/-- Between two items a comment has to end in a comma, so that the next item stands alone. -/
structure Comment.Harmless (c : Comment) : Prop where
  noClose : ')' ∉ c.text
  comma : ∃ front blanks, AllBlank blanks ∧ c.text = front ++ ',' :: blanks
  silent : Silent c.text

theorem Spacing.listBindings_eq {s : Spacing} (h : ∀ c ∈ s.comment?, c.Harmless) (cs : List Char) :
    listBindings module.chars (s.text ++ cs) = listBindings module.chars cs := by
  cases s with
  | blanks b => exact listBindings_blank_append _ b.blank cs
  | comment before c after =>
    obtain ⟨-, ⟨front, blanks, hblanks, htext⟩, hsilent⟩ := h c rfl
    have hfront : listBindings module.chars ('#' :: front) = [] := by
      have hwhole := hsilent.listBindings_eq module
      rw [htext, ← List.cons_append, listBindings_comma, List.append_eq_nil_iff] at hwhole
      exact hwhole.1
    have hback : AllBlank (blanks ++ '\n' :: after.chars) :=
      hblanks.append (after.blank.cons (by decide))
    have hsplit : (comment before c after).text ++ cs =
        before.chars ++ ('#' :: front ++ ',' :: ((blanks ++ '\n' :: after.chars) ++ cs)) := by
      simp [Spacing.text, htext]
    rw [hsplit, listBindings_blank_append _ before.blank, listBindings_comma, hfront,
      listBindings_blank_append _ hback]
    rfl

theorem listBindings_front {front : List (Item × Spacing)}
    (h : ∀ p ∈ front, ∀ c ∈ p.2.comment?, c.Harmless) (cs : List Char) :
    listBindings module.chars (Listing.frontText front ++ cs) =
      front.map (·.1.binding module) ++ listBindings module.chars cs := by
  induction front with
  | nil => rfl
  | cons p front ih =>
    obtain ⟨item, s⟩ := p
    have hsplit : Listing.frontText ((item, s) :: front) ++ cs =
        item.text ++ ',' :: (s.text ++ (Listing.frontText front ++ cs)) := by
      simp [Listing.frontText]
    rw [hsplit, listBindings_comma, listBindings_item,
      Spacing.listBindings_eq module (h _ List.mem_cons_self),
      ih fun q hq => h q (List.mem_cons_of_mem _ hq)]
    rfl

/-- A comment behind the last comma counts up to the parenthesis that closes the list, be it in the
comment. -/
theorem listBindings_lastComment (c : Comment) {blanks : List Char} (h : AllBlank blanks) :
    listBindings module.chars (untilClose ('#' :: (c.text ++ blanks))) =
      listBindings module.chars ('#' :: untilClose c.text) := by
  have hhash : ∀ cs : List Char, untilClose ('#' :: cs) = '#' :: untilClose cs := fun _ => rfl
  rw [hhash]
  by_cases hmem : ')' ∈ c.text
  · obtain ⟨front, back, htext, hfront⟩ := List.eq_append_cons_of_mem hmem
    rw [htext, List.append_assoc, List.cons_append, untilClose_close hfront,
      untilClose_close hfront]
  · rw [untilClose_append hmem, untilClose_eq hmem, untilClose_eq (h.not_mem (by decide)),
      ← List.cons_append, listBindings_append_blank _ h]

end Items

namespace Listing

theorem close_not_mem_front {front : List (Item × Spacing)}
    (h : ∀ p ∈ front, ∀ c ∈ p.2.comment?, c.Harmless) : ')' ∉ frontText front := by
  intro hmem
  obtain ⟨⟨item, s⟩, hp, hmem⟩ := List.mem_flatMap.1 hmem
  rcases List.mem_append.1 hmem with hmem | hmem
  · exact item.not_mem_text (by decide) (by decide) hmem
  · cases s with
    | blanks b =>
      have hblanks : ')' ∉ b.chars := b.blank.not_mem (by decide)
      simp [Spacing.text, hblanks] at hmem
    | comment before c after =>
      have hbefore : ')' ∉ before.chars := before.blank.not_mem (by decide)
      have hafter : ')' ∉ after.chars := after.blank.not_mem (by decide)
      have hcomment : ')' ∉ c.text := (h _ hp c rfl).noClose
      simp [Spacing.text, hbefore, hafter, hcomment] at hmem

variable {l : Listing} (module : ModulePath)

/-- The last item, and what a comment behind its comma adds. -/
theorem listBindings_final (l : Listing) :
    listBindings module.chars (l.final.text ++ untilClose
      ((l.ending.elim [] fun s => ',' :: s.text) ++ l.closing.chars)) =
        l.final.binding module :: l.lastComment?.elim [] fun c =>
          listBindings module.chars ('#' :: untilClose c.text) := by
  have hclosing : ')' ∉ l.closing.chars := l.closing.blank.not_mem (by decide)
  have hcomma : ∀ cs : List Char, untilClose (',' :: cs) = ',' :: untilClose cs := fun _ => rfl
  rw [lastComment?]
  rcases l.ending with _ | b | ⟨before, c, after⟩
  · rw [Option.elim_none, List.nil_append, untilClose_eq hclosing,
      listBindings_append_blank _ l.closing.blank, listBindings_item]
    rfl
  · have hblank : AllBlank (b.chars ++ l.closing.chars) := b.blank.append l.closing.blank
    rw [Option.elim_some, Spacing.text, List.cons_append, hcomma,
      untilClose_eq (hblank.not_mem (by decide)), listBindings_comma, listBindings_item,
      listBindings_blanks module hblank]
    rfl
  · have hblank : AllBlank ('\n' :: (after.chars ++ l.closing.chars)) :=
      (after.blank.append l.closing.blank).cons (by decide)
    have htext : ',' :: (Spacing.comment before c after).text ++ l.closing.chars =
        ',' :: (before.chars ++ '#' :: (c.text ++ '\n' :: (after.chars ++ l.closing.chars))) := by
      simp [Spacing.text]
    rw [Option.elim_some, htext, hcomma, untilClose_append (before.blank.not_mem (by decide)),
      listBindings_comma, listBindings_item, listBindings_blank_append _ before.blank,
      listBindings_lastComment module c hblank]
    rfl

theorem read_eq (h : ∀ c ∈ l.comments, c.Harmless) :
    l.read module = l.items.map (·.binding module) ++ l.lastComment?.elim [] fun c =>
      listBindings module.chars ('#' :: untilClose c.text) := by
  have hfront : ∀ p ∈ l.front, ∀ c ∈ p.2.comment?, c.Harmless :=
    fun p hp c hc => h c (List.mem_filterMap.2 ⟨p, hp, hc⟩)
  rw [read, inner, untilClose_append (l.opening.blank.not_mem (by decide)),
    untilClose_append (close_not_mem_front hfront),
    untilClose_append (Item.not_mem_text (by decide) (by decide)),
    listBindings_blank_append _ l.opening.blank, listBindings_front module hfront,
    listBindings_final, items, List.map_append, List.map_map, List.append_assoc]
  rfl

theorem read_eq_items (h : ∀ c ∈ l.comments, c.Harmless)
    (hlast : ∀ c ∈ l.lastComment?, Silent (untilClose c.text)) :
    l.read module = l.items.map (·.binding module) := by
  rw [read_eq module h]
  cases hcomment : l.lastComment? with
  | none => exact List.append_nil _
  | some c => rw [Option.elim_some, (hlast c hcomment).listBindings_eq, List.append_nil]

/-! ## The list on one line -/

theorem items_flat (l : Listing) : l.flat.items = l.items := by
  simp [items, flat]

theorem comments_flat (l : Listing) : l.flat.comments = [] := by
  simp [comments, flat, Spacing.comment?]

theorem oneLine_eq (l : Listing) :
    l.oneLine = (l.front.flatMap fun p => p.1.text ++ [',', ' ']) ++ l.final.text := by
  simp [oneLine, inner, flat, frontText, noBlanks, oneBlank, Spacing.text, List.flatMap_map]

theorem mem_oneLine {c : Char} (h : c ∈ l.oneLine) : isWordChar c = true ∨ c = ' ' ∨ c = ',' := by
  rw [oneLine_eq, List.mem_append, List.mem_flatMap] at h
  rcases h with ⟨p, -, h⟩ | h
  · rcases List.mem_append.1 h with h | h
    · exact (p.1.mem_text h).imp_right .inl
    · simp only [List.mem_cons, List.not_mem_nil, or_false] at h
      exact .inr h.symm
  · exact (l.final.mem_text h).imp_right .inl

theorem not_mem_oneLine {c : Char} (hword : isWordChar c = false) (hblank : c ≠ ' ')
    (hcomma : c ≠ ',') : c ∉ l.oneLine := by
  intro hmem
  rcases mem_oneLine hmem with h | h | h
  · rw [hword] at h
    cases h
  · exact hblank h
  · exact hcomma h

/-- It starts with the name of an item. -/
theorem exists_name_oneLine (l : Listing) : ∃ name : Name, name.chars <+: l.oneLine := by
  have hitem : ∀ item : Item, item.name.chars <+: item.text := by
    rintro ⟨name, none | l⟩
    · exact List.prefix_rfl
    · exact (List.prefix_append _ _).trans (List.prefix_append _ _)
  rw [oneLine_eq]
  rcases l.front with _ | ⟨⟨item, s⟩, front⟩
  · exact ⟨l.final.name, hitem l.final⟩
  · refine ⟨item.name, (hitem item).trans ?_⟩
    rw [List.flatMap_cons, List.append_assoc, List.append_assoc]
    exact List.prefix_append _ _

theorem listBindings_oneLine (l : Listing) :
    listBindings module.chars l.oneLine = l.items.map (·.binding module) := by
  have hread : l.flat.read module = l.flat.items.map (·.binding module) :=
    read_eq_items module (by simp [comments_flat]) (by simp [lastComment?, flat])
  have hclose : ')' ∉ l.flat.inner := not_mem_oneLine (by decide) (by decide) (by decide)
  rwa [items_flat, read, untilClose_eq hclose] at hread

end Listing

theorem ofPython_oneLine {module : ModulePath} {head : List Char} (h : LeadIn module head)
    (l : Listing) (after : List Char) :
    ofPython (head ++ (l.oneLine ++ '\n' :: after)) =
      ⟨.ofList (plainBindings after ++
        (l.items.map (·.binding module) ++ qualifiedBindings after))⟩ := by
  have hline : '\n' ∉ l.oneLine := Listing.not_mem_oneLine (by decide) (by decide) (by decide)
  have hparen : '(' ∉ l.oneLine := Listing.not_mem_oneLine (by decide) (by decide) (by decide)
  obtain ⟨name, rest, hname⟩ := l.exists_name_oneLine
  have hbody : (l.oneLine ++ '\n' :: after).dropWhile isLineBlank = l.oneLine ++ '\n' :: after := by
    rw [← hname, List.append_assoc]
    exact dropWhile_isLineBlank_dotted name.ne_nil name.isDotted _
  have hbare : ((l.oneLine ++ '\n' :: after).dropWhile isLineBlank).head? ≠ some '(' := by
    rw [hbody, List.head?_append, ne_eq, Option.or_eq_some_iff]
    rintro (hhead | ⟨-, hhead⟩)
    · exact hparen (List.mem_of_head? hhead)
    · cases hhead
  have hpart : statementPart (l.oneLine ++ '\n' :: after) = l.oneLine := by
    rw [statementPart, takeWhile_cut (by decide), List.takeWhile_eq_self_iff]
    intro c hc
    simp only [Bool.and_eq_true, bne_iff_ne]
    refine ⟨⟨?_, ?_⟩, ?_⟩ <;> rintro rfl
    · exact Listing.not_mem_oneLine (by decide) (by decide) (by decide) hc
    · exact hline hc
    · exact Listing.not_mem_oneLine (by decide) (by decide) (by decide) hc
  have htrim : (trim l.oneLine).head? ≠ some '(' := by
    intro hhead
    obtain ⟨front, back, -, -, hsplit⟩ := exists_trim l.oneLine
    have hmem : '(' ∈ trim l.oneLine := List.mem_of_head? hhead
    rw [hsplit] at hparen
    exact hparen (List.mem_append_right _ (List.mem_append_left _ hmem))
  rw [ofPython_eq, (calm_of_not_mem hline).plainBindings_eq h,
    qualifiedBindings_of_some (fromImport?_bare h hbare), hbody, hpart, fromBindings_bare _ htrim,
    Listing.listBindings_oneLine, nextLine_append hline (breaks_cons after)]
  rfl

end LeakScan.ImportAliases
