import LeakScan.Proofs.Imports.Listing
import LeakScan.Proofs.SortedMap

/-!
# LeakScan.Proofs.Imports.Layout

Whether the layout of a list between parentheses matters.

* `Listing.Faithful` — the table of a sample statement is that of its items.
* `silent_of_faithful`, `harmless_of_faithful` — the comments that a faithful reading allows.
* `layout_neutral_iff` — the layout does not matter exactly if the comments are harmless.
-/

namespace LeakScan.ImportAliases

open Text

/-! ## Comments that do harm

A comment between or behind two names that are longer than itself. -/

theorem Entry.mem_words {piece n l : List Char} (h : Entry piece n l) : l ∈ words piece := by
  cases h with
  | plain h _ => simp [h]
  | renamed h _ _ => simp [h]

theorem length_le_of_mem_listBindings {module cs : List Char} {e : String × String}
    (h : e ∈ listBindings module cs) : e.1.toList.length ≤ cs.length := by
  obtain ⟨piece, hpiece, he⟩ := List.mem_filterMap.1 h
  obtain ⟨n, l, hentry, rfl⟩ := entry_of_pieceBinding? he
  rw [String.toList_ofList]
  exact (length_le_of_mem_words hentry.mem_words).trans (length_le_of_mem_splitOn hpiece)

/-- A letter, so often that no comment of the given length has a longer word. -/
def longName (letter : Char) (hword : isWordChar letter = true) (himport : letter ≠ 'i')
    (hfrom : letter ≠ 'f') (n : Nat) : Name where
  chars := letter :: List.replicate (n + 1) letter
  ne_nil := List.cons_ne_nil _ _
  word := by
    intro c hc
    rw [← List.replicate_succ] at hc
    rwa [List.eq_of_mem_replicate hc]
  ne_import := fun h => himport (List.cons.inj h).1
  ne_from := fun h => hfrom (List.cons.inj h).1

def firstItem (n : Nat) : Item := ⟨longName 'a' (by decide) (by decide) (by decide) n, none⟩

def secondItem (n : Nat) : Item := ⟨longName 'b' (by decide) (by decide) (by decide) n, none⟩

def sampleModule : ModulePath := ⟨['m'], by decide, List.all_eq_true.1 (by decide)⟩

/-- The comment between two items. -/
def commentBetween (c : Comment) : Listing where
  opening := noBlanks
  front := [(firstItem c.text.length, .comment noBlanks c noBlanks)]
  final := secondItem c.text.length
  ending := none
  closing := noBlanks

/-- The comment behind the comma of the last item. -/
def commentBehind (c : Comment) : Listing where
  opening := noBlanks
  front := []
  final := firstItem c.text.length
  ending := some (.comment noBlanks c noBlanks)
  closing := noBlanks

/-- The reader finds what the items say. -/
def Listing.Faithful (l : Listing) : Prop :=
  SortedMap.ofList (l.read sampleModule) =
    SortedMap.ofList (l.items.map (·.binding sampleModule))

theorem leadIn_sample : LeadIn sampleModule "from m import ".toList :=
  .mk lineBlanks_nil gap_blank gap_blank gap_blank

theorem Listing.faithful_of_eq {l : Listing}
    (h : ofPython ("from m import ".toList ++ (l.parenthesised ++ ['\n'])) =
      ofPython ("from m import ".toList ++ (l.oneLine ++ ['\n']))) : l.Faithful := by
  rw [ofPython_parenthesised leadIn_sample, ofPython_oneLine leadIn_sample] at h
  have hplain : plainBindings [] = [] := rfl
  have hqualified : qualifiedBindings [] = [] := rfl
  have hmap := congrArg ImportAliases.bindings h
  rw [hplain, hqualified, List.append_nil, List.append_nil] at hmap
  exact hmap

theorem Listing.Faithful.mem_items {l : Listing} (h : l.Faithful) {e : String × String}
    (he : e ∈ l.read sampleModule) :
    ∃ item ∈ l.items, e.1 = (item.binding sampleModule).1 := by
  have hkey : e.1 ∈ (SortedMap.ofList (l.read sampleModule)).keys :=
    SortedMap.mem_keys_ofList.2 (List.mem_map_of_mem he)
  rw [h, SortedMap.mem_keys_ofList, List.map_map] at hkey
  obtain ⟨item, hitem, hkey⟩ := List.mem_map.1 hkey
  exact ⟨item, hitem, hkey.symm⟩

/-- No name of the two listings is read from the comment. -/
theorem Listing.Faithful.not_mem_comment {l : Listing} (h : l.Faithful) {c : Comment}
    (hlong : ∀ item ∈ l.items, (item.binding sampleModule).1.toList.length = c.text.length + 2)
    {cs : List Char} (hcs : cs.length ≤ c.text.length) {e : String × String}
    (he : e ∈ l.read sampleModule) : e ∉ listBindings sampleModule.chars ('#' :: cs) := by
  intro hcomment
  obtain ⟨item, hitem, hkey⟩ := h.mem_items he
  have hle := length_le_of_mem_listBindings hcomment
  rw [hkey, hlong item hitem, List.length_cons] at hle
  omega

theorem length_commentBetween (c : Comment) : ∀ item ∈ (commentBetween c).items,
    (item.binding sampleModule).1.toList.length = c.text.length + 2 := by
  simp [commentBetween, Listing.items, Item.binding, firstItem, secondItem, longName]

theorem length_commentBehind (c : Comment) : ∀ item ∈ (commentBehind c).items,
    (item.binding sampleModule).1.toList.length = c.text.length + 2 := by
  simp [commentBehind, Listing.items, Item.binding, firstItem, longName]

theorem length_untilClose_le (cs : List Char) : (untilClose cs).length ≤ cs.length :=
  (List.takeWhile_prefix _).length_le

/-- An entry of a comment is among its bindings. -/
theorem Entry.mem_listBindings {cs piece n l : List Char} (h : Entry piece n l) (module : List Char)
    (hpiece : piece ∈ (splitOn ',' cs).tail) :
    (String.ofList l, String.ofList module ++ "." ++ String.ofList n) ∈
      listBindings module ('#' :: cs) := by
  rw [listBindings_hash]
  exact List.mem_filterMap.2 ⟨piece, hpiece, pieceBinding?_of_entry h⟩

theorem silent_of_listBindings {module cs : List Char} (h : listBindings module ('#' :: cs) = []) :
    Silent cs := by
  intro piece hpiece n l hentry
  have hmem := hentry.mem_listBindings module hpiece
  rw [h] at hmem
  cases hmem

theorem silent_of_faithful {c : Comment} (h : (commentBehind c).Faithful) :
    Silent (untilClose c.text) := by
  intro piece hpiece n l hentry
  have hread : (commentBehind c).read sampleModule =
      (commentBehind c).items.map (·.binding sampleModule) ++
        listBindings sampleModule.chars ('#' :: untilClose c.text) :=
    Listing.read_eq sampleModule (by simp [commentBehind, Listing.comments])
  have hmem := hentry.mem_listBindings sampleModule.chars hpiece
  refine h.not_mem_comment (length_commentBehind c) (length_untilClose_le c.text) ?_ hmem
  rw [hread]
  exact List.mem_append_right _ hmem

theorem read_commentBetween (c : Comment) : (commentBetween c).read sampleModule =
    (firstItem c.text.length).binding sampleModule ::
      listBindings sampleModule.chars
        ('#' :: untilClose (c.text ++ '\n' :: (secondItem c.text.length).text)) := by
  have hinner : (commentBetween c).inner = (firstItem c.text.length).text ++
      ',' :: '#' :: (c.text ++ '\n' :: (secondItem c.text.length).text) := by
    simp [commentBetween, Listing.inner, Listing.frontText, Spacing.text, noBlanks]
  have hcomma : ∀ cs : List Char, untilClose (',' :: '#' :: cs) = ',' :: '#' :: untilClose cs :=
    fun _ => rfl
  rw [Listing.read, hinner, untilClose_append (Item.not_mem_text (by decide) (by decide)), hcomma,
    listBindings_comma, listBindings_item]
  rfl

section Between

variable {c : Comment} (h : (commentBetween c).Faithful)

include h

/-- The second item has to be found behind the comment. -/
theorem second_mem_of_faithful : (secondItem c.text.length).binding sampleModule ∈
    listBindings sampleModule.chars
      ('#' :: untilClose (c.text ++ '\n' :: (secondItem c.text.length).text)) := by
  have hother : (firstItem c.text.length).binding sampleModule ≠
      (secondItem c.text.length).binding sampleModule := by
    intro heq
    have hletter := congrArg (fun e : String × String => e.1.toList.head?) heq
    simp only [Item.binding, String.toList_ofList] at hletter
    cases hletter
  have hitems : (commentBetween c).items =
      [firstItem c.text.length, secondItem c.text.length] := rfl
  have hget : (SortedMap.ofList ((commentBetween c).read sampleModule)).get?
      ((secondItem c.text.length).binding sampleModule).1 =
        some ((secondItem c.text.length).binding sampleModule).2 := by
    rw [h, hitems, SortedMap.get?_ofList]
    simp
  rw [SortedMap.get?_ofList, read_commentBetween] at hget
  obtain ⟨e, hfind, hpath⟩ := Option.map_eq_some_iff.1 hget
  have hname : e.1 = ((secondItem c.text.length).binding sampleModule).1 := by
    simpa using List.find?_some hfind
  have heq : e = (secondItem c.text.length).binding sampleModule := Prod.ext hname hpath
  have hmem := List.mem_reverse.1 (List.mem_of_find?_eq_some hfind)
  rw [heq, List.mem_cons] at hmem
  exact hmem.resolve_left hother.symm

theorem not_mem_comment_of_faithful {cs : List Char} (hcs : cs.length ≤ c.text.length) :
    (secondItem c.text.length).binding sampleModule ∉
      listBindings sampleModule.chars ('#' :: cs) := by
  refine h.not_mem_comment (length_commentBetween c) hcs ?_
  rw [read_commentBetween]
  exact List.mem_cons_of_mem _ (second_mem_of_faithful h)

theorem close_not_mem_of_faithful : ')' ∉ c.text := by
  intro hmem
  obtain ⟨front, back, htext, hfront⟩ := List.eq_append_cons_of_mem hmem
  have hshort : front.length ≤ c.text.length := by
    rw [htext, List.length_append]
    exact Nat.le_add_right _ _
  have hcut : ∀ cs : List Char, untilClose (c.text ++ cs) = front := by
    intro cs
    rw [htext, List.append_assoc, List.cons_append, untilClose_close hfront]
  have hsecond := second_mem_of_faithful h
  rw [hcut] at hsecond
  exact not_mem_comment_of_faithful h hshort hsecond

end Between

theorem untilClose_comment_item {c : Comment} (h : ')' ∉ c.text) (item : Item) :
    untilClose (c.text ++ '\n' :: item.text) = c.text ++ '\n' :: item.text := by
  have hitem : ')' ∉ item.text := Item.not_mem_text (by decide) (by decide)
  exact untilClose_eq (by simp [h, hitem])

/-- A comma in the comment divides it, and leaves the rest of it to the item behind. -/
theorem listBindings_comment_item (module : List Char) {c : Comment} {front back : List Char}
    (htext : c.text = front ++ ',' :: back) (item : Item) :
    listBindings module ('#' :: (c.text ++ '\n' :: item.text)) =
      listBindings module ('#' :: front) ++ listBindings module (back ++ '\n' :: item.text) := by
  rw [← listBindings_comma, htext]
  simp

theorem length_front_le {c : Comment} {front back : List Char}
    (htext : c.text = front ++ ',' :: back) : front.length ≤ c.text.length := by
  rw [htext, List.length_append]
  exact Nat.le_add_right _ _

/-- The item behind a comment is read as such only if blanks alone stand before it. -/
theorem allBlank_of_item_read {back : List Char} {item : Item} (hplain : item.localName? = none)
    (hlong : back.length < item.text.length) (hcomma : ',' ∉ back)
    (h : item.binding sampleModule ∈
      listBindings sampleModule.chars (back ++ '\n' :: item.text)) : AllBlank back := by
  have hitem : ',' ∉ item.text := Item.not_mem_text (by decide) (by decide)
  rw [listBindings_singleton _ (by simp [hcomma, hitem]), Option.mem_toList] at h
  obtain ⟨n, l, hentry, heq⟩ := entry_of_pieceBinding? h
  obtain ⟨name, localName⟩ := item
  obtain rfl : localName = none := hplain
  have hname : name.chars = n := by
    have hpath := congrArg Prod.snd heq
    simp only [Item.binding, String.append_right_inj] at hpath
    exact String.ofList_injective hpath
  have hwords : words (back ++ '\n' :: Item.text ⟨name, none⟩) = words back ++ [name.chars] := by
    rw [words_append_cons (by decide), words_itemText]
    rfl
  apply allBlank_of_words
  cases hentry with
  | plain hone _ =>
    have hlength := congrArg List.length (hwords.symm.trans hone)
    simpa using hlength
  | renamed hthree _ _ =>
    -- then the name would stand before the line break, where there is no room for it
    have hsplit := hwords.symm.trans hthree
    cases hback : words back with
    | nil => rfl
    | cons w ws =>
      rw [hback] at hsplit
      obtain rfl : w = n := (List.cons.inj hsplit).1
      have hle : w.length ≤ back.length := length_le_of_mem_words (hback ▸ List.mem_cons_self)
      rw [← hname] at hle
      exact absurd hlong (Nat.not_lt.2 hle)

theorem harmless_of_faithful {c : Comment} (h : (commentBetween c).Faithful) : c.Harmless := by
  have hclose : ')' ∉ c.text := close_not_mem_of_faithful h
  have hsecond := second_mem_of_faithful h
  rw [untilClose_comment_item hclose] at hsecond
  have hcomma : ',' ∈ c.text := by
    by_contra hmem
    have hitem : ',' ∉ (secondItem c.text.length).text := Item.not_mem_text (by decide) (by decide)
    rw [listBindings_singleton _ (by simp [hmem, hitem]), pieceBinding?_hash] at hsecond
    cases hsecond
  obtain ⟨front, back, htext, hback⟩ := exists_last_separator hcomma
  have hblank : AllBlank back := by
    rw [listBindings_comment_item _ htext, List.mem_append] at hsecond
    have hread := hsecond.resolve_left (not_mem_comment_of_faithful h (length_front_le htext))
    refine allBlank_of_item_read rfl ?_ hback hread
    have hlength : c.text.length = front.length + (back.length + 1) := by simp [htext]
    simp only [secondItem, Item.text, longName, List.length_cons, List.length_replicate]
    omega
  refine ⟨hclose, ⟨front, back, hblank, htext⟩, ?_⟩
  intro piece hpiece n l hentry
  have hmem := hentry.mem_listBindings sampleModule.chars hpiece
  rw [htext, ← List.cons_append, listBindings_comma, listBindings_blanks sampleModule hblank,
    List.append_nil] at hmem
  refine h.not_mem_comment (length_commentBetween c) (length_front_le htext) ?_ hmem
  rw [read_commentBetween, untilClose_comment_item hclose, listBindings_comment_item _ htext]
  exact List.mem_cons_of_mem _ (List.mem_append_left _ hmem)

/-- The layout of a list between parentheses does not matter, with comments of two kinds behind its
commas, exactly if those before another item end in a comma, have no parenthesis that closes the
list and no piece that reads as an item. A comment behind the last item need only have no such piece
before its first closing parenthesis. -/
theorem layout_neutral_iff (between behind : Comment → Prop) :
    (∀ (module : ModulePath) (head after : List Char) (l : Listing), LeadIn module head →
      (∀ c ∈ l.comments, between c) → (∀ c ∈ l.lastComment?, behind c) →
        ofPython (head ++ (l.parenthesised ++ '\n' :: after)) =
          ofPython (head ++ (l.oneLine ++ '\n' :: after))) ↔
      (∀ c, between c → c.Harmless) ∧ ∀ c, behind c → Silent (untilClose c.text) := by
  constructor
  · intro hneutral
    refine ⟨fun c hc => harmless_of_faithful (Listing.faithful_of_eq ?_),
      fun c hc => silent_of_faithful (Listing.faithful_of_eq ?_)⟩
    · refine hneutral sampleModule _ [] (commentBetween c) leadIn_sample ?_ ?_
      · intro d hd
        obtain rfl : d = c := List.mem_singleton.1 hd
        exact hc
      · intro d hd
        cases hd
    · refine hneutral sampleModule _ [] (commentBehind c) leadIn_sample ?_ ?_
      · intro d hd
        cases hd
      · intro d hd
        cases hd
        exact hc
  · rintro ⟨hbetween, hbehind⟩ module head after l hhead hcomments hlast
    rw [ofPython_parenthesised hhead, ofPython_oneLine hhead,
      Listing.read_eq_items module (fun c hc => hbetween c (hcomments c hc))
        fun c hc => hbehind c (hlast c hc)]

/-! ## Two commented lists -/

def osModule : ModulePath := ⟨"os".toList, by decide, List.all_eq_true.1 (by decide)⟩

def popenItem : Item :=
  ⟨⟨"popen".toList, by decide, List.all_eq_true.1 (by decide), by decide, by decide⟩, none⟩

def pathItem : Item :=
  ⟨⟨"path".toList, by decide, List.all_eq_true.1 (by decide), by decide, by decide⟩, none⟩

def nextLineBlanks : Blanks := ⟨"\n    ".toList, List.all_eq_true.1 (by decide)⟩

def twoBlanks : Blanks := ⟨"  ".toList, List.all_eq_true.1 (by decide)⟩

def fourBlanks : Blanks := ⟨"    ".toList, List.all_eq_true.1 (by decide)⟩

/-- The two items on a line each, with a comment behind the first and what is given behind the
second. -/
def commentedListing (c : Comment) (ending : Spacing) : Listing where
  opening := nextLineBlanks
  front := [(popenItem, .comment twoBlanks c fourBlanks)]
  final := pathItem
  ending := some ending
  closing := noBlanks

def commaComment : Comment := ⟨" reads, or writes,".toList, by decide⟩

def closingComment : Comment := ⟨" (of os)".toList, by decide⟩

def pipeComment : Comment := ⟨" pipe".toList, by decide⟩

/-- The first comment ends in a comma; the second closes the list early, behind its last item. -/
def harmlessListing : Listing :=
  commentedListing commaComment (.comment twoBlanks closingComment noBlanks)

def pipeListing : Listing :=
  commentedListing pipeComment (.blanks ⟨['\n'], List.all_eq_true.1 (by decide)⟩)

theorem leadIn_os : LeadIn osModule "from os import ".toList := by
  have htext : "from os import ".toList = [] ++ ("from".toList ++ ([' '] ++ (osModule.chars ++
      ([' '] ++ ("import".toList ++ [' ']))))) := by decide
  rw [htext]
  exact .mk lineBlanks_nil gap_blank gap_blank gap_blank

theorem commented_list_neutral :
    commaComment.Harmless ∧ Silent (untilClose closingComment.text) ∧
    "from os import ".toList ++ (harmlessListing.parenthesised ++ ['\n']) =
      "from os import (\n    popen,  # reads, or writes,\n    path,  # (of os)\n)\n".toList ∧
    "from os import ".toList ++ (harmlessListing.oneLine ++ ['\n']) =
      "from os import popen, path\n".toList ∧
    ofPython ("from os import ".toList ++ (harmlessListing.parenthesised ++ ['\n'])) =
      ofPython ("from os import ".toList ++ (harmlessListing.oneLine ++ ['\n'])) := by
  have hsilent : ∀ cs : List Char, listBindings [] ('#' :: cs) = [] → Silent cs :=
    fun cs => silent_of_listBindings
  have hcomma : commaComment.Harmless :=
    ⟨by decide, ⟨" reads, or writes".toList, [], allBlank_nil, by decide⟩,
      hsilent _ (by decide +kernel)⟩
  have hclosing : Silent (untilClose closingComment.text) := hsilent _ (by decide +kernel)
  refine ⟨hcomma, hclosing, by decide +kernel, by decide +kernel, ?_⟩
  refine (layout_neutral_iff (· = commaComment) (· = closingComment)).2 ⟨?_, ?_⟩ osModule
    "from os import ".toList [] harmlessListing leadIn_os ?_ ?_
  · rintro c rfl
    exact hcomma
  · rintro c rfl
    exact hclosing
  · intro c hc
    exact List.mem_singleton.1 hc
  · rintro c ⟨⟩
    rfl

/-- The item behind a plain comment is not found. -/
theorem item_behind_comment_lost :
    "from os import ".toList ++ (pipeListing.parenthesised ++ ['\n']) =
      "from os import (\n    popen,  # pipe\n    path,\n)\n".toList ∧
    "from os import ".toList ++ (pipeListing.oneLine ++ ['\n']) =
      "from os import popen, path\n".toList ∧
    (ofPython "from os import (\n    popen,  # pipe\n    path,\n)\n".toList).get? "path" = none ∧
    (ofPython "from os import popen, path\n".toList).get? "path" = some "os.path" :=
  ⟨by decide +kernel, by decide +kernel, by decide +kernel, by decide +kernel⟩

end LeakScan.ImportAliases
