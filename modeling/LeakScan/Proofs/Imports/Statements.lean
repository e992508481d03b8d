import Mathlib.Data.List.TakeWhile
import LeakScan.Imports
import LeakScan.Proofs.Text.Literal
import LeakScan.Proofs.Text.Words

/-!
# LeakScan.Proofs.Imports.Statements

How import statements are read, one function after the other.

* `Name`, `ModulePath`, `Item` — what a statement is made of.
* `listBindings` — the bindings of a list, piece by piece; blanks around the pieces do not count.
* `fromBindings_bare`, `fromBindings_wrapped` — the list of a `from` statement, without and with
  parentheses.
* `LeadIn` — the part `from MODULE import`; `fromImport?_bare` and `fromImport?_wrapped` say what is
  read behind it.
* `plainBindings`, `qualifiedBindings` — the two halves of `ofPython`, line by line.
-/

namespace LeakScan.ImportAliases

open Text

/-! ## Names, paths and items -/

/-- A name has word characters only, and is no word that starts an import statement. -/
structure Name where
  chars : List Char
  ne_nil : chars ≠ []
  word : ∀ c ∈ chars, isWordChar c = true
  ne_import : chars ≠ "import".toList
  ne_from : chars ≠ "from".toList

/-- Names and the dots between them, or in front of them. -/
structure ModulePath where
  chars : List Char
  ne_nil : chars ≠ []
  dotted : ∀ c ∈ chars, isDotted c = true

/-- `NAME` or `NAME as LOCAL`. -/
structure Item where
  name : Name
  localName? : Option Name

def Item.words : Item → List (List Char)
  | ⟨name, none⟩ => [name.chars]
  | ⟨name, some l⟩ => [name.chars, "as".toList, l.chars]

/-- The local name, and the path it stands for. -/
def Item.binding (module : ModulePath) (item : Item) : String × String :=
  (String.ofList (item.localName?.getD item.name).chars,
    String.ofList module.chars ++ "." ++ String.ofList item.name.chars)

theorem isDotted_of_isWordChar {c : Char} (h : isWordChar c = true) : isDotted c = true := by
  rw [isDotted, h, Bool.true_or]

theorem Name.isDotted (name : Name) : ∀ c ∈ name.chars, isDotted c = true :=
  fun c hc => isDotted_of_isWordChar (name.word c hc)

/-- The text has blanks and the characters of dotted names, nothing else. -/
def Dotted (cs : List Char) : Prop := ∀ w ∈ words cs, ∀ c ∈ w, isDotted c = true

theorem Dotted.not_mem {cs : List Char} (h : Dotted cs) {c : Char} (hblank : isBlank c = false)
    (hdotted : isDotted c = false) : c ∉ cs := by
  intro hc
  obtain ⟨w, hw, hcw⟩ := mem_words_of_mem hc hblank
  rw [h w hw c hcw] at hdotted
  cases hdotted

theorem dotted_plain {cs n : List Char} (h : words cs = [n]) (hn : ∀ c ∈ n, isDotted c = true) :
    Dotted cs := by
  rw [Dotted, h]
  rintro w hw
  rwa [List.mem_singleton.1 hw]

theorem dotted_renamed {cs n l : List Char} (h : words cs = [n, "as".toList, l])
    (hn : ∀ c ∈ n, isDotted c = true) (hl : ∀ c ∈ l, isDotted c = true) : Dotted cs := by
  rw [Dotted, h]
  intro w hw
  simp only [List.mem_cons, List.not_mem_nil, or_false] at hw
  rcases hw with rfl | rfl | rfl
  · exact hn
  · exact List.all_eq_true.1 (by decide)
  · exact hl

theorem dotted_item {item : Item} {cs : List Char} (h : words cs = item.words) : Dotted cs := by
  obtain ⟨name, none | l⟩ := item
  · exact dotted_plain h name.isDotted
  · exact dotted_renamed h name.isDotted l.isDotted

/-! ## Lists -/

theorem binding?_congr {p q : List Char} (h : words p = words q) : binding? p = binding? q := by
  rw [binding?, binding?, h]

theorem binding?_plain {piece n : List Char} (h : words piece = [n])
    (hn : ∀ c ∈ n, isDotted c = true) : binding? piece = some (String.ofList n, none) := by
  have hall : n.all isDotted = true := List.all_eq_true.2 hn
  simp [binding?, h, hall]

theorem binding?_renamed {piece n l : List Char} (h : words piece = [n, "as".toList, l])
    (hn : ∀ c ∈ n, isDotted c = true) (hl : ∀ c ∈ l, isWordChar c = true) :
    binding? piece = some (String.ofList n, some (String.ofList l)) := by
  have hn : n.all isDotted = true := List.all_eq_true.2 hn
  have hl : l.all isWordChar = true := List.all_eq_true.2 hl
  have has : "as".toList = ['a', 's'] := rfl
  rw [has] at h
  simp [binding?, h, hn, hl]

/-- What a piece of the list of a `from` statement binds. -/
def pieceBinding? (module piece : List Char) : Option (String × String) :=
  (binding? piece).bind fun (name, localName) =>
    if name == "*" then none
    else some (localName.getD name, String.ofList module ++ "." ++ name)

def listBindings (module cs : List Char) : List (String × String) :=
  (splitOn ',' cs).filterMap (pieceBinding? module)

theorem pieceBinding?_congr {module p q : List Char} (h : words p = words q) :
    pieceBinding? module p = pieceBinding? module q := by
  rw [pieceBinding?, pieceBinding?, binding?_congr h]

/-- The piece reads as an item, of this name and local name. -/
inductive Entry (piece : List Char) : List Char → List Char → Prop
  | plain {n : List Char} (h : words piece = [n]) (hn : ∀ c ∈ n, isDotted c = true) :
      Entry piece n n
  | renamed {n l : List Char} (h : words piece = [n, "as".toList, l])
      (hn : ∀ c ∈ n, isDotted c = true) (hl : ∀ c ∈ l, isWordChar c = true) : Entry piece n l

section Entries

variable {module piece n l : List Char}

theorem pieceBinding?_of_entry (h : Entry piece n l) : pieceBinding? module piece =
    some (String.ofList l, String.ofList module ++ "." ++ String.ofList n) := by
  have hstar : ∀ n : List Char, (∀ c ∈ n, isDotted c = true) → String.ofList n ≠ "*" := by
    intro n hn heq
    have hmem : '*' ∈ n := by
      rw [← String.toList_ofList (l := n), heq]
      decide
    exact absurd (hn _ hmem) (by decide)
  cases h with
  | plain h hn =>
    rw [pieceBinding?, binding?_plain h hn]
    simp [hstar _ hn]
  | renamed h hn hl =>
    rw [pieceBinding?, binding?_renamed h hn hl]
    simp [hstar _ hn]

theorem entry_of_pieceBinding? {e : String × String} (h : pieceBinding? module piece = some e) :
    ∃ n l, Entry piece n l ∧
      e = (String.ofList l, String.ofList module ++ "." ++ String.ofList n) := by
  obtain ⟨⟨name, localName⟩, hbinding, hbinds⟩ := Option.bind_eq_some_iff.1 h
  simp only at hbinds
  split at hbinds
  · cases hbinds
  · rename_i hstar
    cases hbinds
    rw [binding?] at hbinding
    simp only at hbinding
    split at hbinding
    · rename_i n hwords
      split at hbinding
      · rename_i hname
        cases hbinding
        have hn : n ≠ ['*'] := by
          rintro rfl
          exact hstar (by decide)
        have hdotted : n.all isDotted = true := by simpa [hn] using hname
        exact ⟨n, n, .plain hwords (List.all_eq_true.1 hdotted), rfl⟩
      · cases hbinding
    · rename_i n as l hwords
      split at hbinding
      · rename_i hname
        cases hbinding
        have hn : n ≠ ['*'] := by
          rintro rfl
          exact hstar (by decide)
        simp only [Bool.and_eq_true, Bool.or_eq_true, beq_iff_eq, hn, false_or] at hname
        obtain ⟨⟨hdotted, rfl⟩, hl⟩ := hname
        exact ⟨n, l, .renamed hwords (List.all_eq_true.1 hdotted) (List.all_eq_true.1 hl), rfl⟩
      · cases hbinding
    · cases hbinding

theorem pieceBinding?_item {module : ModulePath} {item : Item} (h : words piece = item.words) :
    pieceBinding? module.chars piece = some (item.binding module) := by
  obtain ⟨name, none | l⟩ := item
  · exact pieceBinding?_of_entry (.plain h name.isDotted)
  · exact pieceBinding?_of_entry (.renamed h name.isDotted l.word)

end Entries

section Lists

variable (module : List Char)

theorem listBindings_singleton {piece : List Char} (h : ',' ∉ piece) :
    listBindings module piece = (pieceBinding? module piece).toList := by
  rw [listBindings, splitOn_eq_singleton h]
  cases hpiece : pieceBinding? module piece <;> simp [hpiece]

theorem listBindings_comma (front back : List Char) :
    listBindings module (front ++ ',' :: back) =
      listBindings module front ++ listBindings module back := by
  rw [listBindings, splitOn_append_cons, List.filterMap_append]
  rfl

theorem listBindings_blank_append {blanks : List Char} (h : AllBlank blanks) (cs : List Char) :
    listBindings module (blanks ++ cs) = listBindings module cs := by
  induction blanks with
  | nil => rfl
  | cons c blanks ih =>
    have hc : isBlank c = true := h c List.mem_cons_self
    have hcomma : (c == ',') = false := by
      rw [beq_eq_false_iff_ne]
      rintro rfl
      exact absurd hc (by decide)
    rw [← ih fun d hd => h d (List.mem_cons_of_mem _ hd), List.cons_append, listBindings, splitOn,
      hcomma, listBindings]
    cases hpieces : splitOn ',' (blanks ++ cs) with
    | nil => exact absurd hpieces (splitOn_ne_nil _ _)
    | cons piece pieces =>
      have hpiece : pieceBinding? module (c :: piece) = pieceBinding? module piece :=
        pieceBinding?_congr (words_cons_blank hc piece)
      simp only [Bool.false_eq_true, if_false, List.filterMap_cons, hpiece]

theorem listBindings_append_blank {blanks : List Char} (h : AllBlank blanks) (cs : List Char) :
    listBindings module (cs ++ blanks) = listBindings module cs := by
  by_cases hcomma : ',' ∈ cs
  · obtain ⟨front, back, hcs⟩ := List.append_of_mem hcomma
    rw [hcs, List.append_assoc, List.cons_append, listBindings_comma, listBindings_comma,
      listBindings_append_blank h back]
  · have hblank : ',' ∉ blanks := fun hmem => absurd (h _ hmem) (by decide)
    rw [listBindings_singleton module hcomma,
      listBindings_singleton module (by simp [hcomma, hblank]),
      pieceBinding?_congr (words_append_blank h cs)]
termination_by cs.length
decreasing_by
  rw [hcs, List.length_append, List.length_cons]
  omega

theorem listBindings_trim (cs : List Char) :
    listBindings module (trim cs) = listBindings module cs := by
  obtain ⟨front, back, hfront, hback, hcs⟩ := exists_trim cs
  rw [hcs, listBindings_blank_append module hfront, listBindings_append_blank module hback, ← hcs]

theorem fromBindings_eq (list : List Char) :
    fromBindings module list = listBindings module (unwrapList (trim list)) := by
  rw [fromBindings, splitNames, List.filterMap_filterMap]
  rfl

theorem unwrapList_bare {list : List Char} (h : list.head? ≠ some '(') :
    unwrapList list = list := by
  have hbare : stripPrefix? ['('] list = none := by
    cases list with
    | nil => rfl
    | cons c cs =>
      have hc : c ≠ '(' := by simpa using h
      simp [stripPrefix?, hc.symm]
  rw [unwrapList, hbare]

theorem fromBindings_bare {list : List Char} (h : (trim list).head? ≠ some '(') :
    fromBindings module list = listBindings module list := by
  rw [fromBindings_eq, unwrapList_bare h, listBindings_trim]

theorem fromBindings_wrapped (inner : List Char) :
    fromBindings module ('(' :: (inner ++ [')'])) = listBindings module inner := by
  have hopen : isBlank '(' = false := by decide
  have hclose : isBlank ')' = false := by decide
  have htrim : trim ('(' :: (inner ++ [')'])) = '(' :: (inner ++ [')']) := by
    simp [trim, hopen, hclose]
  have hopened : stripPrefix? ['('] ('(' :: (inner ++ [')'])) = some (inner ++ [')']) :=
    stripPrefix?_eq_some_iff.2 rfl
  have hinner : stripSuffix? [')'] (inner ++ [')']) = some inner := stripSuffix?_eq_some_iff.2 rfl
  rw [fromBindings_eq, htrim, unwrapList, hopened]
  simp only [hinner, Option.getD_some]

end Lists

/-! ## Keywords -/

def LineBlanks (cs : List Char) : Prop := ∀ c ∈ cs, isLineBlank c = true

/-- What stands between two words of a statement. -/
structure Gap (cs : List Char) : Prop where
  ne_nil : cs ≠ []
  blank : LineBlanks cs

theorem lineBlanks_nil : LineBlanks [] := by
  intro c hc
  cases hc

theorem gap_blank : Gap [' '] := ⟨List.cons_ne_nil _ _, List.all_eq_true.1 (by decide)⟩

theorem dropWhile_lineBlanks {blanks : List Char} (h : LineBlanks blanks) (cs : List Char) :
    (blanks ++ cs).dropWhile isLineBlank = cs.dropWhile isLineBlank :=
  List.dropWhile_append_of_pos h

theorem dropWhile_lineBlanks_cons {blanks : List Char} (h : LineBlanks blanks) {c : Char}
    (hc : isLineBlank c = false) (cs : List Char) :
    (blanks ++ c :: cs).dropWhile isLineBlank = c :: cs := by
  rw [dropWhile_lineBlanks h, List.dropWhile_cons, hc]
  rfl

theorem Gap.keyword?_eq {gap : List Char} (h : Gap gap) (word : String) (rest : List Char) :
    keyword? word (word.toList ++ (gap ++ rest)) = some (rest.dropWhile isLineBlank) := by
  rw [keyword?, stripPrefix?_eq_some_iff.2 rfl]
  cases gap with
  | nil => exact absurd rfl h.ne_nil
  | cons c gap =>
    have hgap : LineBlanks gap := fun d hd => h.blank d (List.mem_cons_of_mem _ hd)
    simp only [List.cons_append, h.blank c List.mem_cons_self, if_true, dropWhile_lineBlanks hgap]

theorem Gap.keyword?_indented {gap indent : List Char} (h : Gap gap) (hindent : LineBlanks indent)
    {word : String} (hword : word.toList.head?.any (!isLineBlank ·) = true) (rest : List Char) :
    keyword? word ((indent ++ (word.toList ++ (gap ++ rest))).dropWhile isLineBlank) =
      some (rest.dropWhile isLineBlank) := by
  rw [← h.keyword?_eq word rest]
  cases hchars : word.toList with
  | nil =>
    rw [hchars] at hword
    cases hword
  | cons c cs =>
    have hc : isLineBlank c = false := by simpa [hchars] using hword
    rw [List.cons_append, dropWhile_lineBlanks_cons hindent hc]

theorem not_isLineBlank_of_isDotted {c : Char} (h : isDotted c = true) : isLineBlank c = false := by
  rw [← Bool.not_eq_true, isLineBlank, Bool.or_eq_true, beq_iff_eq, beq_iff_eq]
  rintro (rfl | rfl)
  · exact absurd h (by decide)
  · exact absurd h (by decide)

theorem dropWhile_isLineBlank_dotted {w : List Char} (hne : w ≠ [])
    (hw : ∀ c ∈ w, isDotted c = true) (rest : List Char) :
    (w ++ rest).dropWhile isLineBlank = w ++ rest := by
  obtain ⟨c, w, rfl⟩ := List.exists_cons_of_ne_nil hne
  rw [List.cons_append, List.dropWhile_cons,
    not_isLineBlank_of_isDotted (hw c List.mem_cons_self)]
  rfl

/-- Neither of the two statements starts with the line. -/
structure Idle (line : List Char) : Prop where
  noImport : keyword? "import" (line.dropWhile isLineBlank) = none
  noFrom : keyword? "from" (line.dropWhile isLineBlank) = none

theorem keyword?_of_head {word : String} {c d : Char} {cs rest : List Char}
    (hword : word.toList = d :: rest) (h : c ≠ d) : keyword? word (c :: cs) = none := by
  simp [keyword?, hword, stripPrefix?, h.symm]

theorem keyword?_cut {word : String} (hword : '\n' ∉ word.toList) (line rest : List Char)
    (h : keyword? word line = none) : keyword? word (line ++ '\n' :: rest) = none := by
  rw [keyword?, stripPrefix?_cut hword]
  rw [keyword?] at h
  cases hline : stripPrefix? word.toList line with
  | none => rfl
  | some cs =>
    rw [hline] at h
    cases cs with
    | nil => rfl
    | cons c cs =>
      simp only [ite_eq_right_iff, reduceCtorEq, imp_false] at h
      simp [h]

/-! ## Statements -/

/-- `from MODULE import`, with blanks around the three words. -/
inductive LeadIn (module : ModulePath) : List Char → Prop
  | mk {indent first second third : List Char} (hindent : LineBlanks indent) (hfirst : Gap first)
      (hsecond : Gap second) (hthird : Gap third) :
      LeadIn module (indent ++ ("from".toList ++ (first ++ (module.chars ++ (second ++
        ("import".toList ++ third))))))

theorem LineBlanks.not_mem {blanks : List Char} (h : LineBlanks blanks) : '\n' ∉ blanks :=
  fun hmem => absurd (h _ hmem) (by decide)

theorem LeadIn.not_mem {module : ModulePath} {head : List Char} (h : LeadIn module head) :
    '\n' ∉ head := by
  obtain ⟨hindent, hfirst, hsecond, hthird⟩ := h
  have hmodule : '\n' ∉ module.chars := fun hmem => absurd (module.dotted _ hmem) (by decide)
  simp [hindent.not_mem, hfirst.blank.not_mem, hsecond.blank.not_mem, hthird.blank.not_mem, hmodule]

/-- A line of a `from` statement is none of an `import`. -/
theorem LeadIn.importList?_eq_none {module : ModulePath} {head : List Char} (h : LeadIn module head)
    (rest : List Char) : importList? (head ++ rest) = none := by
  obtain @⟨indent, first, second, third, hindent, -, -, -⟩ := h
  rw [importList?, List.append_assoc, dropWhile_lineBlanks hindent]
  rfl

/-- The list at the start of a text, and what is left behind it. -/
def listAndRest (body : List Char) : List Char × List Char :=
  if body.head? = some '(' ∧ ')' ∈ body then
    (body.takeWhile (· != ')') ++ [')'], (body.dropWhile (· != ')')).tail)
  else (statementPart body, body)

theorem LeadIn.fromImport?_eq {module : ModulePath} {head : List Char} (h : LeadIn module head)
    (body : List Char) : fromImport? (head ++ body) =
      some (module.chars, listAndRest (body.dropWhile isLineBlank)) := by
  obtain @⟨indent, first, second, third, hindent, hfirst, hsecond, hthird⟩ := h
  simp only [List.append_assoc]
  rw [fromImport?, hfirst.keyword?_indented hindent (by decide)]
  cases second with
  | nil => exact absurd rfl hsecond.ne_nil
  | cons c second =>
    have hc : isLineBlank c = true := hsecond.blank c List.mem_cons_self
    have hdot : isDotted c = false := by
      rw [← Bool.not_eq_true]
      intro hdotted
      rw [not_isLineBlank_of_isDotted hdotted] at hc
      cases hc
    have hstart : (module.chars ++ (c :: second ++ ("import".toList ++ (third ++ body)))).dropWhile
        isLineBlank = module.chars ++ c :: (second ++ ("import".toList ++ (third ++ body))) :=
      dropWhile_isLineBlank_dotted module.ne_nil module.dotted _
    have htake : (module.chars ++ c :: (second ++ ("import".toList ++ (third ++ body)))).takeWhile
        isDotted = module.chars := by
      rw [takeWhile_cut hdot, List.takeWhile_eq_self_iff.2 module.dotted]
    have hdrop : (module.chars ++ c :: (second ++ ("import".toList ++ (third ++ body)))).dropWhile
        isDotted = c :: (second ++ ("import".toList ++ (third ++ body))) := by
      rw [dropWhile_cut hdot, List.dropWhile_eq_nil_iff.2 module.dotted, List.nil_append]
    have hbody : keyword? "import" ((second ++ ("import".toList ++ (third ++ body))).dropWhile
        isLineBlank) = some (body.dropWhile isLineBlank) :=
      hthird.keyword?_indented (fun d hd => hsecond.blank d (List.mem_cons_of_mem _ hd))
        (by decide) body
    simp only [hstart, htake, hdrop, hc, hbody, List.isEmpty_eq_false_iff.2 module.ne_nil,
      Bool.not_true, Bool.or_self, Bool.false_eq_true, if_false]
    generalize body.dropWhile isLineBlank = list
    cases hclose : list.dropWhile (· != ')') with
    | nil =>
      have hnone : ')' ∉ list := by
        intro hmem
        have hpass := List.dropWhile_eq_nil_iff.1 hclose _ hmem
        simp at hpass
      simp [listAndRest, hnone]
    | cons d after =>
      have hsome : ')' ∈ list := by
        by_contra hnone
        rw [List.dropWhile_eq_nil_iff.2 (bne_of_not_mem hnone)] at hclose
        cases hclose
      by_cases hopen : list.head? = some '('
      · simp [listAndRest, hsome, hopen, hclose]
      · simp [listAndRest, hopen]

theorem fromImport?_bare {module : ModulePath} {head body : List Char} (h : LeadIn module head)
    (hbare : (body.dropWhile isLineBlank).head? ≠ some '(') :
    fromImport? (head ++ body) =
      some (module.chars, statementPart (body.dropWhile isLineBlank),
        body.dropWhile isLineBlank) := by
  rw [h.fromImport?_eq, listAndRest, if_neg fun hlist => hbare hlist.1]

theorem fromImport?_wrapped {module : ModulePath} {head inner : List Char} (h : LeadIn module head)
    (hinner : ')' ∉ inner) (after : List Char) :
    fromImport? (head ++ '(' :: (inner ++ ')' :: after)) =
      some (module.chars, '(' :: (inner ++ [')']), after) := by
  have hbody : ('(' :: (inner ++ ')' :: after)).dropWhile isLineBlank =
      '(' :: (inner ++ ')' :: after) := by
    simp [isLineBlank]
  have hopen : ∀ c ∈ '(' :: inner, (c != ')') = true := bne_of_not_mem (by simp [hinner])
  have htake : ('(' :: (inner ++ ')' :: after)).takeWhile (· != ')') = '(' :: inner := by
    rw [← List.cons_append, takeWhile_cut (by decide), List.takeWhile_eq_self_iff.2 hopen]
  have hdrop : ('(' :: (inner ++ ')' :: after)).dropWhile (· != ')') = ')' :: after := by
    rw [← List.cons_append, dropWhile_cut (by decide), List.dropWhile_eq_nil_iff.2 hopen,
      List.nil_append]
  rw [h.fromImport?_eq, hbody, listAndRest, if_pos ⟨rfl, by simp⟩, htake, hdrop]
  rfl

/-! ## Lines -/

/-- The end of the text, or of a line. -/
def Breaks (tail : List Char) : Prop := ∀ c ∈ tail.head?, c = '\n'

theorem breaks_nil : Breaks [] := by
  intro c hc
  cases hc

theorem breaks_cons (rest : List Char) : Breaks ('\n' :: rest) := by
  rintro c ⟨⟩
  rfl

theorem nextLine_append {line tail : List Char} (hline : '\n' ∉ line) (htail : Breaks tail) :
    nextLine (line ++ tail) = tail.drop 1 := by
  rw [nextLine, List.dropWhile_append_of_pos (bne_of_not_mem hline)]
  cases tail with
  | nil => rfl
  | cons c tail =>
    rw [htail c rfl]
    rfl

theorem length_nextLine_le (cs : List Char) : (nextLine cs).length ≤ cs.length - 1 := by
  have hdrop : (cs.dropWhile (· != '\n')).length ≤ cs.length := List.length_dropWhile_le _ _
  rw [nextLine, List.length_drop]
  exact Nat.sub_le_sub_right hdrop 1

theorem length_lt_of_keyword? {word : String} {cs rest : List Char}
    (h : keyword? word cs = some rest) : rest.length < cs.length := by
  rw [keyword?] at h
  split at h
  · rename_i c after hstrip
    split at h
    · cases h
      have hdrop := List.length_dropWhile_le isLineBlank after
      rw [stripPrefix?_eq_some_iff.1 hstrip, List.length_append, List.length_cons]
      omega
    · cases h
  · cases h

theorem length_lt_of_fromImport? {cs module list rest : List Char}
    (h : fromImport? cs = some (module, list, rest)) : rest.length < cs.length := by
  rw [fromImport?] at h
  split at h
  · cases h
  · rename_i start hfrom
    have hstart := length_lt_of_keyword? hfrom
    have hindent := List.length_dropWhile_le isLineBlank cs
    simp only at h
    split at h
    · rename_i c second hmodule
      have hsecond := List.length_dropWhile_le isDotted start
      rw [hmodule, List.length_cons] at hsecond
      split at h
      · cases h
      · split at h
        · cases h
        · rename_i body himport
          have hbody := length_lt_of_keyword? himport
          have hgap := List.length_dropWhile_le isLineBlank second
          have hrest : rest.length ≤ body.length := by
            split at h
            · rename_i close after hclose
              have hafter := List.length_dropWhile_le (· != ')') body
              rw [hclose, List.length_cons] at hafter
              split at h
              · cases h
                omega
              · cases h
                exact Nat.le_refl _
            · cases h
              exact Nat.le_refl _
          omega
    · cases h

/-- The `from` statements of a text. -/
def statementsFrom (cs : List Char) : List (List Char × List Char) :=
  fromImports (cs.length + 1) cs

theorem fromImports_cons (fuel : Nat) (c : Char) (cs : List Char) :
    fromImports (fuel + 1) (c :: cs) =
      match fromImport? (c :: cs) with
      | some (module, list, rest) => (module, list) :: fromImports fuel (nextLine rest)
      | none => fromImports fuel (nextLine (c :: cs)) := rfl

theorem fromImports_congr {cs : List Char} {fuel fuel' : Nat} (h : cs.length < fuel)
    (h' : cs.length < fuel') : fromImports fuel cs = fromImports fuel' cs := by
  induction fuel generalizing cs fuel' with
  | zero => cases h
  | succ fuel ih =>
    cases fuel' with
    | zero => cases h'
    | succ fuel' =>
      cases cs with
      | nil => rfl
      | cons c cs =>
        rw [fromImports_cons, fromImports_cons]
        cases hstatement : fromImport? (c :: cs) with
        | none =>
          have hnext := length_nextLine_le (c :: cs)
          rw [List.length_cons] at h h' hnext
          exact ih (by omega) (by omega)
        | some found =>
          obtain ⟨module, list, rest⟩ := found
          have hrest := length_lt_of_fromImport? hstatement
          have hnext := length_nextLine_le rest
          exact congrArg _ (ih (by omega) (by omega))

theorem statementsFrom_of_some {cs module list rest : List Char}
    (h : fromImport? cs = some (module, list, rest)) :
    statementsFrom cs = (module, list) :: statementsFrom (nextLine rest) := by
  have hrest := length_lt_of_fromImport? h
  have hnext := length_nextLine_le rest
  cases cs with
  | nil => cases hrest
  | cons c cs =>
    rw [statementsFrom, fromImports_cons, h]
    exact congrArg _ (fromImports_congr (by omega) (Nat.lt_succ_self _))

theorem statementsFrom_of_none {cs : List Char} (h : fromImport? cs = none) :
    statementsFrom cs = statementsFrom (nextLine cs) := by
  cases cs with
  | nil => rfl
  | cons c cs =>
    have hnext := length_nextLine_le (c :: cs)
    rw [List.length_cons] at hnext
    rw [statementsFrom, fromImports_cons, h]
    exact fromImports_congr (by rw [List.length_cons]; omega) (Nat.lt_succ_self _)

/-! ## The two halves of the table -/

def plainBindings (cs : List Char) : List (String × String) :=
  ((splitOn '\n' cs).filterMap importList?).flatMap importBindings

def qualifiedBindings (cs : List Char) : List (String × String) :=
  (statementsFrom cs).flatMap fun (m, l) => fromBindings m l

theorem ofPython_eq (cs : List Char) :
    ofPython cs = ⟨SortedMap.ofList (plainBindings cs ++ qualifiedBindings cs)⟩ := rfl

/-- The first line counts for what it is, and reading goes on behind it. -/
theorem plainBindings_line {line tail : List Char} (hline : '\n' ∉ line) (htail : Breaks tail) :
    plainBindings (line ++ tail) =
      (importList? line).toList.flatMap importBindings ++ plainBindings (tail.drop 1) := by
  have hfirst : [line].filterMap importList? = (importList? line).toList := by
    cases hlist : importList? line <;> simp [hlist]
  cases tail with
  | nil =>
    rw [List.append_nil, plainBindings, splitOn_eq_singleton hline, hfirst]
    exact (List.append_nil _).symm
  | cons c tail =>
    rw [htail c rfl, plainBindings, splitOn_append_cons, splitOn_eq_singleton hline,
      List.filterMap_append, List.flatMap_append, hfirst]
    rfl

theorem fromImport?_eq_none {line tail : List Char} (htail : Breaks tail)
    (h : keyword? "from" (line.dropWhile isLineBlank) = none) :
    fromImport? (line ++ tail) = none := by
  have hnone : keyword? "from" ((line ++ tail).dropWhile isLineBlank) = none := by
    cases tail with
    | nil => rwa [List.append_nil]
    | cons c tail =>
      rw [htail c rfl, dropWhile_cut (by decide)]
      exact keyword?_cut (by decide) _ _ h
  rw [fromImport?, hnone]

theorem qualifiedBindings_line_none {line tail : List Char} (hline : '\n' ∉ line)
    (htail : Breaks tail) (h : keyword? "from" (line.dropWhile isLineBlank) = none) :
    qualifiedBindings (line ++ tail) = qualifiedBindings (tail.drop 1) := by
  rw [qualifiedBindings, statementsFrom_of_none (fromImport?_eq_none htail h),
    nextLine_append hline htail]
  rfl

theorem qualifiedBindings_of_some {cs module list rest : List Char}
    (h : fromImport? cs = some (module, list, rest)) :
    qualifiedBindings cs = fromBindings module list ++ qualifiedBindings (nextLine rest) := by
  rw [qualifiedBindings, statementsFrom_of_some h, List.flatMap_cons]
  rfl

end LeakScan.ImportAliases
