import LeakScan.Language
import LeakScan.Proofs.Text.Words

/-!
# LeakScan.Proofs.Path

Paths that are put together from names.

* `Path.IsName` — what an entry of a directory can be called.
* `parts_ofParts` — a path of names has these as its parts; `ofParts_inj` follows.
* `join_inj` — different paths stay different below one root.
* `Path.HasExtension`, `extension?_ofParts` — the extension of a path is that of its last name.
* `ofPath?_eq_some_iff` — a language is known by its extensions, of which no two share one.
-/

namespace LeakScan

open Text

namespace Path

/-- What an entry of a directory can be called. -/
def IsName (name : String) : Prop :=
  name ≠ "" ∧ '/' ∉ name.toList ∧ name ≠ "." ∧ name ≠ ".."

instance (name : String) : Decidable (IsName name) := inferInstanceAs (Decidable (_ ∧ _))

/-- A path of names, as it is written. -/
theorem toList_ofParts (names : List String) :
    (ofParts false names).toList = ['/'].intercalate (names.map String.toList) := by
  rw [ofParts, if_neg (by decide), String.toList_append, String.toList_intercalate]
  rfl

theorem parts_ofParts {names : List String} (hne : names ≠ []) (h : ∀ n ∈ names, IsName n) :
    parts (ofParts false names) = names := by
  have hpieces : (splitOn '/' (ofParts false names).toList).map String.ofList = names := by
    have hslashes : ∀ piece ∈ names.map String.toList, '/' ∉ piece := by
      intro piece hpiece
      obtain ⟨name, hname, rfl⟩ := List.mem_map.1 hpiece
      exact (h name hname).2.1
    rw [toList_ofParts, splitOn_intercalate (by simpa using hne) hslashes, List.map_map]
    exact (List.map_congr_left fun name _ => String.ofList_toList).trans (List.map_id names)
  have hkept : (names.filter fun p => p != "" && p != ".") = names := by
    rw [List.filter_eq_self]
    intro name hname
    simpa using ⟨(h name hname).1, (h name hname).2.2.1⟩
  rw [parts]
  simp only [hpieces]
  split
  · exact absurd rfl (h "." List.mem_cons_self).2.2.1
  · exact hkept

theorem ofParts_inj {names names' : List String} (hne : names ≠ []) (hne' : names' ≠ [])
    (h : ∀ n ∈ names, IsName n) (h' : ∀ n ∈ names', IsName n)
    (heq : ofParts false names = ofParts false names') : names = names' := by
  rw [← parts_ofParts hne h, heq, parts_ofParts hne' h']

theorem ofParts_ne_empty {names : List String} (hne : names ≠ []) (h : ∀ n ∈ names, IsName n) :
    ofParts false names ≠ "" := by
  intro hempty
  have hparts := parts_ofParts hne h
  rw [hempty] at hparts
  exact hne hparts.symm

theorem ofParts_concat {names : List String} (hne : names ≠ []) (name : String) :
    ofParts false (names ++ [name]) = ofParts false names ++ "/" ++ name := by
  induction names with
  | nil => exact absurd rfl hne
  | cons n names ih =>
    cases names with
    | nil => simp [ofParts, String.intercalate_cons_cons]
    | cons next rest =>
      have hrest := ih (List.cons_ne_nil _ _)
      simp only [ofParts, Bool.false_eq_true, if_false, String.empty_append, List.cons_append,
        String.intercalate_cons_cons] at hrest ⊢
      rw [hrest]
      simp only [String.append_assoc]

theorem isAbsolute_ofParts {names : List String} (h : ∀ n ∈ names, IsName n) :
    isAbsolute (ofParts false names) = false := by
  cases names with
  | nil => rfl
  | cons name rest =>
    obtain ⟨hempty, hslash, -⟩ := h name List.mem_cons_self
    cases hname : name.toList with
    | nil => exact absurd (String.toList_eq_nil_iff.1 hname) hempty
    | cons c cs =>
      have hc : c ≠ '/' := by
        rintro rfl
        exact hslash (by simp [hname])
      have hstart : ∃ more, (ofParts false (name :: rest)).toList = c :: more := by
        rw [toList_ofParts, List.map_cons, hname]
        cases rest with
        | nil => exact ⟨cs, by simp⟩
        | cons next rest => exact ⟨_, by rw [List.map_cons, List.intercalate_cons_cons]; rfl⟩
      obtain ⟨more, hmore⟩ := hstart
      rw [isAbsolute, hmore]
      simpa using hc

theorem join_inj {base path path' : String} (hpath : isAbsolute path = false)
    (hpath' : isAbsolute path' = false) (h : join base path = join base path') : path = path' := by
  rw [join, join, hpath, hpath'] at h
  split at h
  · exact h
  · split at h
    · exact (String.append_right_inj _).1 h
    · exact (String.append_right_inj _).1 h

/-- The name ends in a dot and the extension, and something stands before that. -/
def HasExtension (name ext : String) : Prop :=
  ∃ stem, stem ≠ [] ∧ name.toList = stem ++ '.' :: ext.toList ∧ '.' ∉ ext.toList

theorem extension?_ofParts {above : List String} {name ext : String}
    (habove : ∀ n ∈ above, IsName n) (hname : IsName name) :
    extension? (ofParts false (above ++ [name])) = some ext ↔ HasExtension name ext := by
  have hnames : ∀ n ∈ above ++ [name], IsName n :=
    List.forall_mem_append.2 ⟨habove, by simpa using hname⟩
  have hfile : fileName? (ofParts false (above ++ [name])) = some name := by
    rw [fileName?, parts_ofParts (by simp) hnames, List.getLast?_concat]
    split
    · rename_i heq
      exact absurd (Option.some.inj heq) hname.2.2.1
    · rename_i heq
      exact absurd (Option.some.inj heq) hname.2.2.2
    · rfl
  rw [extension?, hfile]
  constructor
  · intro h
    simp only at h
    split at h
    · cases h
    · rename_i stem back hstem hsplit
      cases h
      obtain ⟨hchars, hdot⟩ := splitLast?_eq_some_iff.1 hsplit
      refine ⟨stem, ?_, by rw [String.toList_ofList]; exact hchars,
        by rw [String.toList_ofList]; exact hdot⟩
      rintro rfl
      exact hstem rfl
    · cases h
  · rintro ⟨stem, hstem, hchars, hdot⟩
    cases stem with
    | nil => exact absurd rfl hstem
    | cons c stem =>
      simp only [splitLast?_eq_some_iff.2 ⟨hchars, hdot⟩, String.ofList_toList]

end Path

theorem ofPath?_eq_some_iff {path : String} {language : Language} :
    Language.ofPath? path = some language ↔
      ∃ ext, Path.extension? path = some ext ∧ lowerAscii ext ∈ language.extensions := by
  have hall : ∀ l : Language, l ∈ Language.all := by
    intro l
    cases l <;> decide
  have hdisjoint : ∀ l ∈ Language.all, ∀ l' ∈ Language.all, ∀ ext ∈ l.extensions,
      ext ∈ l'.extensions → l = l' := by decide
  rw [Language.ofPath?]
  cases hext : Path.extension? path with
  | none => simp
  | some ext =>
    simp only [Option.some.injEq, exists_eq_left']
    constructor
    · intro h
      have hfound := List.find?_some h
      exact List.contains_iff_mem.1 hfound
    · intro h
      cases hfound : Language.all.find? fun l => l.extensions.contains (lowerAscii ext) with
      | none =>
        have hnone := List.find?_eq_none.1 hfound language (hall language)
        exact absurd (List.contains_iff_mem.2 h) hnone
      | some other =>
        have hother := List.find?_some hfound
        rw [hdisjoint other (hall other) language (hall language) _
          (List.contains_iff_mem.1 hother) h]

end LeakScan
