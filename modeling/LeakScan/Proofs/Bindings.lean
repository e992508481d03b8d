import LeakScan.Bindings
import LeakScan.Proofs.SortedMap

/-!
# LeakScan.Proofs.Bindings

What it means for the captures of an acquisition and of a cleanup to go together.

* `UpToQuotes` — two texts that are the same but for one pair of quotes around either.
* `Bindings.Agree` — all names captured on both sides hold the same text up to quotes.
* `Bindings.Share` — some name is captured on both sides.
* `agree_of_unify`, `unify_of_not_share` — captures that unify agree, and captures without a
  common name unify whatever they hold.
-/

namespace LeakScan

open Text

theorem stripPrefix?_eq_some_iff {p cs rest : List Char} :
    stripPrefix? p cs = some rest ↔ cs = p ++ rest := by
  induction p generalizing cs with
  | nil => simp [stripPrefix?, eq_comm]
  | cons c p ih =>
    cases cs with
    | nil => simp [stripPrefix?]
    | cons d cs =>
      rw [stripPrefix?]
      by_cases h : c = d
      · subst h
        simp [ih]
      · simp [h, Ne.symm h]

theorem stripSuffix?_eq_some_iff {p cs rest : List Char} :
    stripSuffix? p cs = some rest ↔ cs = rest ++ p := by
  rw [stripSuffix?, Option.map_eq_some_iff]
  constructor
  · rintro ⟨back, hback, rfl⟩
    have hrev := congrArg List.reverse (stripPrefix?_eq_some_iff.1 hback)
    simpa using hrev
  · rintro rfl
    exact ⟨rest.reverse, stripPrefix?_eq_some_iff.2 (by simp), by simp⟩

theorem startsWith_iff {start cs : List Char} : startsWith start cs = true ↔ start <+: cs := by
  rw [startsWith, Option.isSome_iff_exists]
  simp only [stripPrefix?_eq_some_iff]
  exact ⟨fun ⟨rest, h⟩ => ⟨rest, h.symm⟩, fun ⟨rest, h⟩ => ⟨rest, h.symm⟩⟩

theorem occursIn_iff {needle cs : List Char} : occursIn needle cs = true ↔ needle <:+: cs := by
  induction cs with
  | nil => simp [occursIn]
  | cons c cs ih =>
    rw [occursIn, Bool.or_eq_true, List.infix_cons_iff]
    exact or_congr startsWith_iff ih

/-! ## Quotes -/

/-- The text itself, or the text in a pair of quotes. -/
def Quotes (bare value : List Char) : Prop :=
  value = bare ∨ ∃ q ∈ ['"', '\'', '\x60'], value = q :: (bare ++ [q])

/-- The same text but for one pair of quotes around either. -/
def UpToQuotes (v w : String) : Prop := ∃ bare, Quotes bare v.toList ∧ Quotes bare w.toList

theorem quotes_of_strip {q : Char} (hq : q ∈ ['"', '\'', '\x60']) {value inner : List Char}
    (h : (stripPrefix? [q] value).bind (stripSuffix? [q]) = some inner) : Quotes inner value := by
  obtain ⟨rest, hrest, hinner⟩ := Option.bind_eq_some_iff.1 h
  refine .inr ⟨q, hq, ?_⟩
  rw [stripPrefix?_eq_some_iff.1 hrest, stripSuffix?_eq_some_iff.1 hinner]
  rfl

theorem quotes_unquoted (value : List Char) : Quotes (unquoted value) value := by
  simp only [unquoted]
  split
  · rename_i inner h
    exact quotes_of_strip (by simp) h
  · split
    · rename_i inner h
      exact quotes_of_strip (by simp) h
    · cases h : (stripPrefix? ['\x60'] value).bind (stripSuffix? ['\x60']) with
      | some inner => exact quotes_of_strip (by simp) h
      | none => exact .inl rfl

theorem upToQuotes_of_sameValue {v w : String} (h : sameValue v w = true) : UpToQuotes v w := by
  rw [sameValue, Bool.or_eq_true, beq_iff_eq, beq_iff_eq] at h
  rcases h with rfl | h
  · exact ⟨v.toList, .inl rfl, .inl rfl⟩
  · exact ⟨unquoted v.toList, quotes_unquoted _, h ▸ quotes_unquoted _⟩

/-! ## Captures -/

namespace Bindings

/-- Names captured on both sides hold the same text up to quotes. -/
def Agree (a c : Bindings) : Prop :=
  ∀ name v w, a.get? name = some v → c.get? name = some w → UpToQuotes v w

/-- A name is captured on both sides. -/
def Share (a c : Bindings) : Prop :=
  ∃ name v w, a.get? name = some v ∧ c.get? name = some w

theorem share_iff {a c : Bindings} :
    (a.entries.any fun e => (c.get? e.1).isSome) = true ↔ a.Share c := by
  simp only [List.any_eq_true, Option.isSome_iff_exists]
  constructor
  · rintro ⟨⟨name, v⟩, hmem, w, hw⟩
    exact ⟨name, v, w, SortedMap.mem_entries_iff.1 hmem, hw⟩
  · rintro ⟨name, v, w, hv, hw⟩
    exact ⟨(name, v), SortedMap.mem_entries_iff.2 hv, w, hw⟩

instance (a c : Bindings) : Decidable (a.Share c) := decidable_of_iff _ share_iff

end Bindings

theorem unify_eq_true_iff {a c : Bindings} (ha : a.isEmpty = false) :
    unify a c = true ↔
      ∀ name v w, a.get? name = some v → c.get? name = some w → sameValue v w = true := by
  simp only [unify, ha, Bool.false_eq_true, if_false, List.all_eq_true]
  constructor
  · intro h name v w hv hw
    have := h (name, v) (SortedMap.mem_entries_iff.2 hv)
    simpa [hw] using this
  · rintro h ⟨name, v⟩ hmem
    cases hw : c.get? name with
    | none => rfl
    | some w => simpa [hw] using h name v w (SortedMap.mem_entries_iff.1 hmem) hw

theorem get?_of_isEmpty {a : Bindings} (ha : a.isEmpty = true) (name : String) :
    a.get? name = none := by
  have hnil : a.entries = [] := by simpa [SortedMap.isEmpty] using ha
  rw [SortedMap.get?, hnil]
  rfl

theorem agree_of_unify {a c : Bindings} (h : unify a c = true) : a.Agree c := by
  intro name v w hv hw
  cases ha : a.isEmpty with
  | true => rw [get?_of_isEmpty ha] at hv; cases hv
  | false => exact upToQuotes_of_sameValue ((unify_eq_true_iff ha).1 h name v w hv hw)

theorem unify_of_not_share {a c : Bindings} (ha : a.isEmpty = false) (h : ¬a.Share c) :
    unify a c = true := by
  rw [unify_eq_true_iff ha]
  intro name v w hv hw
  exact absurd ⟨name, v, w, hv, hw⟩ h

end LeakScan
