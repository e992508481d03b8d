/-!
# LeakScan.SortedMap

Finite maps as lists of entries in strictly ascending order of their keys. Two maps with the same
entries are equal.

* `SortedMap` — entries with the order as a proof field.
* `get?`, `alter`, `insert`, `ofList` — look-up and change of single keys.
* `mapValues` — change of all values.
* `mergeWith` — union, with a rule for keys that both maps hold.
-/

namespace LeakScan

/-- Entries in strictly ascending order of their keys. -/
def KeysAscend [Ord κ] (entries : List (κ × ν)) : Prop :=
  entries.Pairwise fun a b => compare a.1 b.1 = .lt

structure SortedMap (κ : Type u) (ν : Type v) [Ord κ] where
  entries : List (κ × ν) := []
  ascending : KeysAscend entries := by exact List.Pairwise.nil

namespace SortedMap

variable {κ : Type u} {ν : Type v} [Ord κ]

def empty : SortedMap κ ν := {}

instance : Inhabited (SortedMap κ ν) := ⟨empty⟩

theorem ext {a b : SortedMap κ ν} (h : a.entries = b.entries) : a = b := by
  cases a; cases b; cases h; rfl

instance [DecidableEq κ] [DecidableEq ν] : DecidableEq (SortedMap κ ν) := fun a b =>
  if h : a.entries = b.entries then .isTrue (ext h)
  else .isFalse fun hab => h (hab ▸ rfl)

def valueAt? (key : κ) : List (κ × ν) → Option ν
  | [] => none
  | (k, v) :: rest => if compare key k == .eq then some v else valueAt? key rest

def get? (m : SortedMap κ ν) (key : κ) : Option ν := valueAt? key m.entries

def contains (m : SortedMap κ ν) (key : κ) : Bool := (m.get? key).isSome

def toList (m : SortedMap κ ν) : List (κ × ν) := m.entries

def keys (m : SortedMap κ ν) : List κ := m.entries.map (·.1)

def values (m : SortedMap κ ν) : List ν := m.entries.map (·.2)

def isEmpty (m : SortedMap κ ν) : Bool := m.entries.isEmpty

def size (m : SortedMap κ ν) : Nat := m.entries.length

theorem mapValues_ascend {f : ν → ω} {entries : List (κ × ν)} (h : KeysAscend entries) :
    KeysAscend (entries.map fun e => (e.1, f e.2)) :=
  List.pairwise_map.2 h

/-- Changes every value and keeps the keys. -/
def mapValues (f : ν → ω) (m : SortedMap κ ν) : SortedMap κ ω :=
  ⟨m.entries.map fun e => (e.1, f e.2), mapValues_ascend m.ascending⟩

/-- Replaces the value of `key`, or puts a new entry in its place. -/
def alterEntries (key : κ) (f : Option ν → ν) : List (κ × ν) → List (κ × ν)
  | [] => [(key, f none)]
  | (k, v) :: rest =>
    match compare key k with
    | .lt => (key, f none) :: (k, v) :: rest
    | .eq => (k, f (some v)) :: rest
    | .gt => (k, v) :: alterEntries key f rest

/-- Every entry after a change is the changed one or has the key of an entry before. -/
theorem key_of_mem_alterEntries {key : κ} {f : Option ν → ν} {e : κ × ν} :
    ∀ {entries : List (κ × ν)}, e ∈ alterEntries key f entries →
      e.1 = key ∨ ∃ e' ∈ entries, e'.1 = e.1
  | [], h => by
    simp only [alterEntries, List.mem_singleton] at h
    exact .inl (by rw [h])
  | (k, v) :: rest, h => by
    simp only [alterEntries] at h
    split at h
    · rcases List.mem_cons.1 h with rfl | h
      · exact .inl rfl
      · exact .inr ⟨e, h, rfl⟩
    · rcases List.mem_cons.1 h with rfl | h
      · exact .inr ⟨(k, v), List.mem_cons_self, rfl⟩
      · exact .inr ⟨e, List.mem_cons_of_mem _ h, rfl⟩
    · rcases List.mem_cons.1 h with rfl | h
      · exact .inr ⟨(k, v), List.mem_cons_self, rfl⟩
      · rcases key_of_mem_alterEntries h with hk | ⟨e', hm, he⟩
        · exact .inl hk
        · exact .inr ⟨e', List.mem_cons_of_mem _ hm, he⟩

theorem alterEntries_ascend [Std.TransOrd κ] {key : κ} {f : Option ν → ν} :
    ∀ {entries : List (κ × ν)}, KeysAscend entries → KeysAscend (alterEntries key f entries)
  | [], _ => List.pairwise_singleton _ _
  | (k, v) :: rest, h => by
    obtain ⟨hk, hr⟩ := List.pairwise_cons.1 h
    simp only [alterEntries]
    split
    · rename_i hlt
      refine List.pairwise_cons.2 ⟨fun e he => ?_, h⟩
      rcases List.mem_cons.1 he with rfl | he
      · exact hlt
      · exact Std.TransCmp.lt_trans hlt (hk e he)
    · exact List.pairwise_cons.2 ⟨hk, hr⟩
    · rename_i hgt
      refine List.pairwise_cons.2 ⟨fun e he => ?_, alterEntries_ascend hr⟩
      rcases key_of_mem_alterEntries he with hkey | ⟨e', hm, hkey⟩
      · simpa [hkey] using Std.OrientedCmp.gt_iff_lt.1 hgt
      · simpa [← hkey] using hk e' hm

variable [Std.TransOrd κ]

def alter (m : SortedMap κ ν) (key : κ) (f : Option ν → ν) : SortedMap κ ν :=
  ⟨alterEntries key f m.entries, alterEntries_ascend m.ascending⟩

def insert (m : SortedMap κ ν) (key : κ) (value : ν) : SortedMap κ ν :=
  m.alter key fun _ => value

/-- The last value given for each key. -/
def ofList (entries : List (κ × ν)) : SortedMap κ ν :=
  entries.foldl (fun m e => m.insert e.1 e.2) empty

/-- The entries of both maps; `f` joins the values of a key that both hold. -/
def mergeWith (f : ν → ν → ν) (a b : SortedMap κ ν) : SortedMap κ ν :=
  b.entries.foldl (fun m e => m.alter e.1 fun
    | none => e.2
    | some v => f v e.2) a

end SortedMap

end LeakScan
