import LeakScan.Proofs.Bindings
import LeakScan.Proofs.Regex.Reads

/-!
# LeakScan.Proofs.Regex.Run

The search for simple expressions, as equations without fuel.

* `run_text` — a fixed text is there or not.
* `run_many_nil`, `run_many_cons` — a greedy run of one class tries to go on first.
* `Awaits` — what follows a run needs a certain character; `run_many_awaits` takes the run to it.
* `wordPlaces` — where a word stands alone in a text; `findAll_wordRegex` finds these places.
-/

namespace LeakScan.Regex

open Text

/-- The cursor after a piece of the text, `rest` being what follows. -/
def Cursor.past (p : Cursor) (piece rest : List Char) : Cursor :=
  ⟨piece.getLast?.or p.before, rest, p.offset + byteSize piece⟩

theorem Cursor.past_nil (p : Cursor) : p.past [] p.rest = p := rfl

theorem Cursor.next_eq_past {p : Cursor} {c : Char} {cs : List Char} (h : p.rest = c :: cs) :
    p.next = p.past [c] cs := by
  rw [Cursor.next, h]
  rfl

theorem Cursor.past_past (p : Cursor) (a b r s : List Char) :
    (p.past a r).past b s = p.past (a ++ b) s := by
  simp [Cursor.past, List.getLast?_append, Option.or_assoc, Nat.add_assoc]

theorem contains_one (c x : Char) : (CharClass.one c).contains x = (c == x) := by
  rw [Bool.eq_iff_iff, beq_iff_eq, ← Char.toNat_inj]
  simp only [CharClass.one, CharClass.contains, Bool.and_eq_true, decide_eq_true_eq]
  omega

theorem run_char_nil {c : CharClass} {k : Cont} {t : Thread} (h : t.cursor.rest = []) :
    run (.char c) k t = none := by
  rw [run, h]

theorem run_char_cons {c : CharClass} {k : Cont} {t : Thread} {x : Char} {xs : List Char}
    (h : t.cursor.rest = x :: xs) :
    run (.char c) k t =
      if c.contains x then k { t with cursor := t.cursor.past [x] xs } else none := by
  rw [run, ← Cursor.next_eq_past h, h]

theorem run_seqs_cons (r : Regex) (rs : List Regex) (k : Cont) (t : Thread) :
    run (seqs (r :: rs)) k t = run r (fun u => run (seqs rs) k u) t := by
  cases rs with
  | nil => rfl
  | cons s rs => rfl

theorem run_ones (s : List Char) (k : Cont) (t : Thread) :
    run (seqs (s.map one)) k t =
      (stripPrefix? s t.cursor.rest).bind fun rest =>
        k { t with cursor := t.cursor.past s rest } := by
  induction s generalizing t with
  | nil => rfl
  | cons c s ih =>
    rw [List.map_cons, run_seqs_cons, one]
    cases hrest : t.cursor.rest with
    | nil =>
      rw [run_char_nil hrest]
      rfl
    | cons x xs =>
      rw [run_char_cons hrest, stripPrefix?, contains_one]
      by_cases hx : (c == x) = true
      · rw [if_pos hx, if_pos hx, ih]
        simp only [Cursor.past_past, List.singleton_append]
        rw [← beq_iff_eq.1 hx]
        rfl
      · rw [if_neg hx, if_neg hx]
        rfl

theorem run_text (s : String) (k : Cont) (t : Thread) :
    run (text s) k t =
      (stripPrefix? s.toList t.cursor.rest).bind fun rest =>
        k { t with cursor := t.cursor.past s.toList rest } :=
  run_ones s.toList k t

/-! ## Runs of one class -/

section Many

variable {k : CharClass} {K : Cont} {t : Thread}

theorem run_many_nil (h : t.cursor.rest = []) : run (many (.char k)) K t = K t := by
  simp [many, run, loop, h]

/-- The rounds that are left are as many as the text that is left. -/
theorem run_many_cons {c : Char} {cs : List Char} (h : t.cursor.rest = c :: cs) :
    run (many (.char k)) K t =
      if k.contains c then
        (run (many (.char k)) K { t with cursor := t.cursor.past [c] cs }).or (K t)
      else K t := by
  have hlater : t.cursor.offset < (t.cursor.past [c] cs).offset :=
    Nat.lt_add_of_pos_right (byteSize_pos (List.cons_ne_nil c []))
  have hagain : run (many (.char k)) K { t with cursor := t.cursor.past [c] cs } =
      loop (fun k' v => run (.char k) k' v) true (cs.length + 1) K
        { t with cursor := t.cursor.past [c] cs } := rfl
  rw [hagain, many, run, h, List.length_cons, loop]
  simp only [run_char_cons h, if_pos hlater, if_true]
  by_cases hc : k.contains c = true
  · rw [if_pos hc, if_pos hc]
    cases loop (fun k' v => run (.char k) k' v) true (cs.length + 1) K
      { t with cursor := t.cursor.past [c] cs } <;> rfl
  · rw [if_neg hc, if_neg hc]

/-- What follows goes on only before the character `d`. -/
def Awaits (d : Char) (k : Cont) : Prop :=
  ∀ t : Thread, t.cursor.rest.head? ≠ some d → k t = none

theorem awaits_one (d : Char) (k : Cont) : Awaits d (run (one d) k) := by
  intro t h
  cases hrest : t.cursor.rest with
  | nil => exact run_char_nil hrest
  | cons e rest =>
    rw [hrest] at h
    rw [one, run_char_cons hrest, contains_one, if_neg]
    exact fun heq => h (congrArg some (beq_iff_eq.1 heq).symm)

/-- A run of one class goes through a piece of the text that what follows cannot go on in. -/
theorem run_many_through {d : Char} (hK : Awaits d K) {piece rest : List Char}
    (hpiece : ∀ e ∈ piece, k.contains e = true ∧ e ≠ d) (h : t.cursor.rest = piece ++ rest) :
    run (many (.char k)) K t =
      run (many (.char k)) K { t with cursor := t.cursor.past piece rest } := by
  induction piece generalizing t with
  | nil =>
    rw [List.nil_append] at h
    rw [← h, Cursor.past_nil]
  | cons e piece ih =>
    obtain ⟨he, hne⟩ := hpiece e List.mem_cons_self
    have hstuck : K t = none := hK t (by simpa [h] using hne)
    rw [run_many_cons h, if_pos he, hstuck, Option.or_none,
      ih (fun e he => hpiece e (List.mem_cons_of_mem _ he)) rfl]
    simp only [Cursor.past_past, List.singleton_append]

/-- Before a character outside the class the run takes all it can. -/
theorem run_many_awaits {d : Char} (hK : Awaits d K) (hd : k.contains d = false) :
    run (many (.char k)) K t =
      K { t with
        cursor := t.cursor.past (t.cursor.rest.takeWhile k.contains)
          (t.cursor.rest.dropWhile k.contains) } := by
  have hpiece : ∀ e ∈ t.cursor.rest.takeWhile k.contains, k.contains e = true ∧ e ≠ d := by
    intro e he
    have hin := List.all_eq_true.1 List.all_takeWhile e he
    refine ⟨hin, ?_⟩
    rintro rfl
    rw [hd] at hin
    cases hin
  rw [run_many_through hK hpiece List.takeWhile_append_dropWhile.symm]
  cases hrest : t.cursor.rest.dropWhile k.contains with
  | nil => rw [run_many_nil rfl]
  | cons e rest =>
    have hout : k.contains e = false := by
      have hhead := List.head?_dropWhile_not k.contains t.cursor.rest
      rw [hrest] at hhead
      exact hhead
    rw [run_many_cons rfl, if_neg (by simp [hout])]

end Many

/-! ## Words -/

/-- The word is next in the text and no part of a longer one. -/
def standsAlone (word : List Char) (before : Option Char) (cs : List Char) : Bool :=
  !before.any isWordChar && (stripPrefix? word cs).any fun rest => !rest.head?.any isWordChar

/-- The byte offsets at which a word stands alone in a text that starts at `offset`. -/
def wordPlaces (word : List Char) (before : Option Char) (offset : Nat) : List Char → List Nat
  | [] => []
  | c :: cs =>
    let more := wordPlaces word (some c) (offset + c.utf8Size) cs
    if standsAlone word before (c :: cs) then offset :: more else more

/-- `\bWORD\b` -/
def wordRegex (word : String) : Regex := seqs [.anchor .boundary, text word, .anchor .boundary]

section Words

variable {word : String}

/-- The word consists of word characters, so it starts and ends at boundaries. -/
structure IsWord (word : List Char) : Prop where
  nonempty : word ≠ []
  chars : ∀ c ∈ word, isWordChar c = true

theorem matchAt_wordRegex (hword : IsWord word.toList) (p : Cursor) :
    (wordRegex word).matchAt p =
      if standsAlone word.toList p.before p.rest then
        (stripPrefix? word.toList p.rest).map fun rest =>
          (⟨⟨p.offset, p.offset + byteSize word.toList⟩, []⟩, p.past word.toList rest)
      else none := by
  have hrun : run (wordRegex word) some { cursor := p } =
      if Anchor.boundary.holds p then
        (stripPrefix? word.toList p.rest).bind fun rest =>
          if Anchor.boundary.holds (p.past word.toList rest) then
            some { cursor := p.past word.toList rest }
          else none
      else none := by
    rw [wordRegex, run_seqs_cons, run]
    simp only [run_seqs_cons, run_text]
    rfl
  rw [matchAt, hrun, standsAlone]
  cases hstrip : stripPrefix? word.toList p.rest with
  | none => simp
  | some rest =>
    have hrest := stripPrefix?_eq_some_iff.1 hstrip
    obtain ⟨c, cs, hcs⟩ := List.exists_cons_of_ne_nil hword.nonempty
    have hfirst : p.rest.head?.any isWordChar = true := by
      rw [hrest, hcs]
      exact hword.chars c (by simp [hcs])
    obtain ⟨d, hlast⟩ := Option.ne_none_iff_exists'.1
      (fun hnone => hword.nonempty (List.getLast?_eq_none_iff.1 hnone))
    have hbefore : (p.past word.toList rest).before.any isWordChar = true := by
      simp only [Cursor.past, hlast, Option.some_or, Option.any_some]
      exact hword.chars d (List.mem_of_getLast? hlast)
    have hafter : (p.past word.toList rest).rest = rest := rfl
    simp only [Anchor.holds, hfirst, hbefore, hafter, Option.bind_some, Option.map_some,
      Option.any_some]
    cases p.before.any isWordChar <;> cases rest.head?.any isWordChar <;> rfl

/-- No word starts inside another. -/
theorem wordPlaces_inside {word piece rest : List Char} {before : Option Char} {offset : Nat}
    (hpiece : ∀ c ∈ piece, isWordChar c = true) (hbefore : before.any isWordChar = true) :
    wordPlaces word before offset (piece ++ rest) =
      wordPlaces word (piece.getLast?.or before) (offset + byteSize piece) rest := by
  induction piece generalizing before offset with
  | nil => rfl
  | cons c piece ih =>
    have hc : isWordChar c = true := hpiece c List.mem_cons_self
    have hno : standsAlone word before (c :: (piece ++ rest)) = false := by
      simp [standsAlone, hbefore]
    rw [List.cons_append, wordPlaces, hno, if_neg (by simp),
      ih (fun d hd => hpiece d (List.mem_cons_of_mem c hd)) (by simpa using hc)]
    simp [List.getLast?_cons, Nat.add_assoc]

/-- The leftmost match is the first place, and the places after it are those of the rest. -/
theorem searchFrom_wordRegex (hword : IsWord word.toList) (before : Option Char) (offset : Nat)
    (cs : List Char) :
    match searchFrom (wordRegex word) before offset cs with
    | none => wordPlaces word.toList before offset cs = []
    | some (m, q) =>
      wordPlaces word.toList before offset cs =
          m.span.start :: wordPlaces word.toList q.before q.offset q.rest ∧
        m.span.start < m.span.stop ∧ q.rest.length < cs.length := by
  induction cs generalizing before offset with
  | nil =>
    obtain ⟨d, ds, hd⟩ := List.exists_cons_of_ne_nil hword.nonempty
    simp [searchFrom, matchAt_wordRegex hword, wordPlaces, standsAlone, hd, stripPrefix?]
  | cons c cs ih =>
    rw [searchFrom, matchAt_wordRegex hword, wordPlaces]
    by_cases halone : standsAlone word.toList before (c :: cs) = true
    · obtain ⟨rest, hrest⟩ : ∃ rest, stripPrefix? word.toList (c :: cs) = some rest := by
        rw [standsAlone, Bool.and_eq_true, Option.any_eq_true_iff_get] at halone
        exact Option.isSome_iff_exists.1 halone.2.1
      have hsplit := stripPrefix?_eq_some_iff.1 hrest
      obtain ⟨d, ds, hd⟩ := List.exists_cons_of_ne_nil hword.nonempty
      have hchars := hword.chars
      rw [hd] at hsplit hchars
      obtain ⟨rfl, htail⟩ := List.cons.inj (hsplit.trans (List.cons_append ..))
      have hinside : wordPlaces word.toList (some c) (offset + c.utf8Size) (ds ++ rest) =
          wordPlaces word.toList (ds.getLast?.or (some c)) (offset + c.utf8Size + byteSize ds) rest :=
        wordPlaces_inside (fun x hx => hchars x (List.mem_cons_of_mem c hx))
          (by simpa using hchars c List.mem_cons_self)
      simp only [halone, if_true, hrest, Option.map_some]
      refine ⟨?_, Nat.lt_add_of_pos_right (byteSize_pos hword.nonempty), ?_⟩
      · rw [htail, hinside, hd]
        simp [Cursor.past, List.getLast?_cons, Nat.add_assoc]
      · simp only [Cursor.past, htail, List.length_cons, List.length_append]
        omega
    · simp only [if_neg halone]
      have hmore := ih (some c) (offset + c.utf8Size)
      split at hmore
      · rename_i hnone
        simpa [hnone] using hmore
      · rename_i m q hsome
        exact ⟨hmore.1, hmore.2.1, Nat.lt_succ_of_lt hmore.2.2⟩

theorem collect_wordRegex (hword : IsWord word.toList) {fuel : Nat} (last : Option Nat) {p : Cursor}
    (h : p.rest.length < fuel) :
    ((wordRegex word).collect fuel last p).map (·.span.start) =
      wordPlaces word.toList p.before p.offset p.rest := by
  induction fuel generalizing last p with
  | zero => exact absurd h (Nat.not_lt_zero _)
  | succ fuel ih =>
    have hsearch := searchFrom_wordRegex hword p.before p.offset p.rest
    rw [collect, search]
    split
    · rename_i hnone
      rw [hnone] at hsearch
      exact hsearch.symm
    · rename_i m q hsome
      rw [hsome] at hsearch
      obtain ⟨hplaces, hlonger, hshorter⟩ := hsearch
      rw [if_pos hlonger, List.map_cons, ih (some m.span.stop) (by omega), hplaces]

/-- The matches of a word are the places where it stands alone. -/
theorem findAll_wordRegex (hword : IsWord word.toList) (cs : List Char) :
    ((wordRegex word).findAll cs).map (·.span.start) = wordPlaces word.toList none 0 cs :=
  collect_wordRegex hword none (Nat.lt_succ_self _)

end Words

end LeakScan.Regex
