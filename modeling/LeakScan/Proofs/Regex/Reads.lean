import LeakScan.Proofs.Text.Offset
import LeakScan.Regex.Search

/-!
# LeakScan.Proofs.Regex.Reads

What a regular expression may read, apart from the order in which the search tries it.

* `Reads r t u` — the expression leads from one thread to another, one rule for each way of reading.
* `run_reads` — a search that succeeds has read something and then went on from there.
* `Regex.least`, `Regex.mayStart` — the least number of characters that are read, and the first of
  them; `Regex.groupLeast` — the same number for each group.
* `Cursor.In` — a place of a given text; reading stays in the text.
* `Matched` — a match of the expression in a text, as `find?` and `findAll` give it. Its span and its
  groups stand in the text.
-/

namespace LeakScan.Regex

open Text

inductive Reads : Regex → Thread → Thread → Prop where
  | empty (t : Thread) : Reads .empty t t
  | char {k : CharClass} {t : Thread} {x : Char} {xs : List Char} (hrest : t.cursor.rest = x :: xs)
      (hk : k.contains x = true) : Reads (.char k) t { t with cursor := t.cursor.next }
  | anchor {a : Anchor} {t : Thread} (h : a.holds t.cursor = true) : Reads (.anchor a) t t
  | seq {a b : Regex} {t u v : Thread} (ha : Reads a t u) (hb : Reads b u v) :
      Reads (.seq a b) t v
  | altLeft {a b : Regex} {t u : Thread} (ha : Reads a t u) : Reads (.alt a b) t u
  | altRight {a b : Regex} {t u : Thread} (hb : Reads b t u) : Reads (.alt a b) t u
  | starStop {greedy : Bool} {r : Regex} (t : Thread) : Reads (.star greedy r) t t
  | starMore {greedy : Bool} {r : Regex} {t u v : Thread} (hr : Reads r t u)
      (hmore : Reads (.star greedy r) u v) : Reads (.star greedy r) t v
  | repStop {greedy : Bool} {most : Option Nat} {r : Regex} (t : Thread) :
      Reads (.rep greedy 0 most r) t t
  /-- A round beyond the upper limit is read only to reach the lower one. -/
  | repMore {greedy : Bool} {least : Nat} {most : Option Nat} {r : Regex} {t u v : Thread}
      (hroom : least ≠ 0 ∨ most ≠ some 0) (hr : Reads r t u)
      (hmore : Reads (.rep greedy (least - 1) (most.map (· - 1)) r) u v) :
      Reads (.rep greedy least most r) t v
  | group {name : String} {r : Regex} {t u : Thread} (hr : Reads r t u) :
      Reads (.group name r) t
        { u with groups := (name, ⟨t.cursor.offset, u.cursor.offset⟩) :: u.groups }

/-! ## Searches -/

section Loops

variable {body : Cont → Cont} {greedy : Bool} {r : Regex}

/-- By induction on the rounds left; an empty round is followed by the end of the loop. -/
theorem loop_reads (hbody : ∀ k t u, body k t = some u → ∃ v, Reads r t v ∧ k v = some u)
    {fuel : Nat} {k : Cont} {t u : Thread} (h : loop body greedy fuel k t = some u) :
    ∃ v, Reads (.star greedy r) t v ∧ k v = some u := by
  induction fuel generalizing t with
  | zero => exact ⟨t, .starStop t, h⟩
  | succ fuel ih =>
    have hround : body (fun v =>
        if t.cursor.offset < v.cursor.offset then loop body greedy fuel k v else k v) t = some u →
          ∃ v, Reads (.star greedy r) t v ∧ k v = some u := by
      intro hbodyRead
      obtain ⟨v, hr, hv⟩ := hbody _ _ _ hbodyRead
      split at hv
      · obtain ⟨w, hmore, hw⟩ := ih hv
        exact ⟨w, .starMore hr hmore, hw⟩
      · exact ⟨v, .starMore hr (.starStop v), hv⟩
    rw [loop] at h
    split at h
    · split at h
      · rename_i w hmore
        cases h
        exact hround hmore
      · exact ⟨t, .starStop t, h⟩
    · split at h
      · rename_i w hstop
        cases h
        exact ⟨t, .starStop t, hstop⟩
      · exact hround h

theorem upTo_reads (hbody : ∀ k t u, body k t = some u → ∃ v, Reads r t v ∧ k v = some u)
    {n : Nat} {k : Cont} {t u : Thread} (h : upTo body greedy n k t = some u) :
    ∃ v, Reads (.rep greedy 0 (some n) r) t v ∧ k v = some u := by
  induction n generalizing t with
  | zero => exact ⟨t, .repStop t, h⟩
  | succ n ih =>
    have hround : body (upTo body greedy n k) t = some u →
        ∃ v, Reads (.rep greedy 0 (some (n + 1)) r) t v ∧ k v = some u := by
      intro hbodyRead
      obtain ⟨v, hr, hv⟩ := hbody _ _ _ hbodyRead
      obtain ⟨w, hmore, hw⟩ := ih hv
      exact ⟨w, .repMore (.inr (by simp)) hr hmore, hw⟩
    rw [upTo] at h
    split at h
    · split at h
      · rename_i w hmore
        cases h
        exact hround hmore
      · exact ⟨t, .repStop t, h⟩
    · split at h
      · rename_i w hstop
        cases h
        exact ⟨t, .repStop t, hstop⟩
      · exact hround h

/-- The rounds that have to be read, and then what `k` reads of those that may be. -/
theorem times_reads (hbody : ∀ k t u, body k t = some u → ∃ v, Reads r t v ∧ k v = some u)
    {n : Nat} {most : Option Nat} {k k' : Cont} {t u : Thread}
    (hk : ∀ t, k t = some u →
      ∃ v, Reads (.rep greedy 0 (most.map (· - n)) r) t v ∧ k' v = some u)
    (h : times body n k t = some u) : ∃ v, Reads (.rep greedy n most r) t v ∧ k' v = some u := by
  induction n generalizing t most with
  | zero =>
    have hsame : most.map (· - 0) = most := by cases most <;> rfl
    rw [hsame] at hk
    exact hk t h
  | succ n ih =>
    obtain ⟨v, hr, hv⟩ := hbody _ _ _ h
    have hless : (most.map (· - 1)).map (· - n) = most.map (· - (n + 1)) := by
      cases most with
      | none => rfl
      | some m => simp [Nat.sub_sub, Nat.add_comm]
    rw [← hless] at hk
    obtain ⟨w, hmore, hw⟩ := ih hk hv
    exact ⟨w, .repMore (.inl (by omega)) hr hmore, hw⟩

/-- Repetition without an upper limit is repetition from zero on. -/
theorem Reads.rep_of_star {t u : Thread} (h : Reads (.star greedy r) t u) :
    Reads (.rep greedy 0 none r) t u := by
  generalize hstar : Regex.star greedy r = s at h
  induction h with
  | starStop t =>
    cases hstar
    exact .repStop t
  | starMore hr _ _ ih =>
    cases hstar
    exact .repMore (.inr (by simp)) hr (ih rfl)
  | _ => cases hstar

end Loops

/-- A search that succeeds has read the expression and has gone on from there. -/
theorem run_reads {r : Regex} {k : Cont} {t u : Thread} (h : run r k t = some u) :
    ∃ v, Reads r t v ∧ k v = some u := by
  induction r generalizing k t u with
  | empty => exact ⟨t, .empty t, h⟩
  | char c =>
    rw [run] at h
    split at h
    · cases h
    · rename_i x xs hrest
      split at h
      · rename_i hc
        exact ⟨_, .char hrest hc, h⟩
      · cases h
  | anchor a =>
    rw [run] at h
    split at h
    · rename_i ha
      exact ⟨t, .anchor ha, h⟩
    · cases h
  | seq a b iha ihb =>
    obtain ⟨v, ha, hv⟩ := iha h
    obtain ⟨w, hb, hw⟩ := ihb hv
    exact ⟨w, .seq ha hb, hw⟩
  | alt a b iha ihb =>
    rw [run] at h
    split at h
    · rename_i w hleft
      cases h
      obtain ⟨v, ha, hv⟩ := iha hleft
      exact ⟨v, .altLeft ha, hv⟩
    · obtain ⟨v, hb, hv⟩ := ihb h
      exact ⟨v, .altRight hb, hv⟩
  | star greedy r ih =>
    rw [run] at h
    exact loop_reads (fun _ _ _ => ih) h
  | rep greedy least most r ih =>
    cases most with
    | none =>
      rw [run] at h
      refine times_reads (fun _ _ _ => ih) (fun v hv => ?_) h
      obtain ⟨w, hstar, hw⟩ := loop_reads (fun _ _ _ => ih) hv
      exact ⟨w, hstar.rep_of_star, hw⟩
    | some most =>
      rw [run] at h
      exact times_reads (fun _ _ _ => ih) (fun v hv => upTo_reads (fun _ _ _ => ih) hv) h
  | group name r ih =>
    obtain ⟨v, hr, hv⟩ := ih h
    exact ⟨_, .group hr, hv⟩

/-! ## What is read -/

/-- The least number of characters that an expression reads. -/
def least : Regex → Nat
  | .empty => 0
  | .char _ => 1
  | .anchor _ => 0
  | .seq a b => a.least + b.least
  | .alt a b => min a.least b.least
  | .star _ _ => 0
  | .rep _ n _ r => n * r.least
  | .group _ r => r.least

/-- Whether a character may be the first that an expression reads. -/
def mayStart : Regex → Char → Bool
  | .empty, _ => false
  | .char k, c => k.contains c
  | .anchor _, _ => false
  | .seq a b, c => a.mayStart c || (a.least == 0 && b.mayStart c)
  | .alt a b, c => a.mayStart c || b.mayStart c
  | .star _ r, c => r.mayStart c
  | .rep _ _ _ r, c => r.mayStart c
  | .group _ r, c => r.mayStart c

/-- The groups of an expression with the least number of characters in each. -/
def groupLeast : Regex → List (String × Nat)
  | .empty => []
  | .char _ => []
  | .anchor _ => []
  | .seq a b => a.groupLeast ++ b.groupLeast
  | .alt a b => a.groupLeast ++ b.groupLeast
  | .star _ r => r.groupLeast
  | .rep _ _ _ r => r.groupLeast
  | .group name r => (name, r.least) :: r.groupLeast

/-- The characters that the expression reads between two cursors. -/
structure Taken (r : Regex) (p q : Cursor) (taken : List Char) : Prop where
  rest : p.rest = taken ++ q.rest
  offset : q.offset = p.offset + byteSize taken
  least : r.least ≤ taken.length
  start : ∀ x ∈ taken.head?, r.mayStart x = true

theorem Taken.nil {r : Regex} (p : Cursor) (h : r.least = 0) : Taken r p p [] :=
  ⟨rfl, rfl, by simp [h], by simp⟩

/-- Two pieces one after the other; where the first is empty the second starts the whole. -/
theorem Taken.append {a b r : Regex} {p q s : Cursor} {front back : List Char}
    (ha : Taken a p q front) (hb : Taken b q s back) (hleast : r.least ≤ a.least + b.least)
    (hstart : ∀ x, a.mayStart x = true ∨ (a.least = 0 ∧ b.mayStart x = true) →
      r.mayStart x = true) : Taken r p s (front ++ back) := by
  refine ⟨?_, ?_, ?_, ?_⟩
  · rw [ha.rest, hb.rest, List.append_assoc]
  · rw [hb.offset, ha.offset, byteSize_append, Nat.add_assoc]
  · have hfront := ha.least
    have hback := hb.least
    rw [List.length_append]
    omega
  · intro x hx
    cases front with
    | nil => exact hstart x (.inr ⟨Nat.le_zero.1 ha.least, hb.start x hx⟩)
    | cons c cs => exact hstart x (.inl (ha.start x hx))

theorem Reads.taken {r : Regex} {t u : Thread} (h : Reads r t u) :
    ∃ taken, Taken r t.cursor u.cursor taken := by
  induction h with
  | empty t => exact ⟨[], .nil _ rfl⟩
  | @char k t x xs hrest hk =>
    refine ⟨[x], ?_, ?_, Nat.le_refl 1, ?_⟩
    · simp [Cursor.next, hrest]
    · simp [Cursor.next, hrest]
    · intro y hy
      cases hy
      exact hk
  | anchor _ => exact ⟨[], .nil _ rfl⟩
  | seq _ _ iha ihb =>
    obtain ⟨front, hfront⟩ := iha
    obtain ⟨back, hback⟩ := ihb
    exact ⟨front ++ back, hfront.append hback (Nat.le_refl _) (by simp [mayStart])⟩
  | altLeft _ ih =>
    obtain ⟨taken, htaken⟩ := ih
    exact ⟨taken, htaken.rest, htaken.offset, Nat.le_trans (Nat.min_le_left _ _) htaken.least,
      fun x hx => by simp [mayStart, htaken.start x hx]⟩
  | altRight _ ih =>
    obtain ⟨taken, htaken⟩ := ih
    exact ⟨taken, htaken.rest, htaken.offset, Nat.le_trans (Nat.min_le_right _ _) htaken.least,
      fun x hx => by simp [mayStart, htaken.start x hx]⟩
  | starStop t => exact ⟨[], .nil _ rfl⟩
  | starMore _ _ ihr ihmore =>
    obtain ⟨front, hfront⟩ := ihr
    obtain ⟨back, hback⟩ := ihmore
    exact ⟨front ++ back, hfront.append hback (Nat.zero_le _) fun x hx => hx.elim id And.right⟩
  | repStop t => exact ⟨[], .nil _ (Nat.zero_mul _)⟩
  | @repMore greedy n most r t u v _ _ _ ihr ihmore =>
    obtain ⟨front, hfront⟩ := ihr
    obtain ⟨back, hback⟩ := ihmore
    refine ⟨front ++ back, hfront.append hback ?_ fun x hx => hx.elim id And.right⟩
    cases n with
    | zero => simp [least]
    | succ n => simp [least, Nat.succ_mul, Nat.add_comm]
  | group _ ih =>
    obtain ⟨taken, htaken⟩ := ih
    exact ⟨taken, htaken.rest, htaken.offset, htaken.least, htaken.start⟩

/-- A group of the expression with its span, as it is read from a cursor on. -/
def GroupFrom (r : Regex) (p : Cursor) (g : String × Span) : Prop :=
  ∃ front piece back n, p.rest = front ++ piece ++ back ∧
    g.2 = ⟨p.offset + byteSize front, p.offset + byteSize front + byteSize piece⟩ ∧
    (g.1, n) ∈ r.groupLeast ∧ n ≤ piece.length

theorem GroupFrom.earlier {a r : Regex} {p q : Cursor} {taken : List Char} {g : String × Span}
    (h : GroupFrom r q g) (htaken : Taken a p q taken) : GroupFrom r p g := by
  obtain ⟨front, piece, back, n, hrest, hspan, hn⟩ := h
  refine ⟨taken ++ front, piece, back, n, ?_, ?_, hn⟩
  · rw [htaken.rest, hrest]
    simp
  · rw [hspan, htaken.offset, byteSize_append, Nat.add_assoc, Nat.add_assoc]

theorem GroupFrom.mono {a r : Regex} {p : Cursor} {g : String × Span} (h : GroupFrom a p g)
    (hsub : ∀ n ∈ a.groupLeast, n ∈ r.groupLeast) : GroupFrom r p g := by
  obtain ⟨front, piece, back, n, hrest, hspan, hmem, hn⟩ := h
  exact ⟨front, piece, back, n, hrest, hspan, hsub _ hmem, hn⟩

theorem Reads.groups {r : Regex} {t u : Thread} (h : Reads r t u) {g : String × Span}
    (hg : g ∈ u.groups) : g ∈ t.groups ∨ GroupFrom r t.cursor g := by
  induction h with
  | empty t => exact .inl hg
  | char _ _ => exact .inl hg
  | anchor _ => exact .inl hg
  | seq ha _ iha ihb =>
    obtain ⟨taken, htaken⟩ := ha.taken
    rcases ihb hg with hg | hfrom
    · exact (iha hg).imp_right (·.mono fun n hn => List.mem_append_left _ hn)
    · exact .inr ((hfrom.earlier htaken).mono fun n hn => List.mem_append_right _ hn)
  | altLeft _ ih => exact (ih hg).imp_right (·.mono fun n hn => List.mem_append_left _ hn)
  | altRight _ ih => exact (ih hg).imp_right (·.mono fun n hn => List.mem_append_right _ hn)
  | starStop t => exact .inl hg
  | starMore hr _ ihr ihmore =>
    obtain ⟨taken, htaken⟩ := hr.taken
    rcases ihmore hg with hg | hfrom
    · exact ihr hg
    · exact .inr (hfrom.earlier htaken)
  | repStop t => exact .inl hg
  | repMore _ hr _ ihr ihmore =>
    obtain ⟨taken, htaken⟩ := hr.taken
    rcases ihmore hg with hg | hfrom
    · exact ihr hg
    · exact .inr (hfrom.earlier htaken)
  | group hr ih =>
    rcases List.mem_cons.1 hg with rfl | hg
    · obtain ⟨taken, htaken⟩ := hr.taken
      refine .inr ⟨[], taken, _, _, htaken.rest, ?_, List.mem_cons_self, htaken.least⟩
      rw [htaken.offset]
      rfl
    · exact (ih hg).imp_right (·.mono fun n hn => List.mem_cons_of_mem _ hn)

/-! ## Matches in a text -/

/-- The cursor stands between two characters of the text. -/
def Cursor.In (cs : List Char) (p : Cursor) : Prop :=
  ∃ front, cs = front ++ p.rest ∧ byteSize front = p.offset ∧ p.before = front.getLast?

theorem Cursor.in_ofText (cs : List Char) : (Cursor.ofText cs).In cs := ⟨[], rfl, rfl, rfl⟩

theorem Cursor.In.next {cs : List Char} {p : Cursor} (h : p.In cs) : p.next.In cs := by
  obtain ⟨front, hcs, hoffset, hbefore⟩ := h
  rw [Cursor.next]
  split
  · exact ⟨front, hcs, hoffset, hbefore⟩
  · rename_i c rest hrest
    exact ⟨front ++ [c], by simp [hcs, hrest], by simp [hoffset], by simp⟩

theorem Reads.in_text {cs : List Char} {r : Regex} {t u : Thread} (h : Reads r t u)
    (ht : t.cursor.In cs) : u.cursor.In cs := by
  induction h with
  | empty t => exact ht
  | char _ _ => exact ht.next
  | anchor _ => exact ht
  | seq _ _ iha ihb => exact ihb (iha ht)
  | altLeft _ ih => exact ih ht
  | altRight _ ih => exact ih ht
  | starStop t => exact ht
  | starMore _ _ ihr ihmore => exact ihmore (ihr ht)
  | repStop t => exact ht
  | repMore _ _ _ ihr ihmore => exact ihmore (ihr ht)
  | group _ ih => exact ih ht

/-- A match of the expression in a text, with the cursor where it starts and the thread where it
ends. -/
structure MatchFrom (r : Regex) (cs : List Char) (m : Match) (p : Cursor) (u : Thread) : Prop where
  starts : p.In cs
  reads : Reads r { cursor := p } u
  span : m.span = ⟨p.offset, u.cursor.offset⟩
  groups : m.groups = u.groups

def Matched (r : Regex) (cs : List Char) (m : Match) : Prop := ∃ p u, MatchFrom r cs m p u

theorem searchFrom_matched {r : Regex} {cs : List Char} {before : Option Char} {offset : Nat}
    {rest : List Char} {m : Match} {q : Cursor} (hin : Cursor.In cs ⟨before, rest, offset⟩)
    (h : searchFrom r before offset rest = some (m, q)) :
    ∃ p u, MatchFrom r cs m p u ∧ q = u.cursor := by
  have hat : ∀ {p : Cursor}, p.In cs → r.matchAt p = some (m, q) →
      ∃ p u, MatchFrom r cs m p u ∧ q = u.cursor := by
    intro p hp hmatch
    rw [matchAt] at hmatch
    split at hmatch
    · rename_i u hrun
      cases hmatch
      obtain ⟨v, hreads, hv⟩ := run_reads hrun
      cases hv
      exact ⟨p, u, ⟨hp, hreads, rfl, rfl⟩, rfl⟩
    · cases hmatch
  induction rest generalizing before offset with
  | nil => exact hat hin h
  | cons c rest ih =>
    rw [searchFrom] at h
    split at h
    · rename_i found hfound
      cases h
      exact hat hin hfound
    · exact ih hin.next h

theorem matched_find? {r : Regex} {cs : List Char} {m : Match} (h : r.find? cs = some m) :
    Matched r cs m := by
  obtain ⟨⟨m, q⟩, hsearch, rfl⟩ := Option.map_eq_some_iff.1 h
  obtain ⟨p, u, hmatch, _⟩ := searchFrom_matched (Cursor.in_ofText cs) hsearch
  exact ⟨p, u, hmatch⟩

theorem matched_collect {r : Regex} {cs : List Char} {fuel : Nat} {last : Option Nat} {p : Cursor}
    (hp : p.In cs) {m : Match} (h : m ∈ collect r fuel last p) : Matched r cs m := by
  induction fuel generalizing last p with
  | zero => cases h
  | succ fuel ih =>
    rw [collect] at h
    split at h
    · cases h
    · rename_i m' q hsearch
      obtain ⟨p', u, hmatch, rfl⟩ := searchFrom_matched hp hsearch
      have hu : u.cursor.In cs := hmatch.reads.in_text hmatch.starts
      have hfirst : Matched r cs m' := ⟨p', u, hmatch⟩
      have honward : m ∈ (if u.cursor.rest.isEmpty then []
          else collect r fuel (some m'.span.stop) u.cursor.next) → Matched r cs m := by
        intro hm
        split at hm
        · cases hm
        · exact ih hu.next hm
      split at h
      · rcases List.mem_cons.1 h with rfl | h
        · exact hfirst
        · exact ih hu h
      · simp only at h
        split at h
        · exact honward h
        · rcases List.mem_cons.1 h with rfl | h
          · exact hfirst
          · exact honward h

theorem matched_findAll {r : Regex} {cs : List Char} {m : Match} (h : m ∈ r.findAll cs) :
    Matched r cs m :=
  matched_collect (Cursor.in_ofText cs) h

theorem Cursor.In.stands {cs front piece back : List Char} {p : Cursor} (h : p.In cs)
    (hrest : p.rest = front ++ piece ++ back) : Stands cs (p.offset + byteSize front) piece := by
  obtain ⟨start, hcs, hoffset, _⟩ := h
  refine ⟨start ++ front, back, ?_, by rw [byteSize_append, hoffset]⟩
  rw [hcs, hrest]
  simp

namespace Matched

variable {r : Regex} {cs : List Char} {m : Match}

theorem span_stands (h : Matched r cs m) :
    ∃ piece, Stands cs m.span.start piece ∧ m.span.stop = m.span.start + byteSize piece ∧
      r.least ≤ piece.length ∧ ∀ x ∈ piece.head?, r.mayStart x = true := by
  obtain ⟨p, u, hmatch⟩ := h
  obtain ⟨taken, htaken⟩ := hmatch.reads.taken
  rw [hmatch.span]
  refine ⟨taken, ?_, htaken.offset, htaken.least, htaken.start⟩
  have hrest : p.rest = [] ++ taken ++ u.cursor.rest := htaken.rest
  exact hmatch.starts.stands hrest

/-- The first character of a match that is not empty. -/
theorem first (h : Matched r cs m) (hleast : 0 < r.least) :
    ∃ c piece, Stands cs m.span.start (c :: piece) ∧ r.mayStart c = true := by
  obtain ⟨piece, hstands, _, hlength, hstart⟩ := h.span_stands
  cases piece with
  | nil => exact absurd (Nat.lt_of_lt_of_le hleast hlength) (Nat.lt_irrefl 0)
  | cons c piece => exact ⟨c, piece, hstands, hstart c rfl⟩

theorem groups_stand (h : Matched r cs m) {g : String × Span} (hg : g ∈ m.groups) :
    ∃ piece n, Stands cs g.2.start piece ∧ g.2.stop = g.2.start + byteSize piece ∧
      (g.1, n) ∈ r.groupLeast ∧ n ≤ piece.length := by
  obtain ⟨p, u, hmatch⟩ := h
  rw [hmatch.groups] at hg
  rcases hmatch.reads.groups hg with hnone | ⟨front, piece, back, n, hrest, hspan, hmem, hn⟩
  · cases hnone
  · rw [hspan]
    exact ⟨piece, n, hmatch.starts.stands hrest, rfl, hmem, hn⟩

theorem group?_stands (h : Matched r cs m) {name : String} {span : Span}
    (hspan : m.group? name = some span) :
    ∃ piece n, Stands cs span.start piece ∧ span.stop = span.start + byteSize piece ∧
      (name, n) ∈ r.groupLeast ∧ n ≤ piece.length := by
  obtain ⟨before, after, hgroups, _⟩ := List.lookup_eq_some_iff.1 hspan
  refine h.groups_stand (g := (name, span)) ?_
  rw [hgroups]
  simp

/-- An expression that asks for the start of the text matches nowhere else. -/
theorem start_eq_zero (h : Matched (.seq (.anchor .textStart) r) cs m) : m.span.start = 0 := by
  obtain ⟨p, u, hmatch⟩ := h
  obtain ⟨front, _, hoffset, hbefore⟩ := hmatch.starts
  have hreads := hmatch.reads
  cases hreads with
  | seq hanchor _ =>
    cases hanchor with
    | anchor hstart =>
      have hnone : p.before = none := by simpa [Anchor.holds] using hstart
      rw [hmatch.span, ← hoffset, List.getLast?_eq_none_iff.1 (hbefore.symm.trans hnone)]
      rfl

theorem mayStart_head (h : Matched (.seq (.anchor .textStart) r) cs m) (hleast : 0 < r.least) :
    ∃ c ∈ cs.head?, r.mayStart c = true := by
  obtain ⟨c, piece, ⟨front, back, hcs, hfront⟩, hstart⟩ := h.first (by simpa [least] using hleast)
  rw [h.start_eq_zero] at hfront
  have hnil : front = [] := by
    by_contra hne
    exact absurd (byteSize_pos hne) (by omega)
  refine ⟨c, by rw [hcs, hnil]; rfl, ?_⟩
  simpa [mayStart, least] using hstart

end Matched

end LeakScan.Regex
