import LeakScan.Proofs.Outline.Braces
import LeakScan.Proofs.Outline.Indentation
import LeakScan.Proofs.Outline.Keywords
import LeakScan.Proofs.Scope.Whole
import LeakScan.Scope.Outline

/-!
# LeakScan.Proofs.Outline.Whole

Outlines of arbitrary texts are properly nested, and their trees keep all of them.

* `outline_proper` — whatever delimits the blocks, no two scopes cross.
* `Readable` — all cuts that an outline makes fall between characters.
* `outline_kept_whole` — both, and the tree of an outline has each of its scopes and guards.
-/

namespace LeakScan.Scope

open Text Outline ScopeTree

namespace Outline

theorem Discipline.proper {cs : List Char} {opened : List Nat} {skeleton : Skeleton} {reach : Nat}
    (h : Discipline cs opened skeleton reach) : Proper cs skeleton where
  scopes r hr := (h.scope_sound r hr).1
  guards := h.guard_sound
  nested := h.fits

/-- All cuts that an outline makes fall between characters of what is cut. -/
structure Readable (language : Language) (cs : List Char) : Prop where
  lines : ∀ l ∈ linesOf cs, slice? cs ⟨l.start, l.stop⟩ = some l.text
  lambdas : ∀ l ∈ linesOf cs, ∀ m ∈ lambdaWord.findAll l.text, Boundary l.text m.span.start
  lexemes : (lexemes language cs).flatMap Lexeme.chars = cs
  /-- Wherever the pass over the lexemes stands. -/
  headers : ∀ front back st, Outline.lexemes language cs = front ++ back →
    st = front.foldl (BraceState.step language) {} →
    slice? cs ⟨st.statementStart, st.offset⟩ = some st.pending.reverse ∧
      slice? cs ⟨st.header.1, st.header.1 + byteSize st.header.2⟩ = some st.header.2
  captures : ∀ (r : Regex) (text : List Char) (m : Regex.Match), r.find? text = some m →
    ∀ g ∈ m.groups, (slice? text g.2).isSome = true

theorem readable (language : Language) (cs : List Char) : Readable language cs where
  lines l hl := ((linesOf_stand cs).1 l hl).slice?
  lambdas l _ m hm := by
    obtain ⟨piece, hpiece, _⟩ := (Regex.matched_findAll hm).span_stands
    exact hpiece.start_boundary
  lexemes := lexemes_chars language cs
  headers := by
    rintro front back _ hsplit rfl
    have hjoin := lexemes_chars language cs
    rw [hsplit, List.flatMap_append] at hjoin
    have hstart := BraceState.sound_start cs
    nth_rewrite 2 [← hjoin] at hstart
    have hsound := BraceState.sound_run language hstart
    have hpending := hsound.pending_stands.slice?
    rw [byteSize_reverse, ← hsound.offset] at hpending
    exact ⟨hpending, hsound.header.1.slice?⟩
  captures r text m hm g hg := by
    obtain ⟨piece, _, hpiece, hstop, _⟩ := (Regex.matched_find? hm).groups_stand hg
    have hslice := hpiece.slice?
    rw [← hstop] at hslice
    exact Option.isSome_iff_exists.2 ⟨piece, hslice⟩

end Outline

theorem outline_proper (language : Language) (cs : List Char) :
    Proper cs (outline language cs) := by
  have hblocks : ∀ blocks, Discipline cs [] blocks (byteSize cs) →
      Proper cs (blocks ++ lineStatements language (linesOf cs)) := by
    intro blocks hblocks
    have hmore := hblocks.leaf (Nat.le_refl _)
      (lineStatements_sound language (linesOf_stand cs).1) (Nat.zero_le 1) nofun
    exact hmore.proper
  unfold outline
  refine hblocks _ ?_
  split
  · exact indentationBlocks_discipline cs
  · exact keywordBlocks_discipline cs
  · exact braceBlocks_discipline language cs

theorem outline_kept_whole (language : Language) (cs : List Char) (precise : Bool)
    (lifecycle : Lifecycle) :
    Readable language cs ∧ Proper cs (outline language cs) ∧
      Kept (byteSize cs) (outline language cs)
        (ScopeTree.build (outline language cs) (byteSize cs) precise lifecycle) :=
  ⟨readable language cs, outline_proper language cs,
    (outline_proper language cs).kept precise lifecycle⟩

end LeakScan.Scope
