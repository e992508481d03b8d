import LeakScan.Proofs.Bindings
import LeakScan.Proofs.Correlation.Kinds
import LeakScan.Proofs.Correlation.Placement

/-!
# LeakScan.Proofs.Correlation.Unrelated

Cleanups that have nothing to do with the acquisition they are counted for. A pair always agrees
on the names that both sides captured, but there need not be any: captures without a common name
unify. Whether that can happen is a matter of the matches that meet in one kind.

* `Related` — captures on both sides have a name in common and agree on all such names.
* `Pairable` — an acquisition and a cleanup that only unification can keep apart.
* `correlate_related_iff` — pairs are related, for any selection of some matches, exactly if no
  pairable two of them are without a common name.
-/

namespace LeakScan
namespace Correlation

/-- Where both sides captured something, they share a name and agree on all they share. -/
def Related (a c : Match) : Prop :=
  a.bindings.isEmpty = false → c.bindings.isEmpty = false →
    a.bindings.Share c.bindings ∧ a.bindings.Agree c.bindings

/-- An acquisition and a cleanup of one kind, the cleanup being well placed. -/
structure Pairable (s : Setting) (a c : Match) : Prop where
  acquires : a.role = .acquire
  cleans : c.role = .cleanup
  kind : c.kind = a.kind
  unmanaged : a.position ≠ .managed
  placed : Placed s a c

/-- Both sides captured something, but nothing by the same name. -/
structure Unrelated (a c : Match) : Prop where
  left : a.bindings.isEmpty = false
  right : c.bindings.isEmpty = false
  apart : ¬a.bindings.Share c.bindings

section Pairs

variable {s : Setting} {ms : List Match} {r : Correlation} {a c : Match}

theorem pair_of_result (hr : r ∈ correlate s ms) (hc : r.cleanup = some c) :
    c ∈ ms ∧ r.acquisition ∈ ms ∧ Pairable s r.acquisition c ∧
      unify r.acquisition.bindings c.bindings = true := by
  rw [mem_correlate] at hr
  obtain ⟨hm, _, hrole⟩ := acquisition_mem_pool hr
  obtain ⟨hcm, hckind, hcrole⟩ := cleanup_mem_pool hr hc
  obtain ⟨_, hman, hfit⟩ := settle_cleanup_fits hr hc
  obtain ⟨hun, hpl⟩ := fits_iff.1 hfit
  exact ⟨hcm, hm, ⟨hrole, hcrole, hckind, hman, hpl⟩, hun⟩

theorem outermost_singleton (a : Match) : outermost [a] = [a] := by
  simp [outermost, sortMatches, dedupBy, dropSame, Match.contains]

theorem distinctCleanups_singleton (c : Match) : distinctCleanups [c] = [c] := by
  simp [distinctCleanups, sortMatches, dedupBy, dropSame]

/-- Two matches that can be paired and unify are paired when they are alone. -/
theorem result_of_pair (h : Pairable s a c) (hun : unify a.bindings c.bindings = true)
    (hms : ms = [a, c] ∨ ms = [c, a]) : ⟨a, some c, .cleaned⟩ ∈ correlate s ms := by
  have hacq : poolOf a.kind .acquire ms = [a] := by
    rcases hms with rfl | rfl <;> simp [poolOf, h.acquires, h.cleans, h.kind]
  have hcl : poolOf a.kind .cleanup ms = [c] := by
    rcases hms with rfl | rfl <;> simp [poolOf, h.acquires, h.cleans, h.kind]
  have hfit : s.fits a c = true := fits_iff.2 ⟨hun, h.placed⟩
  rw [mem_correlate, resultsOf, acquisitionsOf, cleanupsOf, hacq, hcl, outermost_singleton,
    distinctCleanups_singleton]
  simp [settle, takeFirst, h.unmanaged, hfit]

end Pairs

theorem pair_sublist {α : Type u} {a c : α} {l : List α} (ha : a ∈ l) (hc : c ∈ l) (hne : c ≠ a) :
    [a, c].Sublist l ∨ [c, a].Sublist l := by
  obtain ⟨before, after, rfl⟩ := List.append_of_mem ha
  rcases List.mem_append.1 hc with hc | hc
  · right
    exact (List.singleton_sublist.2 hc).append ((List.nil_sublist after).cons_cons a)
  · left
    have hc' : c ∈ after := (List.mem_cons.1 hc).resolve_left hne
    exact ((List.singleton_sublist.2 hc').cons_cons a).trans (List.sublist_append_right _ _)

theorem related_iff_of_agree {a c : Match} (h : a.bindings.Agree c.bindings) :
    Related a c ↔ ¬Unrelated a c := by
  constructor
  · intro hrel hun
    exact hun.apart (hrel hun.left hun.right).1
  · intro hun hleft hright
    refine ⟨?_, h⟩
    by_contra hapart
    exact hun ⟨hleft, hright, hapart⟩

/-- Pairs agree on what they share, so a pair is related unless it shares nothing. Whatever part of
some matches is looked at, all pairs are related exactly if no two that can be paired share
nothing. -/
theorem correlate_related_iff (s : Setting) (ms : List Match) :
    (∀ r ∈ correlate s ms, ∀ c, r.cleanup = some c →
      r.acquisition.bindings.Agree c.bindings ∧
        (Related r.acquisition c ↔ ¬Unrelated r.acquisition c)) ∧
    ((∀ part, part.Sublist ms → ∀ r ∈ correlate s part, ∀ c, r.cleanup = some c →
        Related r.acquisition c) ↔
      ∀ a ∈ ms, ∀ c ∈ ms, Pairable s a c → ¬Unrelated a c) := by
  refine ⟨fun r hr c hc => ?_, fun hrel a ha c hc hpair hunrel => ?_,
    fun hcond part hpart r hr c hc => ?_⟩
  · have hagree := agree_of_unify (pair_of_result hr hc).2.2.2
    exact ⟨hagree, related_iff_of_agree hagree⟩
  · have hun := unify_of_not_share hunrel.left hunrel.apart
    have hne : c ≠ a := by
      rintro rfl
      have := hpair.acquires
      rw [hpair.cleans] at this
      cases this
    have hrelated : Related a c := by
      rcases pair_sublist ha hc hne with hsub | hsub
      · exact hrel _ hsub _ (result_of_pair hpair hun (.inl rfl)) c rfl
      · exact hrel _ hsub _ (result_of_pair hpair hun (.inr rfl)) c rfl
    exact hunrel.apart (hrelated hunrel.left hunrel.right).1
  · obtain ⟨hcm, hm, hpair, hun⟩ := pair_of_result hr hc
    rw [related_iff_of_agree (agree_of_unify hun)]
    exact hcond _ (hpart.subset hm) c (hpart.subset hcm) hpair

/-! ## A socket and the log

    def fetch(log):
        s = socket.socket()
        s.connect(host)
        log.close()

Sockets and connections are one kind of resource, but their rules capture them by different
names. -/

def handleRule (id acquire cleanup : String) : Rule where
  id := id
  language := .python
  kind := "socket_handle"
  category := "io-handles"
  severity := .warning
  acquire := [⟨some acquire, none⟩]
  cleanup := [⟨some cleanup, none⟩]
  anchors := []
  summary := "Handle opened without close()"
  remediation := none
  contexts := CleanupContext.all

def fetchSetting : Setting where
  rules := [handleRule "py.socket" "$S = socket.socket($$$ARGS)" "$S.close()",
    handleRule "py.connect" "$C = connect($$$ARGS)" "$C.close()"]
  tree := {
    scopes := [ScopeTree.module 76,
      { id := 1, kind := .function, name := some "fetch", parent := some 0, span := ⟨0, 76⟩ }]
    precise := true }
  lifecycle := {}

def openSocket : Match where
  ruleId := "py.socket"
  role := .acquire
  kind := "socket_handle"
  path := "file"
  span := ⟨20, 38⟩
  line := 2
  column := 4
  bindings := .ofPairs [("S", "s")]
  text := "s = socket.socket("
  scope := 1
  position := .plain
  mode := .structural

/-- The last line, as a rule with the capture name `name` sees it. -/
def closeLog (ruleId name : String) : Match where
  ruleId := ruleId
  role := .cleanup
  kind := "socket_handle"
  path := "file"
  span := ⟨64, 75⟩
  line := 4
  column := 4
  bindings := .ofPairs [(name, "log")]
  text := "log.close()"
  scope := 1
  position := .plain
  mode := .structural

/-- The socket is never closed, and counts as closed by the log. -/
theorem leak_hidden_by_unrelated_cleanup :
    correlate fetchSetting [openSocket, closeLog "py.socket" "S", closeLog "py.connect" "C"] =
      [⟨openSocket, some (closeLog "py.connect" "C"), .cleaned⟩] ∧
    ¬Related openSocket (closeLog "py.connect" "C") := by
  constructor
  · simp only [correlate, settleKind, outermost, distinctCleanups, sortMatches_eq_insertionSort]
    decide +kernel
  · intro hrel
    have hshare := (hrel (by decide +kernel) (by decide +kernel)).1
    exact absurd hshare (by decide +kernel)

end Correlation
end LeakScan
