import PlatformRules.Document.Check
import PlatformRules.Document.Format
import PlatformRules.Document.Tokens
import PlatformRules.Proofs.Document.Faults
import PlatformRules.Proofs.Evaluation.Chains
import PlatformRules.Proofs.Evaluation.Decisions
import PlatformRules.Proofs.Text.Terminators

namespace PlatformRules

open Text

def LineView.unplaced (v : LineView) : LineView :=
  { v with offset := 0 }

def Sighting.unplaced (x : Sighting) : Sighting :=
  { x with view := x.view.unplaced }

def Observer.IgnoresOffsets (o : Observer) : Prop :=
  o.LooksThrough (·.unplaced)

namespace Evaluation

structure InStep (s t : RunState) : Prop where
  registry : s.registry = t.registry
  bound : ObserverChain.AllAlikeThrough (·.unplaced) s.chain.bound t.chain.bound
  line : s.line.map (·.number) = t.line.map (·.number)
  calls : s.calls = t.calls
  sightings : s.sightings.map (·.unplaced) = t.sightings.map (·.unplaced)

variable {m : Machine} {s t : RunState} {v w : LineView} {k l : SourceLine}

theorem InStep.reach (h : InStep s t) (hnumber : k.number = l.number) :
    InStep { s with line := some k } { t with line := some l } :=
  ⟨h.registry, h.bound, congrArg some hnumber, h.calls, h.sightings⟩

theorem InStep.onto (h : InStep s t) (r : Effect × RunState) :
    InStep (onto s r).2 (onto t r).2 :=
  ⟨rfl, h.bound, h.line, congrArg (r.2.calls ++ ·) h.calls, h.sightings⟩

theorem dispatch_unplaced (m : Machine) (v : LineView) (s : RunState) :
    dispatch m v.unplaced s = dispatch m v s := rfl

section

variable (hview : v.unplaced = w.unplaced) (h : InStep s t)
include hview h

theorem InStep.dispatch : (dispatch m v s).1 = (dispatch m w t).1 ∧
    InStep (dispatch m v s).2 (dispatch m w t).2 := by
  rw [← dispatch_unplaced m v s, ← dispatch_unplaced m w t, hview, dispatch_eq_onto m _ s,
    dispatch_eq_onto m _ t, h.registry]
  exact ⟨rfl, h.onto _⟩

theorem InStep.shown : InStep (shown s v) (shown t w) := by
  obtain ⟨⟨said, hv, hw⟩, hbound⟩ := ObserverChain.run_through hview h.bound
  have hsaid (x : Nat × Bool) : (Sighting.of v x).unplaced = (Sighting.of w x).unplaced := by
    simp only [Sighting.of, Sighting.unplaced, hview]
  have hunplaced : (s.chain.run v).1.map (·.unplaced) = (t.chain.run w).1.map (·.unplaced) := by
    rw [hv, hw, List.map_map, List.map_map]
    exact List.map_congr_left fun x _ => hsaid x
  refine ⟨h.registry, hbound, h.line, h.calls, ?_⟩
  simp only [Evaluation.shown, List.map_append, List.map_reverse, hunplaced, h.sightings]

theorem InStep.showLine : (showLine m v s).1 = (showLine m w t).1 ∧
    InStep (showLine m v s).2 (showLine m w t).2 := by
  obtain ⟨⟨said, hv, hw⟩, -⟩ := ObserverChain.run_through hview h.bound
  have hended : (s.chain.run v).1.any (·.ended) = (t.chain.run w).1.any (·.ended) := by
    rw [hv, hw, List.any_map, List.any_map]
    rfl
  have hshown := h.shown hview
  rw [showLine_eq, showLine_eq, hended]
  split
  · exact ⟨rfl, hshown⟩
  · exact hshown.dispatch hview

end

def EndsInStep : Verdict × RunState → Verdict × RunState → Prop :=
  EndsBy id InStep

variable [Limits]

theorem InStep.visit (h : InStep s t) (hline : k.unplaced = l.unplaced) :
    Except.Related EndsInStep InStep (visit m s k) (visit m t l) := by
  have hnumber : k.number = l.number := congrArg (·.number) hline
  have htext : k.text = l.text := congrArg (·.text) hline
  have hsame : k.isBlank = l.isBlank := congrArg (·.isBlank) hline
  have hreach := h.reach hnumber
  cases hblank : l.isBlank with
  | true =>
    rw [visit_of_blank hblank, visit_of_blank (hsame.trans hblank)]
    exact hreach
  | false =>
    cases hread : Document.readLine l.text with
    | error e =>
      rw [visit_of_error hblank hread, visit_of_error (hsame.trans hblank) (htext ▸ hread), hnumber]
      exact ⟨rfl, hreach⟩
    | ok r =>
      rw [visit_of_read hblank hread, visit_of_read (hsame.trans hblank) (htext ▸ hread)]
      have hview : (k.view r).unplaced = (l.view r).unplaced := by
        simp only [LineView.unplaced, hnumber, htext]
      obtain ⟨heffect, hinStep⟩ := hreach.showLine (m := m) hview
      apply outcome_related _ hinStep
      rw [heffect, Option.map_id]
      rfl

theorem InStep.run (h : InStep s t) {cs ds : List Char} (hlines : AddsReturns cs ds)
    (hcs : '\r' ∉ cs) : EndsInStep (run m ds s) (run m cs t) := by
  have hsame := map_eq_map_iff_forall₂.1 (unplaced_lines hlines hcs)
  rw [run_eq, run_eq]
  apply ending_related rfl
  exact foldlM_related (fun s t k l hst hkl => hst.visit hkl) hsame h

end Evaluation

theorem Document.walk_of_unplaced [Limits] {σ : Type}
    {visit : σ → SourceLine → Except DocumentError σ}
    (hvisit : ∀ s l, visit s l.unplaced = visit s l) {text text' : String}
    (hlines : (lines text'.toList).map (·.unplaced) = (lines text.toList).map (·.unplaced))
    (hsize : text.utf8ByteSize ≤ maxDocumentSize) (hsize' : text'.utf8ByteSize ≤ maxDocumentSize)
    (s : σ) : walk visit text' s = walk visit text s := by
  have hfold (ls : List SourceLine) :
      (ls.map (·.unplaced)).foldlM visit s = ls.foldlM visit s := by
    rw [List.foldlM_map]
    exact foldlM_congr (fun l _ s => hvisit s l) s
  rw [walk_of_size hsize, walk_of_size hsize', ← hfold, hlines, hfold]

namespace Evaluator

open Evaluation

variable {e : Evaluator} {m : Machine} {text text' : String}

/-- Carriage returns in front of line feeds change nothing but the bytes in front of the lines. -/
theorem evaluate_addsReturns [Limits] (h : AddsReturns text.toList text'.toList)
    (hreturn : '\r' ∉ text.toList) (hsize : text.utf8ByteSize ≤ maxDocumentSize)
    (hsize' : text'.utf8ByteSize ≤ maxDocumentSize)
    (hobservers : ∀ x ∈ e.chain.bound, x.2.IgnoresOffsets) :
    let r := ({ e with document := text } : Evaluator).evaluate m
    let r' := ({ e with document := text' } : Evaluator).evaluate m
    (r'.1.verdict = r.1.verdict ∧ r'.2.matchedLine = r.2.matchedLine ∧ r'.1.calls = r.1.calls ∧
      r'.2.registry = r.2.registry ∧
      r'.1.sightings.map (·.unplaced) = r.1.sightings.map (·.unplaced)) ∧
    Document.check text' = Document.check text ∧ Document.tokens text' = Document.tokens text ∧
      Document.format text' = Document.format text := by
  intro r r'
  have hlines := unplaced_lines h hreturn
  refine ⟨?_, ?_, ?_, ?_⟩
  · have hstart : InStep e.start e.start :=
      ⟨rfl, List.forall₂_same.2 fun x hx => ⟨rfl, rfl, rfl, hobservers x hx⟩, rfl, rfl, rfl⟩
    have hends : EndsInStep _ _ := hstart.run (m := m) h hreturn
    have hr : r = _ := evaluate_of_size hsize
    have hr' : r' = _ := evaluate_of_size hsize'
    have hsightings := congrArg List.reverse hends.2.sightings
    rw [← List.map_reverse, ← List.map_reverse] at hsightings
    rw [hr, hr']
    exact ⟨hends.1, matched_of_endsBy (fun _ _ h => h.line) hends,
      congrArg List.reverse hends.2.calls, hends.2.registry, hsightings⟩
  · rw [Document.check, Document.check,
      Document.walk_of_unplaced (fun _ _ => rfl) hlines hsize hsize']
  · rw [Document.tokens, Document.tokens,
      Document.walk_of_unplaced (fun _ _ => rfl) hlines hsize hsize']
  · rw [Document.format, Document.format,
      Document.walk_of_unplaced (fun _ _ => rfl) hlines hsize hsize']

theorem evaluate_addsReturns_second :
    let o : Observer := { ends := fun vs => vs.any (·.number == 2) }
    let e : Evaluator := { document := "", chain := { bound := [(0, o)], next := 1 } }
    let r := ({ e with document := "#a\n#b" } : Evaluator).evaluate {}
    let r' := ({ e with document := "#a\r\n#b" } : Evaluator).evaluate {}
    r'.1.sightings.map (·.unplaced) = r.1.sightings.map (·.unplaced) ∧
      r'.1.sightings ≠ r.1.sightings ∧ Document.check "#a\r\n#b" = Document.check "#a\n#b" := by
  intro o e r r'
  have h : AddsReturns "#a\n#b".toList "#a\r\n#b".toList :=
    .cons '#' (.cons 'a' (.feed (.cons '#' (.cons 'b' .nil))))
  have hobservers : ∀ x ∈ e.chain.bound, x.2.IgnoresOffsets := by
    intro x hx vs ws hsame
    obtain rfl : x = (0, o) := by simpa [e] using hx
    have hnumbers := congrArg (List.any · (·.number == 2)) hsame
    simp only [List.any_map] at hnumbers
    exact hnumbers
  obtain ⟨⟨-, -, -, -, hsightings⟩, hcheck, -⟩ :=
    evaluate_addsReturns (e := e) (m := {}) h (by decide) (by decide) (by decide) hobservers
  exact ⟨hsightings, by decide +kernel, hcheck⟩

end Evaluator

end PlatformRules
