import PlatformRules.Proofs.Document.Formatting
import PlatformRules.Proofs.Evaluation.Effects
import PlatformRules.Proofs.Evaluation.Runs

namespace PlatformRules

open Text

namespace Evaluation

variable {m : Machine} {s t : RunState} {l k : SourceLine}

structure SameRun (s t : RunState) : Prop where
  registry : s.registry = t.registry
  unbound : s.chain.bound = []
  chain : s.chain = t.chain
  line : s.line.map (·.number) = t.line.map (·.number)
  calls : s.calls = t.calls
  sightings : s.sightings = t.sightings

theorem SameRun.reach (h : SameRun s t) (hnumber : k.number = l.number) :
    SameRun { s with line := some k } { t with line := some l } :=
  ⟨h.registry, h.unbound, h.chain, congrArg some hnumber, h.calls, h.sightings⟩

theorem SameRun.effect (h : SameRun s t) (st : Statement) :
    (st.effect m s).1 = (st.effect m t).1 ∧ SameRun (st.effect m s).2 (st.effect m t).2 := by
  rw [effect_eq_onto m s, effect_eq_onto m t, h.registry]
  exact ⟨rfl, ⟨rfl, h.unbound, h.chain, h.line, congrArg (_ ++ ·) h.calls, h.sightings⟩⟩

def EndsSame : Verdict × RunState → Verdict × RunState → Prop :=
  EndsBy id SameRun

theorem visit_same [Limits] (h : SameRun s t) (hlines : Document.SaysSame l k)
    (hlen : k.length ≤ maxLineLength) :
    Except.Related EndsSame SameRun (visit m s k) (visit m t l) := by
  obtain ⟨hnumber, st, hl, hk, hlength⟩ := hlines
  have hunbound : t.chain.bound = [] := h.chain ▸ h.unbound
  have hlen' := (byteLength_withoutReturn_le k.text).trans hlen
  rw [visit_of_written h.unbound (fun _ => hlen') hk, visit_of_written hunbound hlength hl]
  obtain ⟨heffect, hsame⟩ := (h.reach hnumber).effect st
  apply outcome_related _ hsame
  rw [heffect, Option.map_id]
  rfl

end Evaluation

namespace Evaluator

open Evaluation

variable {e : Evaluator} {m : Machine} {text f : String}

theorem foldlM_same [Limits] (hformat : Document.format text = .ok f)
    (hlength : ∀ l ∈ lines f.toList, l.length ≤ maxLineLength) {s : RunState}
    (hs : s.chain.bound = []) : Except.Related EndsSame SameRun
      ((lines f.toList).foldlM (visit m) s) ((lines text.toList).foldlM (visit m) s) := by
  have hlines : List.Forall₂ (fun k l => k.length ≤ maxLineLength ∧ Document.SaysSame l k)
      (lines f.toList) (lines text.toList) :=
    (List.forall₂_and_left _ _).2 ⟨hlength, (Document.saysSame_lines hformat).flip⟩
  have hstart : SameRun s s := ⟨rfl, hs, rfl, rfl, rfl, rfl⟩
  apply foldlM_related _ hlines hstart
  rintro s t k l hst ⟨hk, hsame⟩
  exact visit_same hst hsame hk

/-- Formatting keeps what a document does. -/
theorem evaluate_format [Limits] (hformat : Document.format text = .ok f)
    (hsize : f.utf8ByteSize ≤ maxDocumentSize)
    (hlength : ∀ l ∈ lines f.toList, l.length ≤ maxLineLength) (hchain : e.chain.bound = []) :
    let r := ({ e with document := text } : Evaluator).evaluate m
    let r' := ({ e with document := f } : Evaluator).evaluate m
    r'.1.verdict = r.1.verdict ∧ r'.2.matchedLine = r.2.matchedLine ∧ r'.1.calls = r.1.calls ∧
      r'.2.registry = r.2.registry := by
  intro r r'
  have hsize' := (Document.format_eq_ok hformat).1
  have hends := ending_related rfl (foldlM_same (m := m) hformat hlength (s := e.start) hchain)
  have hr : r = _ := evaluate_of_size hsize'
  have hr' : r' = _ := evaluate_of_size hsize
  rw [hr, hr', run_eq, run_eq]
  exact ⟨hends.1, matched_of_endsBy (fun _ _ h => h.line) hends,
    congrArg List.reverse hends.2.calls, hends.2.registry⟩

theorem evaluate_format_action :
    let hello : Callback := { answer := fun heard => .raised (heard.headD "") }
    let e : Evaluator := { document := "", registry := ⟨[("hello", hello)]⟩ }
    let r := ({ e with document := "\t@hello \t you  \r\n\n#c" } : Evaluator).evaluate {}
    let r' := ({ e with document := "@hello you\n\n# c\n" } : Evaluator).evaluate {}
    r'.1.verdict = r.1.verdict ∧ r'.2.matchedLine = r.2.matchedLine ∧ r'.1.calls = r.1.calls ∧
      r'.2.registry = r.2.registry := by
  intro hello e
  exact evaluate_format (e := e) (by decide) (by decide) (by decide) rfl

end Evaluator

end PlatformRules
