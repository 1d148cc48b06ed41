import PlatformRules.Evaluation.Evaluator
import PlatformRules.Proofs.Folds

namespace PlatformRules

open Text

abbrev SourceLine.view (l : SourceLine) (r : ReadLine) : LineView :=
  ⟨l.offset, l.number, r.line, l.text⟩

namespace Evaluation

def ending : Except (Verdict × RunState) RunState → Verdict × RunState
  | .ok s => (.ok none, s)
  | .error ended => ended

section

variable [Limits]

theorem run_eq (m : Machine) (text : List Char) (s : RunState) :
    run m text s = ending ((lines text).foldlM (visit m) s) := by
  rw [run, foldLines_eq_foldlM]
  rfl

variable {m : Machine} {s : RunState} {l : SourceLine}

def outcome : Effect × RunState → Except (Verdict × RunState) RunState
  | (some verdict, s) => .error (verdict, s)
  | (none, s) => .ok s

theorem visit_of_blank {l : SourceLine} (hblank : l.isBlank = true) :
    visit m s l = .ok { s with line := some l } := by
  simp [visit, hblank]

theorem visit_of_error {l : SourceLine} {e : LineError} (hblank : l.isBlank = false)
    (hread : Document.readLine l.text = .error e) :
    visit m s l = .error (.error (.syntaxError l.number e), { s with line := some l }) := by
  simp [visit, hblank, hread]

theorem visit_of_read {l : SourceLine} {r : ReadLine} (hblank : l.isBlank = false)
    (hread : Document.readLine l.text = .ok r) : visit m s l =
      outcome (showLine m ⟨l.offset, l.number, r.line, l.text⟩ { s with line := some l }) := by
  simp only [visit, hblank, hread, Bool.false_eq_true, if_false]
  rfl

def resume (m : Machine) (after : List SourceLine) : Effect × RunState → Verdict × RunState
  | (some verdict, s) => (verdict, s)
  | (none, s) => ending (after.foldlM (visit m) s)

theorem ending_cons {after : List SourceLine} {r : Effect × RunState}
    (h : visit m s l = outcome r) :
    ending ((l :: after).foldlM (visit m) s) = resume m after r := by
  rw [List.foldlM_cons, h]
  obtain ⟨effect, t⟩ := r
  cases effect <;> rfl

end

theorem ending_of_related {E : Verdict × RunState → Verdict × RunState → Prop}
    {R : RunState → RunState → Prop} {x y : Except (Verdict × RunState) RunState}
    (h : Except.Related E R x y) (hok : ∀ s t, R s t → E (.ok none, s) (.ok none, t)) :
    E (ending x) (ending y) := by
  cases x with
  | error ended =>
    cases y with
    | error ended' => exact h
    | ok t => exact h.elim
  | ok s =>
    cases y with
    | error ended' => exact h.elim
    | ok t => exact hok s t h

def EndsBy (g : Verdict → Verdict) (R : RunState → RunState → Prop)
    (r₁ r₂ : Verdict × RunState) : Prop :=
  r₁.1 = g r₂.1 ∧ R r₁.2 r₂.2

section

variable {g : Verdict → Verdict} {R : RunState → RunState → Prop}

theorem outcome_related {r₁ r₂ : Effect × RunState} (heffect : r₁.1 = r₂.1.map g)
    (h : R r₁.2 r₂.2) : Except.Related (EndsBy g R) R (outcome r₁) (outcome r₂) := by
  obtain ⟨effect₁, s₁⟩ := r₁
  obtain ⟨effect₂, s₂⟩ := r₂
  obtain rfl : effect₁ = effect₂.map g := heffect
  cases effect₂ with
  | none => exact h
  | some verdict => exact ⟨rfl, h⟩

theorem ending_related (hg : g (.ok none) = .ok none)
    {x y : Except (Verdict × RunState) RunState} (h : Except.Related (EndsBy g R) R x y) :
    EndsBy g R (ending x) (ending y) :=
  ending_of_related h fun _ _ hst => ⟨hg.symm, hst⟩

end

def fresh (registry : Registry) : RunState :=
  { registry, chain := {} }

def onto (s : RunState) (r : Effect × RunState) : Effect × RunState :=
  (r.1, { s with registry := r.2.registry, calls := r.2.calls ++ s.calls })

theorem callRegistered_eq_onto (s : RunState) (name argument : String) :
    callRegistered s name argument = onto s (callRegistered (fresh s.registry) name argument) := by
  unfold callRegistered
  cases h : s.registry.invoke? name argument with
  | none => simp [fresh, h, onto]
  | some r =>
    obtain ⟨answer, registry⟩ := r
    simp only [fresh, h]
    cases answer with
    | reply r => cases r <;> rfl
    | raised message => rfl
    | unknownCode code => rfl

theorem callAction_eq_onto (s : RunState) (name argument : String) :
    callAction s name argument = onto s (callAction (fresh s.registry) name argument) := by
  unfold callAction
  split
  · rfl
  · split
    · rfl
    · split
      · rfl
      · exact callRegistered_eq_onto s name argument

theorem dispatch_eq_onto (m : Machine) (v : LineView) (s : RunState) :
    dispatch m v s = onto s (dispatch m v (fresh s.registry)) := by
  unfold dispatch
  split
  · rfl
  · rfl
  · exact callAction_eq_onto ..
  · split <;> rfl
  · split <;> rfl
  · split <;> rfl

end Evaluation

namespace Evaluator

open Evaluation

variable {e : Evaluator} {m : Machine}

def matched (verdict : Verdict) (s : RunState) : Option Nat :=
  match verdict with
  | .ok (some _) => s.line.map (·.number)
  | _ => none

theorem matched_of_endsBy {R : RunState → RunState → Prop}
    (hline : ∀ s t, R s t → s.line.map (·.number) = t.line.map (·.number))
    {r₁ r₂ : Verdict × RunState} (h : EndsBy id R r₁ r₂) :
    matched r₁.1 r₁.2 = matched r₂.1 r₂.2 := by
  obtain ⟨hverdict, hstates⟩ := h
  rw [show r₁.1 = r₂.1 from hverdict]
  unfold matched
  split
  · exact hline _ _ hstates
  · rfl

def start (e : Evaluator) : RunState :=
  { registry := e.registry, chain := e.chain }

def conclude (e : Evaluator) (r : Verdict × RunState) : Report × Evaluator :=
  ({ verdict := r.1
     calls := r.2.calls.reverse
     sightings := r.2.sightings.reverse
     line := r.2.line },
   { e with registry := r.2.registry, chain := r.2.chain, matchedLine := matched r.1 r.2 })

variable [Limits]

theorem evaluate_of_size (h : e.document.utf8ByteSize ≤ maxDocumentSize) :
    e.evaluate m = e.conclude (Evaluation.run m e.document.toList e.start) := by
  rw [evaluate, if_neg (Nat.not_lt.2 h)]
  rfl

def Arrives (e : Evaluator) (m : Machine) (l : SourceLine) (after : List SourceLine)
    (s : RunState) : Prop :=
  e.document.utf8ByteSize ≤ maxDocumentSize ∧ ∃ before,
    Text.lines e.document.toList = before ++ l :: after ∧ before.foldlM (visit m) e.start = .ok s

theorem evaluate_of_arrives {l : SourceLine} {after : List SourceLine} {s : RunState}
    (h : e.Arrives m l after s) :
    e.evaluate m = e.conclude (ending ((l :: after).foldlM (visit m) s)) := by
  obtain ⟨hsize, before, hlines, hbefore⟩ := h
  rw [evaluate_of_size hsize, run_eq, hlines, List.foldlM_append, hbefore]
  rfl

end Evaluator

end PlatformRules
