import PlatformRules.Proofs.Document.Causes
import PlatformRules.Proofs.Document.Faults
import PlatformRules.Proofs.Evaluation.Composition

/-!
Syntax errors of an evaluation. The only one that an evaluation can end with is the fault of the
document, and it does so unless an earlier line decides. Few kinds of them can come up at all.
-/

namespace PlatformRules

open Text

namespace Evaluation

open Document

variable {m : Machine} {s : RunState} {l : SourceLine} {st : Statement} {n : Nat} {cause : LineError}

theorem ne_syntaxError_of_shift {effect : Effect} (h : effect.map (Verdict.shift 1) = effect) :
    effect ≠ some (.error (.syntaxError n cause)) := by
  rintro rfl
  simp [Verdict.shift, DocumentError.shift] at h

theorem effect_ne_syntaxError : (st.effect m s).1 ≠ some (.error (.syntaxError n cause)) := by
  cases st with
  | blank => simp [Statement.effect]
  | comment text => simp [Statement.effect]
  | action name argument => exact ne_syntaxError_of_shift (shift_callAction ..)
  | path o f value => exact ne_syntaxError_of_shift (shift_followPath ..)

variable [Limits]

theorem visit_syntaxError_iff :
    (∃ t, visit m s l = .error (.error (.syntaxError n cause), t)) ↔
      Refuses l (.syntaxError n cause) := by
  cases hblank : l.isBlank with
  | true => simp [visit_of_blank hblank, Refuses, hblank]
  | false =>
    cases hread : readLine l.text with
    | error e =>
      rw [visit_of_error hblank hread, refuses_iff_of_readLine hblank hread]
      simp
    | ok r =>
      have hnot : ¬Refuses l (.syntaxError n cause) := by simp [Refuses, hread]
      refine iff_of_false ?_ hnot
      rintro ⟨t, hvisit⟩
      obtain ⟨st, hst⟩ := exists_written hread
      rw [visit_of_statement hblank hread hst] at hvisit
      split at hvisit
      · simp [outcome] at hvisit
      · generalize hr : st.effect m _ = r at hvisit
        obtain ⟨effect, u⟩ := r
        cases effect with
        | none => simp [outcome] at hvisit
        | some verdict =>
          obtain ⟨rfl, -⟩ := Prod.mk.inj (Except.error.inj hvisit)
          exact effect_ne_syntaxError (congrArg Prod.fst hr)

def EndedBefore (m : Machine) (n : Nat) (text : List Char) (s : RunState) : Prop :=
  ∃ before l after t, lines text = before ++ l :: after ∧ l.number < n ∧
    before.foldlM (visit m) s = .ok t ∧ Decides m t l

theorem endedBefore_iff {text : List Char} {before after : List SourceLine}
    (h : lines text = before ++ l :: after) :
    EndedBefore m l.number text s ↔ ∃ ended, before.foldlM (visit m) s = .error ended := by
  have hnumber := number_of_lines_eq h
  constructor
  · rintro ⟨before', k, after', t, h', hlt, hbefore', hk⟩
    have hnumber' := number_of_lines_eq h'
    obtain ⟨ended, hvisit⟩ := visit_ends_iff.2 hk
    rw [h] at h'
    rcases List.append_eq_append_iff.1 h' with ⟨between, hcut, -⟩ | ⟨between, hcut, hrest⟩
    · have := congrArg List.length hcut
      rw [List.length_append] at this
      omega
    · cases between with
      | nil =>
        rw [List.append_nil] at hcut
        have := congrArg List.length hcut
        omega
      | cons k' between =>
        obtain ⟨rfl, -⟩ := List.cons.inj hrest
        exact ⟨ended, foldlM_eq_error_iff.2 ⟨before', k, between, t, hcut, hbefore', hvisit⟩⟩
  · rintro ⟨ended, hended⟩
    obtain ⟨before', k, between, t, rfl, hbefore', hvisit⟩ := foldlM_eq_error_iff.1 hended
    rw [List.append_assoc] at h
    have hnumber' := number_of_lines_eq h
    rw [List.length_append, List.length_cons] at hnumber
    exact ⟨before', k, between ++ l :: after, t, h, by omega, hbefore', visit_ends_iff.1 ⟨_, hvisit⟩⟩

theorem not_refuses_of_foldlM {ls : List SourceLine} {t : RunState}
    (h : ls.foldlM (visit m) s = .ok t) : ∀ k ∈ ls, ∀ x, ¬Refuses k x := by
  intro k hk x hx
  obtain ⟨u, v, huv⟩ := exists_of_mem_of_foldlM_eq_ok h hk
  obtain ⟨hblank, cause, hread, -⟩ := hx
  simp [visit_of_error hblank hread] at huv

theorem run_syntaxError_iff {text : List Char} :
    (run m text s).1 = .error (.syntaxError n cause) ↔
      FirstRefusal (lines text) (.syntaxError n cause) ∧ ¬EndedBefore m n text s := by
  have hending (x : Except (Verdict × RunState) RunState) :
      (ending x).1 = .error (.syntaxError n cause) ↔
        ∃ t, x = .error (.error (.syntaxError n cause), t) := by
    cases x with
    | ok t => simp [ending]
    | error ended => simp [ending, Prod.ext_iff]
  rw [run_eq, hending]
  constructor
  · rintro ⟨t, h⟩
    obtain ⟨before, l, after, u, hlines, hbefore, hvisit⟩ := foldlM_eq_error_iff.1 h
    have hl := visit_syntaxError_iff.1 ⟨t, hvisit⟩
    obtain rfl := hl.number_eq
    refine ⟨⟨before, l, after, hlines, not_refuses_of_foldlM hbefore, hl⟩, ?_⟩
    rw [endedBefore_iff hlines, hbefore]
    simp
  · rintro ⟨⟨before, l, after, hlines, -, hl⟩, hnot⟩
    obtain rfl := hl.number_eq
    rw [endedBefore_iff hlines] at hnot
    cases hbefore : before.foldlM (visit m) s with
    | error ended => exact absurd ⟨ended, hbefore⟩ hnot
    | ok u =>
      obtain ⟨t, hvisit⟩ := (visit_syntaxError_iff (m := m) (s := u)).2 hl
      exact ⟨t, foldlM_eq_error_iff.2 ⟨before, l, after, u, hlines, hbefore, hvisit⟩⟩

/-- A run over the text gets to the line: it is shown to the observers and, unless one of them ends
the run, takes effect. -/
def Reaches (m : Machine) (text : List Char) (s : RunState) (v : LineView) : Prop :=
  ∃ before l after t r, lines text = before ++ l :: after ∧ before.foldlM (visit m) s = .ok t ∧
    l.isBlank = false ∧ readLine l.text = .ok r ∧ v = ⟨l.offset, l.number, r.line, l.text⟩

theorem Reaches.length_mem {text : List Char} {v : LineView} (h : Reaches m text s v) :
    v.line.length ∈ [2, 3, 5, 6] := by
  obtain ⟨before, l, after, t, r, -, -, hblank, hread, rfl⟩ := h
  exact length_of_readLine_eq_ok (SourceLine.trim_ne_nil hblank) hread

end Evaluation

namespace Document

theorem isCause_of_hasFault [Limits] {text : String} {n : Nat} {cause : LineError}
    (h : HasFault text (.syntaxError n cause)) : cause.IsCause := by
  rcases h with ⟨-, h⟩ | ⟨-, before, l, after, -, -, hblank, cause', hread, h⟩
  · simp at h
  · obtain ⟨rfl, rfl⟩ := DocumentError.syntaxError.inj h
    exact isCause_of_readLine (SourceLine.trim_ne_nil hblank) hread

end Document

namespace Evaluator

open Evaluation Document

theorem verdict_syntaxError_iff [Limits] {e : Evaluator} {m : Machine} {n : Nat}
    {cause : LineError} : (e.evaluate m).1.verdict = .error (.syntaxError n cause) ↔
      HasFault e.document (.syntaxError n cause) ∧
        ¬EndedBefore m n e.document.toList e.start := by
  by_cases hsize : e.document.utf8ByteSize ≤ maxDocumentSize
  · rw [evaluate_of_size hsize]
    simp [HasFault, hsize, conclude, run_syntaxError_iff]
  · have hlarge : maxDocumentSize < e.document.utf8ByteSize := Nat.not_le.1 hsize
    simp [evaluate, HasFault, hsize, hlarge]

/-- Checking, formatting and evaluating a document agree on what is wrong with it. -/
theorem evaluate_agrees [Limits] (e : Evaluator) (m : Machine) :
    (∀ x, format e.document = .error x ↔ check e.document = .error x) ∧
      (∀ n cause, (e.evaluate m).1.verdict = .error (.syntaxError n cause) ↔
        check e.document = .error (.syntaxError n cause) ∧
          ¬EndedBefore m n e.document.toList e.start) ∧
      ((∃ s, check e.document = .ok s) →
        ∀ n cause, (e.evaluate m).1.verdict ≠ .error (.syntaxError n cause)) := by
  refine ⟨?_, ?_, ?_⟩
  · intro x
    rw [format_eq_error_iff, check_eq_error_iff]
  · intro n cause
    rw [verdict_syntaxError_iff, check_eq_error_iff]
  · rintro ⟨s, hs⟩ n cause hverdict
    have hfault := (verdict_syntaxError_iff.1 hverdict).1
    rw [← check_eq_error_iff, hs] at hfault
    simp at hfault

theorem evaluate_agrees_name :
    let fault : DocumentError := .syntaxError 2 (.grammar (.invalidActionName ""))
    let void : Evaluator := { document := "@Void\n@" }
    let endAll : Evaluator := { document := "@EndAll\n@" }
    format void.document = .error fault ∧ (void.evaluate {}).1.verdict = .error fault ∧
      (endAll.evaluate {}).1.verdict ≠ .error fault := by
  intro fault void endAll
  have hcheck : check void.document = .error fault := by decide
  have hvoid : lines void.document.toList =
      [⟨1, 0, "@Void".toList⟩] ++ ⟨2, 6, "@".toList⟩ :: [] := by decide
  have hendAll : lines endAll.document.toList =
      [⟨1, 0, "@EndAll".toList⟩] ++ ⟨2, 8, "@".toList⟩ :: [] := by decide
  refine ⟨((evaluate_agrees void {}).1 fault).2 hcheck, ?_, ?_⟩
  · refine ((evaluate_agrees void {}).2.1 2 _).2 ⟨hcheck, ?_⟩
    have hrun : [⟨1, 0, "@Void".toList⟩].foldlM (visit {}) void.start = .ok _ := rfl
    rw [endedBefore_iff hvoid]
    rintro ⟨ended, hended⟩
    exact absurd (hrun.symm.trans hended) (by simp)
  · intro hverdict
    have hrun : [⟨1, 0, "@EndAll".toList⟩].foldlM (visit {}) endAll.start = .error _ := rfl
    exact (((evaluate_agrees endAll {}).2.1 2 _).1 hverdict).2
      ((endedBefore_iff hendAll).2 ⟨_, hrun⟩)

/-- Most of the errors that a line can be given never come from a text. -/
theorem evaluate_causes [Limits] (e : Evaluator) (m : Machine) :
    (∀ n cause, (e.evaluate m).1.verdict = .error (.syntaxError n cause) →
      cause.IsCause ∧ cause.name ∉ LineError.foreignNames) ∧
    ∀ v, Reaches m e.document.toList e.start v → v.line.length ∈ [2, 3, 5, 6] := by
  constructor
  · intro n cause hverdict
    have hcause := isCause_of_hasFault (verdict_syntaxError_iff.1 hverdict).1
    exact ⟨hcause, hcause.not_foreign⟩
  · intro v hv
    exact hv.length_mem

theorem evaluate_causes_name :
    let e : Evaluator := { document := "@Void\n@" }
    let cause : LineError := .grammar (.invalidActionName "")
    (e.evaluate {}).1.verdict = .error (.syntaxError 2 cause) ∧ cause.IsCause ∧
      ∃ v, Reaches {} e.document.toList e.start v ∧ v.number = 1 ∧
        v.line.length ∈ [2, 3, 5, 6] := by
  intro e cause
  have hverdict : (e.evaluate {}).1.verdict = .error (.syntaxError 2 cause) := by decide
  have hreaches : Reaches {} e.document.toList e.start _ :=
    ⟨[], ⟨1, 0, "@Void".toList⟩, [⟨2, 6, "@".toList⟩], _, _, by decide, rfl, by decide, rfl, rfl⟩
  exact ⟨hverdict, ((evaluate_causes e {}).1 2 cause hverdict).1, _, hreaches, rfl,
    (evaluate_causes e {}).2 _ hreaches⟩

end Evaluator

end PlatformRules
