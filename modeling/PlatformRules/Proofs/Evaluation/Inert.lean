import PlatformRules.Proofs.Evaluation.Faults
import PlatformRules.Proofs.Text.Parts

namespace PlatformRules

open Text

def DocumentError.mapLine (f : Nat → Nat) : DocumentError → DocumentError
  | syntaxError line cause => syntaxError (f line) cause
  | x => x

def Verdict.mapLine (f : Nat → Nat) : Verdict → Verdict
  | .ok selection => .ok selection
  | .error x => .error (x.mapLine f)

namespace Evaluation

/-- Blank lines may have any length; the others are within the limit. -/
inductive Inert [Limits] (m : Machine) (l : SourceLine) : Prop
  | blank (h : l.isBlank = true)
  | comment {text : List Char} (h : Written (.comment text) (trim l.text))
      (hlen : byteLength (withoutReturn l.text) ≤ maxLineLength)
  | void {argument : List Char}
      (h : Written (.action Vocabulary.voidAction.toList argument) (trim l.text))
      (hlen : byteLength (withoutReturn l.text) ≤ maxLineLength)
  | path {o : Operator} {fields : PathFields} {value : List Char}
      (h : Written (.path o fields value) (trim l.text)) (hm : ¬fields.Denotes m)
      (hlen : byteLength (withoutReturn l.text) ≤ maxLineLength)

variable {m : Machine} {s t : RunState} {k l : SourceLine} {f : Nat → Nat}

theorem visit_of_inert [Limits] (hs : s.chain.bound = []) (h : Inert m l) :
    visit m s l = .ok { s with line := some l } := by
  cases h with
  | blank h => exact visit_of_blank h
  | comment h hlen =>
    rw [visit_of_written hs (fun _ => hlen) h]
    rfl
  | void h hlen =>
    rw [visit_of_written hs (fun _ => hlen) h, Statement.effect, String.ofList_toList, callAction,
      if_pos rfl]
    rfl
  | path h hm hlen =>
    have hf := Statement.isLegal_of_written h
    rw [visit_of_written hs (fun _ => hlen) h, Statement.effect, followPath_of_not_denotes hf hm]
    rfl

structure SameWork (s t : RunState) : Prop where
  registry : s.registry = t.registry
  unbound : s.chain.bound = []
  chain : s.chain = t.chain
  calls : s.calls = t.calls

theorem SameWork.reach (h : SameWork s t) (k l : SourceLine) :
    SameWork { s with line := some k } { t with line := some l } :=
  ⟨h.registry, h.unbound, h.chain, h.calls⟩

structure EndsMoved (f : Nat → Nat) (r₁ r₂ : Verdict × RunState) : Prop where
  verdict : r₁.1 = r₂.1.mapLine f
  work : SameWork r₁.2 r₂.2
  matched : Evaluator.matched r₁.1 r₁.2 = (Evaluator.matched r₂.1 r₂.2).map f

theorem mapLine_of_effect {st : Statement} {verdict : Verdict}
    (h : (st.effect m s).1 = some verdict) : verdict.mapLine f = verdict := by
  cases verdict with
  | ok selection => rfl
  | error x =>
    cases x with
    | syntaxError n cause => exact absurd h effect_ne_syntaxError
    | undefinedAction name => rfl
    | actionFailed name code => rfl
    | raised message => rfl
    | tooLarge size => rfl

theorem endsMoved_of_line {r₁ r₂ : Verdict × RunState} (hverdict : r₁.1 = r₂.1.mapLine f)
    (hwork : SameWork r₁.2 r₂.2) (hline : r₁.2.line.map (·.number) = r₂.2.line.map (f ·.number)) :
    EndsMoved f r₁ r₂ := by
  refine ⟨hverdict, hwork, ?_⟩
  rw [hverdict]
  cases r₂.1 with
  | error x => rfl
  | ok selection =>
    cases selection with
    | none => rfl
    | some value =>
      simp only [Verdict.mapLine, Evaluator.matched, hline, Option.map_map]
      rfl

theorem outcome_moved {st : Statement} (h : SameWork s t) (hnumber : k.number = f l.number) :
    Except.Related (EndsMoved f) SameWork (outcome (st.effect m { s with line := some k }))
      (outcome (st.effect m { t with line := some l })) := by
  have hreach := h.reach k l
  rw [effect_eq_onto m { s with line := some k }, effect_eq_onto m { t with line := some l },
    hreach.registry]
  generalize hr : st.effect m (fresh _) = r
  have hwork : SameWork (onto { s with line := some k } r).2 (onto { t with line := some l } r).2 :=
    ⟨rfl, hreach.unbound, hreach.chain, congrArg (_ ++ ·) hreach.calls⟩
  obtain ⟨effect, u⟩ := r
  cases effect with
  | none => exact hwork
  | some verdict =>
    exact endsMoved_of_line (mapLine_of_effect (congrArg Prod.fst hr)).symm hwork
      (congrArg some hnumber)

variable [Limits]

theorem visit_moved (h : SameWork s t) (htext : k.text = l.text) (hnumber : k.number = f l.number) :
    Except.Related (EndsMoved f) SameWork (visit m s k) (visit m t l) := by
  have hreach := h.reach k l
  have hunbound : t.chain.bound = [] := h.chain ▸ h.unbound
  have hblank' : k.isBlank = l.isBlank := congrArg (·.all isBlank) htext
  cases hblank : l.isBlank with
  | true =>
    rw [visit_of_blank hblank, visit_of_blank (hblank'.trans hblank)]
    exact hreach
  | false =>
    cases hread : Document.readLine l.text with
    | error e =>
      have hread' : Document.readLine k.text = .error e := htext ▸ hread
      rw [visit_of_error hblank hread, visit_of_error (hblank'.trans hblank) hread', hnumber]
      exact endsMoved_of_line rfl hreach (congrArg some hnumber)
    | ok r =>
      obtain ⟨st, hst⟩ := Document.exists_written hread
      have hlen := Document.length_of_readLine hread
      rw [visit_of_written hunbound (fun _ => hlen) hst,
        visit_of_written h.unbound (fun _ => htext ▸ hlen) (htext ▸ hst)]
      exact outcome_moved h hnumber

theorem foldlM_moved {gone : Nat → Bool} {text : List Char}
    (hgone : ∀ l ∈ lines text, gone l.number = true → Inert m l) (hs : s.chain.bound = []) :
    Except.Related (EndsMoved fun n => n - goneBefore gone n) SameWork
      ((lines (withoutLines gone text)).foldlM (visit m) s) ((lines text).foldlM (visit m) s) := by
  have hstart : SameWork s s := ⟨rfl, hs, rfl, rfl⟩
  -- At a line that stays both runs go on, at one that is gone only the run over the whole text.
  apply foldlM_filter_related _ _ (movesUp_lines gone text) hstart
  · rintro s t k l hst ⟨htext, hnumber⟩
    exact visit_moved hst htext hnumber
  · intro s t l hl hkeep hst
    have hinert := hgone l hl (by simpa using hkeep)
    have hunbound : t.chain.bound = [] := hst.chain ▸ hst.unbound
    exact ⟨_, visit_of_inert hunbound hinert, hst.registry, hst.unbound, hst.chain, hst.calls⟩

end Evaluation

namespace Evaluator

open Evaluation

variable {e : Evaluator} {m : Machine}

/-- Lines without effect can be deleted from a document. -/
theorem evaluate_withoutLines [Limits] {gone : Nat → Bool}
    (hsize : e.document.utf8ByteSize ≤ maxDocumentSize) (hchain : e.chain.bound = [])
    (hgone : ∀ l ∈ lines e.document.toList, gone l.number = true → Inert m l) :
    let r := e.evaluate m
    let r' := (e.on (withoutLines gone e.document.toList)).evaluate m
    r'.1.verdict = r.1.verdict.mapLine (fun n => n - goneBefore gone n) ∧
      r'.2.matchedLine = r.2.matchedLine.map (fun n => n - goneBefore gone n) ∧
      r'.1.calls = r.1.calls ∧ r'.2.registry = r.2.registry := by
  intro r r'
  have hsize' : byteLength (withoutLines gone e.document.toList) ≤ maxDocumentSize := by
    rw [utf8ByteSize_eq] at hsize
    exact (byteLength_withoutLinesFrom_le gone 1 _).trans hsize
  have hends := ending_of_related (foldlM_moved (m := m) hgone (s := e.start) hchain)
    fun _ _ hst => ⟨rfl, hst, rfl⟩
  have hr : r = _ := evaluate_of_size hsize
  have hr' : r' = _ := evaluate_on hsize'
  rw [hr, hr', run_eq]
  exact ⟨hends.verdict, hends.matched, congrArg List.reverse hends.work.calls, hends.work.registry⟩

theorem evaluate_withoutLines_ubuntu :
    let hello : Callback := { answer := fun _ => .reply .proceed }
    let text := "# c\n\n@Void x\n-> ubuntu \"u\"\n@hello you\n-> \"y\"".toList
    let e : Evaluator := { document := String.ofList text, registry := ⟨[("hello", hello)]⟩ }
    let gone := fun n : Nat => decide (n ≤ 4)
    let r := e.evaluate {}
    let r' := (e.on (withoutLines gone e.document.toList)).evaluate {}
    withoutLines gone text = "@hello you\n-> \"y\"".toList ∧ goneBefore gone 6 = 4 ∧
      r'.1.verdict = r.1.verdict.mapLine (fun n => n - goneBefore gone n) ∧
      r'.2.matchedLine = r.2.matchedLine.map (fun n => n - goneBefore gone n) ∧
      r'.1.calls = r.1.calls ∧ r'.2.registry = r.2.registry := by
  intro hello text e gone
  have hlines : lines e.document.toList = [⟨1, 0, "# c".toList⟩, ⟨2, 4, []⟩,
      ⟨3, 5, "@Void x".toList⟩, ⟨4, 13, "-> ubuntu \"u\"".toList⟩, ⟨5, 27, "@hello you".toList⟩,
      ⟨6, 38, "-> \"y\"".toList⟩] := by
    decide
  have hgone : ∀ l ∈ lines e.document.toList, gone l.number = true → Inert {} l := by
    rw [hlines]
    intro l hl hnumber
    simp only [List.mem_cons, List.not_mem_nil, or_false] at hl
    rcases hl with rfl | rfl | rfl | rfl | rfl | rfl
    · exact .comment (.comment " c".toList) (by decide)
    · exact .blank rfl
    · have hvoid : Written (.action Vocabulary.voidAction.toList (trim " x".toList))
          ('@' :: (Vocabulary.voidAction.toList ++ " x".toList)) :=
        .action ⟨by decide, forall_of_all (by decide)⟩ (forall_of_all (by decide)) (by decide)
      exact .void hvoid (by decide)
    · have hno : ¬(PathFields.system (.word "ubuntu".toList)).Denotes {} := by
        rintro (h | ⟨h, -⟩)
        · exact absurd h (by decide)
        · exact absurd h (by decide)
      have hwritten : Written (.path .returns (.system (.word "ubuntu".toList)) "u".toList)
          (Operator.returns.symbol.toList ++
            (([' '] ++ ("ubuntu".toList ++ [])) ++ ([' '] ++ '"' :: ("u".toList ++ ['"'])))) :=
        .path ⟨"ubuntu", by decide, by decide⟩ (.cons (by decide) .nil) (by decide)
      exact .path hwritten hno (by decide)
    · exact absurd hnumber (by decide)
    · exact absurd hnumber (by decide)
  exact ⟨by decide, by decide, evaluate_withoutLines (e := e) (by decide) rfl hgone⟩

end Evaluator

end PlatformRules
