import PlatformRules.Proofs.Evaluation.Effects
import PlatformRules.Proofs.Evaluation.Runs

namespace PlatformRules

open Text

def ActionAnswer.Ends : ActionAnswer → Prop
  | reply .proceed | reply .reset => False
  | _ => True

def Registry.Ends (registry : Registry) (name argument : String) : Prop :=
  ∀ c, registry.get? name = some c → (c.call argument).1.Ends

namespace Evaluation

def ActionEnds (registry : Registry) (name argument : String) : Prop :=
  name ≠ Vocabulary.voidAction ∧ (name = Vocabulary.throwAction ∨ name = Vocabulary.endAction ∨
    registry.Ends name argument)

/-- The lines that end the evaluation when they are reached in state `s`. -/
inductive Decides [Limits] (m : Machine) (s : RunState) (l : SourceLine) : Prop
  | unreadable {e : LineError} (hblank : l.isBlank = false)
      (hread : Document.readLine l.text = .error e)
  | observer {r : ReadLine} {x : Sighting} (hblank : l.isBlank = false)
      (hread : Document.readLine l.text = .ok r)
      (hx : x ∈ (s.chain.run ⟨l.offset, l.number, r.line, l.text⟩).1) (hended : x.ended = true)
  | path {o : Operator} {f : PathFields} {value : List Char}
      (h : Written (.path o f value) (trim l.text)) (hm : f.Denotes m)
  | action {name argument : List Char} (h : Written (.action name argument) (trim l.text))
      (hends : ActionEnds s.registry (String.ofList name) (String.ofList argument))

variable {m : Machine} {s : RunState} {l : SourceLine} {st : Statement}

theorem callRegistered_ends_iff {name argument : String} :
    (callRegistered s name argument).1.isSome ↔ s.registry.Ends name argument := by
  unfold callRegistered Registry.Ends Registry.invoke?
  cases hget : s.registry.get? name with
  | none => simp
  | some c =>
    simp only [Option.map_some, Option.some.injEq, forall_eq']
    cases (c.call argument).1 with
    | reply r => cases r <;> simp [ActionAnswer.Ends]
    | raised message => simp [ActionAnswer.Ends]
    | unknownCode code => simp [ActionAnswer.Ends]

theorem callAction_ends_iff {name argument : String} :
    (callAction s name argument).1.isSome ↔ ActionEnds s.registry name argument := by
  unfold callAction ActionEnds
  by_cases hvoid : name = Vocabulary.voidAction
  · simp [hvoid]
  · rw [if_neg hvoid]
    by_cases hthrow : name = Vocabulary.throwAction
    · simp [hthrow, show Vocabulary.throwAction ≠ Vocabulary.voidAction by decide]
    · rw [if_neg hthrow]
      by_cases hend : name = Vocabulary.endAction
      · simp [hend, show Vocabulary.endAction ≠ Vocabulary.voidAction by decide]
      · rw [if_neg hend]
        simp [hvoid, hthrow, hend, callRegistered_ends_iff]

theorem followPath_ends_iff {o : Operator} {f : PathFields} {value : List Char} (hf : f.IsValid) :
    (followPath m (f.logicPath o value)).isSome ↔ f.Denotes m := by
  by_cases hm : f.Denotes m
  · rw [followPath_of_denotes hf hm]
    cases o <;> simp [hm]
  · rw [followPath_of_not_denotes hf hm]
    simp [hm]

theorem outcome_eq_error_iff {r : Effect × RunState} :
    (∃ ended, outcome r = .error ended) ↔ r.1.isSome := by
  obtain ⟨effect, s⟩ := r
  cases effect <;> simp [outcome]

def shown (s : RunState) (v : LineView) : RunState :=
  { s with
    chain := (s.chain.run v).2
    sightings := (s.chain.run v).1.reverse ++ s.sightings }

theorem showLine_eq (m : Machine) (v : LineView) (s : RunState) :
    showLine m v s = if (s.chain.run v).1.any (·.ended) then (some (.ok none), shown s v)
      else dispatch m v (shown s v) := rfl

variable [Limits]

theorem visit_of_statement {r : ReadLine} (hblank : l.isBlank = false)
    (hread : Document.readLine l.text = .ok r) (hst : Written st (trim l.text)) :
    let v : LineView := ⟨l.offset, l.number, r.line, l.text⟩
    visit m s l = outcome
      (if (s.chain.run v).1.any (·.ended) then
        (some (.ok none), shown { s with line := some l } v)
      else st.effect m (shown { s with line := some l } v)) := by
  intro v
  have hsaid := Document.saying_of_readLine hread hst
  have hdispatch : dispatch m v (shown { s with line := some l } v) = _ :=
    dispatch_of_lexemes (Statement.isLegal_of_written hst) hsaid.line
  rw [visit_of_read hblank hread, showLine_eq, hdispatch]

def atLine (s : RunState) (l : SourceLine) (r : ReadLine) : RunState :=
  shown { s with line := some l } (l.view r)

theorem visit_of_passed {r : ReadLine} (hblank : l.isBlank = false)
    (hread : Document.readLine l.text = .ok r) (hst : Written st (trim l.text))
    (h : ∀ x ∈ (s.chain.run (l.view r)).1, x.ended = false) :
    visit m s l = outcome (st.effect m (atLine s l r)) := by
  have hany : (s.chain.run (l.view r)).1.any (·.ended) = false := by
    simpa using h
  rw [visit_of_statement hblank hread hst, hany, if_neg Bool.false_ne_true]
  rfl

theorem visit_of_ended {r : ReadLine} {x : Sighting} (hblank : l.isBlank = false)
    (hread : Document.readLine l.text = .ok r) (hx : x ∈ (s.chain.run (l.view r)).1)
    (h : x.ended = true) : visit m s l = .error (.ok none, atLine s l r) := by
  have hany : (s.chain.run (l.view r)).1.any (·.ended) = true :=
    List.any_eq_true.2 ⟨x, hx, h⟩
  rw [visit_of_read hblank hread, showLine_eq, if_pos hany]
  rfl

inductive Visits (m : Machine) (s : RunState) (l : SourceLine) :
    Except (Verdict × RunState) RunState → Prop
  | blank (hblank : l.isBlank = true) : Visits m s l (.ok { s with line := some l })
  | unreadable {e : LineError} (hblank : l.isBlank = false)
    (hread : Document.readLine l.text = .error e) :
    Visits m s l (.error (.error (.syntaxError l.number e), { s with line := some l }))
  | ended {r : ReadLine} {x : Sighting} (hblank : l.isBlank = false)
    (hread : Document.readLine l.text = .ok r) (hx : x ∈ (s.chain.run (l.view r)).1)
    (h : x.ended = true) : Visits m s l (.error (.ok none, atLine s l r))
  | passed {r : ReadLine} {st : Statement} (hblank : l.isBlank = false)
    (hread : Document.readLine l.text = .ok r) (hst : Written st (trim l.text))
    (h : ∀ x ∈ (s.chain.run (l.view r)).1, x.ended = false) :
    Visits m s l (outcome (st.effect m (atLine s l r)))

theorem visits (m : Machine) (s : RunState) (l : SourceLine) : Visits m s l (visit m s l) := by
  cases hblank : l.isBlank with
  | true =>
    rw [visit_of_blank hblank]
    exact .blank hblank
  | false =>
    cases hread : Document.readLine l.text with
    | error e =>
      rw [visit_of_error hblank hread]
      exact .unreadable hblank hread
    | ok r =>
      by_cases hend : ∃ x ∈ (s.chain.run (l.view r)).1, x.ended = true
      · obtain ⟨x, hx, hend⟩ := hend
        rw [visit_of_ended hblank hread hx hend]
        exact .ended hblank hread hx hend
      · obtain ⟨st, hst⟩ := Document.exists_written hread
        have hpass : ∀ x ∈ (s.chain.run (l.view r)).1, x.ended = false := by
          simpa using hend
        rw [visit_of_passed hblank hread hst hpass]
        exact .passed hblank hread hst hpass

theorem not_decides_of_isBlank (hblank : l.isBlank = true) : ¬Decides m s l := by
  have htrim : trim l.text = [] := SourceLine.isBlank_iff_trim.1 hblank
  rintro (⟨h, -⟩ | ⟨h, -, -, -⟩ | ⟨h, -⟩ | ⟨h, -⟩)
  · simp [hblank] at h
  · simp [hblank] at h
  · exact absurd (h.eq_blank htrim) (by simp)
  · exact absurd (h.eq_blank htrim) (by simp)

def StatementEnds (m : Machine) (registry : Registry) : Statement → Prop
  | .blank | .comment _ => False
  | .action name argument => ActionEnds registry (String.ofList name) (String.ofList argument)
  | .path _ f _ => f.Denotes m

omit [Limits] in
theorem effect_ends_iff (hst : st.IsLegal) :
    (st.effect m s).1.isSome ↔ StatementEnds m s.registry st := by
  cases st with
  | blank => simp [Statement.effect, StatementEnds]
  | comment text => simp [Statement.effect, StatementEnds]
  | action name argument => exact callAction_ends_iff
  | path o f value => exact followPath_ends_iff hst

theorem visit_ends_iff_of_read {r : ReadLine} (hblank : l.isBlank = false)
    (hread : Document.readLine l.text = .ok r) (hst : Written st (trim l.text)) :
    (∃ ended, visit m s l = .error ended) ↔
      (∃ x ∈ (s.chain.run ⟨l.offset, l.number, r.line, l.text⟩).1, x.ended = true) ∨
        StatementEnds m s.registry st := by
  let v : LineView := ⟨l.offset, l.number, r.line, l.text⟩
  have heffect : (st.effect m (shown { s with line := some l } v)).1.isSome ↔
      StatementEnds m s.registry st := effect_ends_iff (Statement.isLegal_of_written hst)
  rw [visit_of_statement hblank hread hst, outcome_eq_error_iff, ← heffect, ← List.any_eq_true]
  by_cases hany : (s.chain.run v).1.any (·.ended) = true
  · simp [v, hany]
  · simp [v, hany]

theorem visit_ends_iff : (∃ ended, visit m s l = .error ended) ↔ Decides m s l := by
  cases hblank : l.isBlank with
  | true =>
    rw [visit_of_blank hblank]
    simp [not_decides_of_isBlank hblank]
  | false =>
    cases hread : Document.readLine l.text with
    | error e =>
      rw [visit_of_error hblank hread]
      exact ⟨fun _ => .unreadable hblank hread, fun _ => ⟨_, rfl⟩⟩
    | ok r =>
      constructor
      · intro h
        obtain ⟨st, hst⟩ := Document.exists_written hread
        rcases (visit_ends_iff_of_read hblank hread hst).1 h with ⟨x, hx, hended⟩ | hends
        · exact .observer hblank hread hx hended
        · cases st with
          | blank => exact hends.elim
          | comment text => exact hends.elim
          | action name argument => exact .action hst hends
          | path o f value => exact .path hst hends
      · rintro (⟨-, h⟩ | ⟨-, h, hx, hended⟩ | ⟨hst, hm⟩ | ⟨hst, hends⟩)
        · simp [hread] at h
        · obtain ⟨st, hst⟩ := Document.exists_written hread
          obtain rfl := Except.ok.inj (hread.symm.trans h)
          exact (visit_ends_iff_of_read hblank hread hst).2 (.inl ⟨_, hx, hended⟩)
        · exact (visit_ends_iff_of_read hblank hread hst).2 (.inr hm)
        · exact (visit_ends_iff_of_read hblank hread hst).2 (.inr hends)

end Evaluation

end PlatformRules
