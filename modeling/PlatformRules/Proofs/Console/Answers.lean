import PlatformRules.Proofs.Console.Work

namespace PlatformRules.Console

variable {json : Bool}

def EvaluationReport.answer [Limits] (r : EvaluationReport) (now : Instant) (json : Bool) :
    Answer :=
  if json then
    (r.toJson? now).elim Failure.pathNotText.answer fun j => ⟨r.exitStatus, j.pretty ++ "\n", ""⟩
  else
    ⟨r.exitStatus,
      String.join (r.documents.map fun o =>
        (o.line? (r.documents.length == 1)).elim "" (· ++ "\n")),
      String.join (r.documents.map fun o => o.complaint?.elim "" (· ++ "\n"))⟩

def DocumentOutcome.answer [Limits] (o : DocumentOutcome) (m : Machine) (now : Instant)
    (json : Bool) : Answer :=
  (⟨m, [o]⟩ : EvaluationReport).answer now json

theorem DocumentOutcome.exitStatus_le (o : DocumentOutcome) : o.exitStatus ≤ 2 := by
  unfold exitStatus
  split <;> [omega; (split <;> omega)]

theorem EvaluationReport.exitStatus_eq_max (r : EvaluationReport) (h : r.documents ≠ []) :
    (r.documents.map (·.exitStatus)).max? = some r.exitStatus := by
  rw [List.max?_eq_some_iff, List.forall_mem_map, List.mem_map, EvaluationReport.exitStatus]
  by_cases hfailures : r.documents.any (·.isFailure) = true
  · rw [if_pos hfailures]
    obtain ⟨o, ho, hfailure⟩ := List.any_eq_true.1 hfailures
    exact ⟨⟨o, ho, by rw [DocumentOutcome.exitStatus, if_pos hfailure]⟩,
      fun o _ => o.exitStatus_le⟩
  · rw [if_neg hfailures]
    have hstatus : ∀ o ∈ r.documents, o.exitStatus = if o.isMatch then 0 else 1 := by
      intro o ho
      rw [DocumentOutcome.exitStatus, if_neg fun hfailure =>
        hfailures (List.any_eq_true.2 ⟨o, ho, hfailure⟩)]
    by_cases hmatches : r.documents.all (·.isMatch) = true
    · rw [if_pos hmatches]
      have hzero : ∀ o ∈ r.documents, o.exitStatus = 0 := by
        intro o ho
        rw [hstatus o ho, if_pos (List.all_eq_true.1 hmatches o ho)]
      obtain ⟨o, ho⟩ := List.exists_mem_of_ne_nil _ h
      exact ⟨⟨o, ho, hzero o ho⟩, fun o ho => (hzero o ho).le⟩
    · rw [if_neg hmatches]
      obtain ⟨o, ho, hmatch⟩ : ∃ o ∈ r.documents, ¬ o.isMatch = true := by
        simpa using hmatches
      refine ⟨⟨o, ho, by rw [hstatus o ho, if_neg hmatch]⟩, fun o ho => ?_⟩
      rw [hstatus o ho]
      split <;> omega

theorem EvaluationReport.exitStatus_single (m : Machine) (o : DocumentOutcome) :
    (⟨m, [o]⟩ : EvaluationReport).exitStatus = o.exitStatus := by
  simp [EvaluationReport.exitStatus, DocumentOutcome.exitStatus]

variable [Limits]

theorem EvaluationReport.isSome_toJson? (r : EvaluationReport) (now : Instant) :
    (r.toJson? now).isSome = r.documents.all (·.toJson?.isSome) := by
  have hall : ∀ os : List DocumentOutcome,
      (os.mapM DocumentOutcome.toJson?).isSome = os.all (·.toJson?.isSome) := by
    intro os
    induction os with
    | nil => rfl
    | cons o os ih =>
      rw [List.mapM_cons, List.all_cons, ← ih]
      cases o.toJson? <;> [rfl; (cases os.mapM DocumentOutcome.toJson? <;> rfl)]
  rw [← hall, toJson?]
  cases r.documents.mapM DocumentOutcome.toJson? <;> rfl

theorem EvaluationReport.status_answer (r : EvaluationReport) (now : Instant) (json : Bool) :
    (r.answer now json).status =
      if json && !r.documents.all (·.toJson?.isSome) then 2 else r.exitStatus := by
  rw [← r.isSome_toJson? now]
  cases json with
  | false => rfl
  | true =>
    rw [answer, if_pos rfl]
    cases r.toJson? now <;> rfl

theorem EvaluationReport.status_eq_max (r : EvaluationReport) (now : Instant) (json : Bool)
    (h : r.documents ≠ []) :
    (r.documents.map fun o => (o.answer r.machine now json).status).max? =
      some (r.answer now json).status := by
  have hsingle : ∀ o : DocumentOutcome, (o.answer r.machine now json).status =
      if json && !o.toJson?.isSome then 2 else o.exitStatus := by
    intro o
    rw [DocumentOutcome.answer, status_answer, exitStatus_single]
    simp
  simp only [hsingle, status_answer]
  by_cases hnone : (json && !r.documents.all (·.toJson?.isSome)) = true
  · rw [if_pos hnone, List.max?_eq_some_iff, List.forall_mem_map, List.mem_map]
    obtain ⟨hjson, hsome⟩ := Bool.and_eq_true_iff.1 hnone
    obtain ⟨o, ho, hpath⟩ : ∃ o ∈ r.documents, ¬ o.toJson?.isSome = true := by
      simpa using hsome
    refine ⟨⟨o, ho, by simp [hjson, hpath]⟩, fun o _ => ?_⟩
    split
    · rfl
    · exact o.exitStatus_le
  · rw [if_neg hnone, ← r.exitStatus_eq_max h]
    congr 1
    refine List.map_congr_left fun o ho => if_neg fun hif => hnone ?_
    obtain ⟨hjson, hpath⟩ := Bool.and_eq_true_iff.1 hif
    simp only [hjson, Bool.true_and, Bool.not_eq_true', List.all_eq_false]
    exact ⟨o, ho, by simpa using hpath⟩

theorem DocumentOutcome.status_answer_of_error {o : DocumentOutcome} {e : Failure} (m : Machine)
    (now : Instant) (h : o.result = .error e) : (o.answer m now json).status = 2 := by
  have hstatus : o.exitStatus = 2 := by simp [exitStatus, isFailure, h]
  rw [answer, EvaluationReport.status_answer, EvaluationReport.exitStatus_single, hstatus, ite_self]

theorem DocumentOutcome.errors_answer_of_error {o : DocumentOutcome} {e : Failure} (m : Machine)
    (now : Instant) (h : o.result = .error e) :
    (o.answer m now false).errors = e.answer.errors := by
  simp [answer, EvaluationReport.answer, complaint?, h, Failure.answer, ToString.toString,
    String.join]

end PlatformRules.Console
