import PlatformRules.Proofs.Evaluation.Effects

namespace PlatformRules

open Text

namespace Evaluation

variable [Limits]

theorem run_of_line (m : Machine) {cs terminator : List Char} (h : '\n' ∉ cs) (hne : cs ≠ [])
    (hend : terminator = [] ∨ terminator = ['\n']) (s : RunState) :
    run m (cs ++ terminator) s = ending (visit m s ⟨1, 0, withoutReturn cs⟩) := by
  have hlines : lines (cs ++ terminator) = [⟨1, 0, withoutReturn cs⟩] := by
    rcases hend with rfl | rfl
    · rw [List.append_nil, lines_of_not_mem h hne]
    · exact lines_concat h
  rw [run_eq, hlines, List.foldlM_cons]
  cases visit m s ⟨1, 0, withoutReturn cs⟩ with
  | ok s => rfl
  | error ended => rfl

variable {m : Machine} {o : Operator} {f : PathFields}
  {value lead text trail terminator : List Char}

theorem byteLength_line_le {cs : List Char} (hlen : byteLength cs ≤ maxLineLength)
    (hend : terminator = [] ∨ terminator = ['\n']) :
    byteLength (cs ++ terminator) ≤ maxDocumentSize := by
  have hterminator : byteLength terminator ≤ 1 := by
    rcases hend with rfl | rfl <;> decide
  have hshort := Limits.maxLineLength_lt
  rw [byteLength_append]
  omega

theorem run_of_path (hwritten : Written (.path o f value) text) (hlead : IsBlankRun lead)
    (htrail : IsBlankRun trail) (hline : '\n' ∉ lead ++ text ++ trail)
    (hlen : byteLength (lead ++ text ++ trail) ≤ maxLineLength)
    (hend : terminator = [] ∨ terminator = ['\n']) {s : RunState} (hs : s.chain.bound = []) :
    run m (lead ++ text ++ trail ++ terminator) s =
      ending (outcome (followPath m (f.logicPath o value),
        { s with line := some ⟨1, 0, withoutReturn (lead ++ text ++ trail)⟩ })) := by
  have hne : lead ++ text ++ trail ≠ [] := by
    intro hnil
    have htext : text = [] := by simp_all
    exact absurd (hwritten.eq_blank htext) (by simp)
  have hwritten' : Written (.path o f value) (trim (withoutReturn (lead ++ text ++ trail))) := by
    rw [trim_withoutReturn, trim_append hlead htrail, hwritten.trim_path]
    exact hwritten
  have hlen' : byteLength (withoutReturn (withoutReturn (lead ++ text ++ trail))) ≤ maxLineLength :=
    (byteLength_withoutReturn_le _).trans ((byteLength_withoutReturn_le _).trans hlen)
  rw [run_of_line m hline hne hend, visit_of_written hs (fun _ => hlen') hwritten']
  rfl

end Evaluation

namespace Evaluator

open Evaluation

variable {e : Evaluator} {m : Machine} {o : Operator} {f : PathFields}
  {value lead text trail terminator : List Char}

/-- The value of a path, as it was written, is the answer for the machines that the path denotes. -/
theorem evaluate_path [Limits] (hchain : e.chain.bound = [])
    (hwritten : Written (.path o f value) text) (hlead : IsBlankRun lead) (htrail : IsBlankRun trail)
    (hline : '\n' ∉ lead ++ text ++ trail)
    (hlen : byteLength (lead ++ text ++ trail) ≤ maxLineLength)
    (hend : terminator = [] ∨ terminator = ['\n'])
    (hdocument : e.document = String.ofList (lead ++ text ++ trail ++ terminator)) :
    (f.Denotes m → match o with
      | .returns => (e.evaluate m).1.verdict = .ok (some (String.ofList value)) ∧
          (e.evaluate m).2.matchedLine = some 1
      | .throws => (e.evaluate m).1.verdict = .error (.raised (String.ofList value)) ∧
          (e.evaluate m).2.matchedLine = none) ∧
    (¬f.Denotes m → (e.evaluate m).1.verdict = .ok none ∧ (e.evaluate m).2.matchedLine = none) := by
  have hsize : e.document.utf8ByteSize ≤ maxDocumentSize := by
    rw [hdocument, utf8ByteSize_ofList]
    exact byteLength_line_le hlen hend
  have hrun := run_of_path (m := m) (s := e.start) hwritten hlead htrail hline hlen hend hchain
  have hf : f.IsValid := Statement.isLegal_of_written hwritten
  rw [evaluate_of_size hsize, hdocument, String.toList_ofList, hrun]
  constructor
  · intro hm
    rw [followPath_of_denotes hf hm]
    cases o with
    | returns => exact ⟨rfl, rfl⟩
    | throws => exact ⟨rfl, rfl⟩
  · intro hm
    rw [followPath_of_not_denotes hf hm]
    exact ⟨rfl, rfl⟩

theorem evaluate_path_ubuntu :
    let e : Evaluator := { document := String.ofList " ->\tubuntu \"a\"b\" \n".toList }
    (e.evaluate { system := "linux", distro := "ubuntu" }).1.verdict =
        .ok (some (String.ofList "a\"b".toList)) ∧
      (e.evaluate { system := "osx", distro := "ubuntu" }).1.verdict = .ok none := by
  intro e
  have hwritten : Written (.path .returns (.system (.word "ubuntu".toList)) "a\"b".toList)
      (Operator.returns.symbol.toList ++
        ((['\t'] ++ ("ubuntu".toList ++ [])) ++ ([' '] ++ '"' :: ("a\"b".toList ++ ['"'])))) :=
    .path ⟨"ubuntu", by decide, by decide⟩ (.cons (by decide) .nil) (by decide)
  have heval (m : Machine) := evaluate_path (e := e) (m := m) rfl hwritten
    (show IsBlankRun [' '] by decide) (show IsBlankRun [' '] by decide) (by decide) (by decide)
    (.inr rfl) (congrArg String.ofList (by decide))
  have hyes : (PathFields.system (.word "ubuntu".toList)).Denotes
      { system := "linux", distro := "ubuntu" } := .inr ⟨rfl, .inl rfl⟩
  have hno : ¬(PathFields.system (.word "ubuntu".toList)).Denotes
      { system := "osx", distro := "ubuntu" } := by
    rintro (h | ⟨h, -⟩)
    · exact absurd h (by decide)
    · exact absurd h (by decide)
  exact ⟨((heval _).1 hyes).1, ((heval _).2 hno).1⟩

end Evaluator

end PlatformRules
