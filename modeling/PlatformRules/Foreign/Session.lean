import PlatformRules.Foreign.Call

namespace PlatformRules

structure Hearing where
  name : Option String
  arguments : List String := []
deriving Repr, DecidableEq

structure ForeignSession where
  evaluator : Option Evaluator
  hearings : List Hearing := []

namespace ForeignSession

def hear (c : Call) : List Hearing → List Hearing
  | [] => []
  | h :: hs =>
    if h.name = some c.name then { h with arguments := c.argument :: h.arguments } :: hs
    else h :: hear c hs

def registered (s : ForeignSession) (name : ForeignBytes)
    (outcome : Except Foreign.RegisterFailure Evaluator) : ForeignSession :=
  match outcome with
  | .error _ => { s with hearings := ⟨none, []⟩ :: s.hearings }
  | .ok e => ⟨some e, ⟨name.untilZero.bind Utf8.decode?, []⟩ :: s.hearings⟩

def evaluated (s : ForeignSession) (r : Foreign.EvaluationReply) : ForeignSession :=
  match r.report with
  | none => s
  | some report => ⟨r.evaluator, report.calls.foldl (fun hs c => hear c hs) s.hearings⟩

def heard (s : ForeignSession) : List (List String) :=
  (s.hearings.map (·.arguments.reverse)).reverse

end ForeignSession

end PlatformRules
