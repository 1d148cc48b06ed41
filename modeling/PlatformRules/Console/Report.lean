import PlatformRules.Console.Failure
import PlatformRules.Document.Check
import PlatformRules.Document.Tokens
import PlatformRules.Evaluation.Evaluator
import PlatformRules.Text.Instant
import PlatformRules.Text.Quoted

namespace PlatformRules.Console

structure DocumentOutcome where
  path : Path
  result : Except Failure (Selection × Option Nat)

namespace DocumentOutcome

def isMatch (o : DocumentOutcome) : Bool :=
  match o.result with
  | .ok (some _, _) => true
  | _ => false

def isFailure (o : DocumentOutcome) : Bool :=
  match o.result with
  | .error _ => true
  | .ok _ => false

def exitStatus (o : DocumentOutcome) : Nat :=
  if o.isFailure then 2 else if o.isMatch then 0 else 1

variable [Limits]

def toJson? (o : DocumentOutcome) : Option Json := do
  let path ← Utf8.decode? o.path
  let members : List (String × Json) := match o.result with
    | .error e => [("error", .str e.message), ("error_code", .str e.code)]
    | .ok (selection, line) =>
      let line : List (String × Json) := line.toList.map fun n : Nat => ("line", .int n)
      match selection.toJson with
      | .obj members => members ++ line
      | _ => line
  return .obj (("path", .str path) :: members)

def line? (single : Bool) (o : DocumentOutcome) : Option String :=
  match o.result with
  | .error _ => none
  | .ok (some value, line) =>
    if single then some value
    else some (s!"{o.path.display}: {value}" ++ line.elim "" fun n => s!" (line {n})")
  | .ok (none, _) => if single then none else some s!"{o.path.display}: <no match>"

def complaint? (o : DocumentOutcome) : Option String :=
  match o.result with
  | .error e => some s!"error: {e.message}"
  | .ok _ => none

end DocumentOutcome

structure EvaluationReport where
  machine : Machine
  documents : List DocumentOutcome

namespace EvaluationReport

def exitStatus (r : EvaluationReport) : Nat :=
  if r.documents.any (·.isFailure) then 2
  else if r.documents.all (·.isMatch) then 0
  else 1

def toJson? [Limits] (now : Instant) (r : EvaluationReport) : Option Json := do
  let documents ← r.documents.mapM DocumentOutcome.toJson?
  return .obj [
    ("timestamp", .str now.display),
    ("machine", r.machine.toJson),
    ("documents", .arr documents)]

end EvaluationReport

structure CheckedDocument where
  path : Path
  result : Except String Summary

namespace CheckedDocument

def isFailure (d : CheckedDocument) : Bool :=
  match d.result with
  | .error _ => true
  | .ok _ => false

def toJson? (d : CheckedDocument) : Option Json := do
  let path ← Utf8.decode? d.path
  return .obj [("path", .str path), match d.result with
    | .ok s => ("summary", s.toJson)
    | .error message => ("error", .str message)]

def line? (d : CheckedDocument) : Option String :=
  match d.result with
  | .error _ => none
  | .ok s => some (s!"{d.path.display}: ok ({s.pathLines} logic paths, " ++
      s!"{s.actionLines} special actions, {s.commentLines} comments)")

def complaint? (d : CheckedDocument) : Option String :=
  match d.result with
  | .error message => some s!"{d.path.display}: {message}"
  | .ok _ => none

end CheckedDocument

def checkReport? (now : Instant) (documents : List CheckedDocument) : Option Json := do
  let documents ← documents.mapM CheckedDocument.toJson?
  return .obj [("timestamp", .str now.display), ("documents", .arr documents)]

def tokenColumn (source : List Char) (t : Token) : String :=
  if t.kind = .lineEnd then t.kind.name
  else match t.range with
    | none => t.display
    | some _ => t.display ++ " " ++ String.ofList (Text.quoted (t.text source))

def numberColumn (n : Nat) : String :=
  let text := toString n
  String.ofList (List.replicate (4 - text.length) ' ') ++ text

def tokenLine (l : TokenLine) : String :=
  s!"{numberColumn l.number} | " ++ "  ".intercalate (l.line.tokens.map (tokenColumn l.text)) ++ "\n"

end PlatformRules.Console
