import PlatformRules.Document.Reading
import PlatformRules.Evaluation.Observer
import PlatformRules.LogicPath

/-!
Evaluating a document for a machine. The lines take effect in order until one decides: a path that
matches gives its value or raises it as an error, and actions may end the evaluation. The answer is
the value, or nothing if no path matched.
-/

namespace PlatformRules

structure EvaluationPreferences where
  traceLines : Bool := false
  logMatches : Bool := true
  reportLineNumbers : Bool := true
deriving Repr, DecidableEq

abbrev Selection := Option String

namespace Selection

def display (s : Selection) : String :=
  s.getD "<no match>"

def toJson (s : Selection) : Json :=
  match s with
  | some value => .obj [("result", .str "match"), ("value", .str value)]
  | none => .obj [("result", .str "no_match")]

end Selection

def defaultThrowMessage : String :=
  "Evaluation stopped by @ThrowError"

structure Call where
  name : String
  argument : String
deriving Repr, DecidableEq

structure RunState where
  registry : Registry
  chain : ObserverChain
  line : Option SourceLine := none
  -- the newest first
  calls : List Call := []
  sightings : List Sighting := []

abbrev Verdict := Except DocumentError Selection

namespace Evaluation

abbrev Effect := Option Verdict

def callRegistered (s : RunState) (name argument : String) : Effect × RunState :=
  match s.registry.invoke? name argument with
  | none => (some (.error (.undefinedAction name)), s)
  | some (answer, registry) =>
    let s := { s with registry, calls := ⟨name, argument⟩ :: s.calls }
    match answer with
    | .reply .proceed => (none, s)
    | .reply .stop => (some (.ok none), s)
    | .reply .reset => (none, { s with registry := {} })
    | .reply .error => (some (.error (.actionFailed name Reply.error.code)), s)
    | .unknownCode code => (some (.error (.actionFailed name code)), s)
    | .raised message => (some (.error (.raised message)), s)

def callAction (s : RunState) (name argument : String) : Effect × RunState :=
  if name = Vocabulary.voidAction then (none, s)
  else if name = Vocabulary.throwAction then
    (some (.error (.raised (if argument = "" then defaultThrowMessage else argument))), s)
  else if name = Vocabulary.endAction then (some (.ok none), s)
  else callRegistered s name argument

def followPath (m : Machine) (p : LogicPath) : Effect :=
  if p.isMatch m then
    let value := String.ofList p.value
    match p.operator with
    | .returns => some (.ok (some value))
    | .throws => some (.error (.raised value))
  else none

/-- Let a line take effect, which its number of tokens tells: two for a comment, three for an
action, five or six for a path. -/
def dispatch (m : Machine) (v : LineView) (s : RunState) : Effect × RunState :=
  match v.line.length with
  | 0 | 2 => (none, s)
  | 3 => callAction s (String.ofList (v.tokenText 1)) (String.ofList (v.tokenText 2))
  | 5 | 6 =>
    match LogicPath.ofLine? v.text v.line with
    | some p => (followPath m p, s)
    | none => (none, s)
  | length =>
    if v.line.isComment then (none, s)
    else (some (.error (.syntaxError v.number (.unexpectedShape length))), s)

def showLine (m : Machine) (v : LineView) (s : RunState) : Effect × RunState :=
  let (sightings, chain) := s.chain.run v
  let s := { s with chain, sightings := sightings.reverse ++ s.sightings }
  if sightings.any (·.ended) then (some (.ok none), s) else dispatch m v s

variable [Limits]

def visit (m : Machine) (s : RunState) (l : SourceLine) : Except (Verdict × RunState) RunState :=
  let s := { s with line := some l }
  if l.isBlank then .ok s
  else match Document.readLine l.text with
    | .error e => .error (.error (.syntaxError l.number e), s)
    | .ok read =>
      match showLine m ⟨l.offset, l.number, read.line, l.text⟩ s with
      | (some verdict, s) => .error (verdict, s)
      | (none, s) => .ok s

def run (m : Machine) (text : List Char) (s : RunState) : Verdict × RunState :=
  match Text.foldLines (visit m) text s with
  | .ok s => (.ok none, s)
  | .error ended => ended

end Evaluation

structure Evaluator where
  document : String
  registry : Registry := {}
  chain : ObserverChain := {}
  preferences : EvaluationPreferences := {}
  matchedLine : Option Nat := none

structure Report where
  verdict : Verdict
  calls : List Call := []
  sightings : List Sighting := []
  line : Option SourceLine := none

namespace Evaluator

variable [Limits]

def register (e : Evaluator) (name : String) (c : Callback) :
    Except RegistrationError Evaluator :=
  (e.registry.register name c).map fun registry => { e with registry }

def registerAll (e : Evaluator) : List (String × Callback) → Option RegistrationError × Evaluator
  | [] => (none, e)
  | (name, c) :: rest =>
    match e.register name c with
    | .error cause => (some cause, e)
    | .ok e => e.registerAll rest

def unregister (e : Evaluator) (name : String) : Bool × Evaluator :=
  (e.registry.contains name, { e with registry := e.registry.erase name })

def bind (e : Evaluator) (o : Observer) : Except RegistrationError (Nat × Evaluator) :=
  (e.chain.bind o).map fun (handle, chain) => (handle, { e with chain })

def bindAll (e : Evaluator) (handles : List Nat) :
    List Observer → Option RegistrationError × List Nat × Evaluator
  | [] => (none, handles.reverse, e)
  | o :: os =>
    match e.bind o with
    | .error cause => (some cause, handles.reverse, e)
    | .ok (handle, e) => e.bindAll (handle :: handles) os

def unbind (e : Evaluator) (handle : Nat) : Bool × Evaluator :=
  let (found, chain) := e.chain.unbind handle
  (found, { e with chain })

def evaluate (e : Evaluator) (m : Machine) : Report × Evaluator :=
  let size := e.document.utf8ByteSize
  if size > maxDocumentSize then
    ({ verdict := .error (.tooLarge size) }, { e with matchedLine := none })
  else
    let (verdict, s) := Evaluation.run m e.document.toList
      { registry := e.registry, chain := e.chain }
    let matchedLine := match verdict with
      | .ok (some _) => s.line.map (·.number)
      | _ => none
    ({ verdict, calls := s.calls.reverse, sightings := s.sightings.reverse, line := s.line },
     { e with registry := s.registry, chain := s.chain, matchedLine })

end Evaluator

end PlatformRules
