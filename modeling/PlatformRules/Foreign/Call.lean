import PlatformRules.Compliance
import PlatformRules.Evaluation.Evaluator
import PlatformRules.Foreign.Layout

/-!
The calls that foreign code makes. Each gives a status, and changes the caller's memory only if it
succeeds. What the calls do is said by functions that fail with a `CallError`; a reply turns their
outcome into what the caller sees.
-/

namespace PlatformRules

structure CallReply (α : Type) where
  status : Int
  memory : α
  error : Option CallError := none

namespace CallReply

def ofResult {α : Type} (failure : CallError → Int) (memory : α) :
    Except CallError (Int × α) → CallReply α
  | .ok (status, memory) => { status, memory }
  | .error e => { status := failure e, memory, error := some e }

end CallReply

namespace Foreign

def normalizeResult (input output : Option ForeignLine) :
    Except CallError (Int × Option ForeignLine) := do
  let some line := input | throw .nullPointer
  if output.isNone then throw .nullPointer
  let canonical ← (← line.toLine).canonical.mapError .shape
  return (0, some (.ofLine canonical))

def normalize (input output : Option ForeignLine) : CallReply (Option ForeignLine) :=
  .ofResult CallError.lineStatus output (normalizeResult input output)

variable [Limits]

def tokenizeResult (text : ForeignBytes) (output : Option ForeignLine) :
    Except CallError (Int × Option ForeignLine) := do
  if output.isNone then throw .nullPointer
  let source ← text.toText
  let line ← (Buffer.ofText source.toList).scanLine.1.mapError .scan
  return (line.length, some (.ofLine line))

def tokenize (text : ForeignBytes) (output : Option ForeignLine) :
    CallReply (Option ForeignLine) :=
  .ofResult CallError.lineStatus output (tokenizeResult text output)

/-- A selected value goes to the buffer, closed by a zero byte, and the status is 1; it is 0, and
the buffer is left alone, if nothing was selected. -/
def writeVerdict (verdict : Verdict) (memory : ForeignBytes) :
    Except CallError (Int × ForeignBytes) :=
  match verdict with
  | .error e => .error (.document e)
  | .ok none => .ok (0, memory)
  | .ok (some value) => (memory.write (Utf8.encode value) true).map ((1, ·))

def evaluateDocument (host : Machine) (document memory : ForeignBytes) :
    CallReply ForeignBytes :=
  .ofResult CallError.evaluationStatus memory do
    let document ← document.toText
    let e : Evaluator := { document }
    writeVerdict (e.evaluate host).1.verdict memory

def newEvaluator (document : ForeignBytes) : Except CallError Evaluator := do
  return { document := ← document.toText }

structure EvaluationReply where
  reply : CallReply ForeignBytes
  report : Option Report := none
  evaluator : Option Evaluator

def machineOr (host : Machine) : Option ForeignMachine → Except CallError Machine
  | none => .ok host
  | some f => f.toMachine

/-- Evaluate for a given machine. The evaluator keeps what its actions changed even if the value
does not fit the buffer. -/
def evaluate (host : Machine) (evaluator : Option Evaluator) (machine : Option ForeignMachine)
    (memory : ForeignBytes) : EvaluationReply :=
  let ended (r : Except CallError (Int × ForeignBytes)) :=
    CallReply.ofResult CallError.evaluationStatus memory r
  match evaluator with
  | none => { reply := ended (.error .nullPointer), evaluator }
  | some e =>
    match machineOr host machine with
    | .error cause => { reply := ended (.error cause), evaluator }
    | .ok m =>
      let (report, e) := e.evaluate m
      { reply := ended (writeVerdict report.verdict memory), report := some report,
        evaluator := some e }

inductive RegisterFailure where
  | call (e : CallError)
  | rejected (name : String) (e : RegistrationError)

def RegisterFailure.status : RegisterFailure → Int
  | call .nullPointer => -1
  | rejected .. => -2
  | call _ => -3

def register (evaluator : Option Evaluator) (name : ForeignBytes) (callback : Option Callback) :
    Except RegisterFailure Evaluator := do
  let some e := evaluator | throw (.call .nullPointer)
  let some c := callback | throw (.call .nullPointer)
  let name ← name.untilZero.toText.mapError .call
  (e.register name c).mapError (.rejected name)

def actionCount (evaluator : Option Evaluator) : Int :=
  match evaluator with
  | none => -1
  | some e => e.registry.size

def apiVersion : String := "2.1.0"

def authorName : String := "OceanApocalypseStudios"

def copyText (text : String) (memory : ForeignBytes) : CallReply ForeignBytes :=
  let bytes := Utf8.encode text
  .ofResult CallError.evaluationStatus memory ((memory.write bytes false).map (bytes.length, ·))

end Foreign

end PlatformRules
