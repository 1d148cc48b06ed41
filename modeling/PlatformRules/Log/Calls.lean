import PlatformRules.Foreign.Call
import PlatformRules.Host.Probe
import PlatformRules.Log.Documents

namespace PlatformRules

namespace Event

variable [Limits]

def ofCallError (function : String) (e : CallError) : Event :=
  (error e.code "Native call failed").putAll [("function", function), ("error", e.message)]

def ofReply {α : Type} (function : String) (r : CallReply α) : List Event :=
  r.error.toList.map (ofCallError function)

def ofNormalizeCall (input output : Option ForeignLine) : List Event :=
  let work := match input, output with
    | some l, some _ =>
      match l.toLine with
      | .ok l => ofCanonical l l.canonical
      | .error _ => []
    | _, _ => []
  work ++ ofReply "rsml_normalize_line" (Foreign.normalize input output)

def ofTokenizeCall (text : ForeignBytes) (output : Option ForeignLine) : List Event :=
  let work := match output, text.toText with
    | some _, .ok text => ofScan (Buffer.ofText text.toList).scanLine.1
    | _, _ => []
  work ++ ofReply "rsml_tokenize_line" (Foreign.tokenize text output)

def ofNewCall (document : ForeignBytes) : List Event :=
  match Foreign.newEvaluator document with
  | .ok _ => []
  | .error e => [ofCallError "rsml_evaluator_new" e]

def ofRegisterCall : Except Foreign.RegisterFailure Evaluator → List Event
  | .ok _ => []
  | .error (.call e) => [ofCallError "rsml_evaluator_register_special_action" e]
  | .error (.rejected name e) =>
    [(error e.code "Special action rejected").putAll [("name", name), ("reason", e.message)]]

def ofEvaluateCall (host : HostProbe) (evaluator : Option Evaluator)
    (machine : Option ForeignMachine) (memory : ForeignBytes) : List Event :=
  let work := match evaluator, machine with
    | none, _ => []
    | some e, none => ofDetection host.probe ++ ofEvaluation e host.detect
    | some e, some f =>
      match f.toMachine with
      | .ok m => ofEvaluation e m
      | .error _ => []
  work ++ ofReply "rsml_evaluator_evaluate"
    (Foreign.evaluate host.detect evaluator machine memory).reply

def ofEvaluateDocumentCall (host : HostProbe) (document memory : ForeignBytes) : List Event :=
  let work := match document.toText with
    | .ok document => ofDetection host.probe ++ ofEvaluation { document } host.detect
    | .error _ => []
  work ++ ofReply "rsml_evaluate_document" (Foreign.evaluateDocument host.detect document memory)

end Event

end PlatformRules
