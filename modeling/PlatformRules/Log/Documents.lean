import PlatformRules.Document.Check
import PlatformRules.Document.Tokens
import PlatformRules.Evaluation.Evaluator
import PlatformRules.Log.Stages

/-!
What is reported while a document is read or evaluated: the events of each line that was reached, in
order, between those that open and close the work. Documents that are too large are reported and
then left alone.
-/

namespace PlatformRules

namespace Event

variable [Limits]

def ofLine (l : SourceLine) : List Event :=
  if l.isBlank then []
  else
    let scanned := Line.ofText l.text
    ofScan scanned ++ match scanned with
      | .ok raw => ofCanonical raw raw.canonical
      | .error _ => []

def ofScannedLine (l : SourceLine) : List Event :=
  if l.isBlank then [] else ofScan (Line.ofText l.text)

def ofEvaluatedLine (preferences : EvaluationPreferences) (l : SourceLine) : List Event :=
  ofLine l ++
    if preferences.traceLines && !l.isBlank then
      match Document.readLine l.text with
      | .ok read => [(debug "Evaluating line").putAll
          [("line", toString l.number), ("leading", (read.line.kind 0).name),
           ("length", toString read.line.length)]]
      | .error _ => []
    else []

def ofSize (size : Nat) : Event :=
  (error (DocumentError.tooLarge size).code "Document exceeds maximum size").putAll
    [("size", toString size), ("limit", toString maxDocumentSize)]

def ofLines (report : SourceLine → List Event) (count : Nat) (text : String) : List Event :=
  let collect (newest : List Event) (l : SourceLine) : Except (List Event) (List Event) :=
    if l.number ≤ count then .ok ((report l).reverse ++ newest) else .error newest
  match Text.foldLines collect text.toList [] with
  | .ok newest => newest.reverse
  | .error newest => newest.reverse

def ofRefusal (report : SourceLine → List Event) (text : String) : DocumentError → List Event
  | .tooLarge size => [ofSize size]
  | .syntaxError line _ => ofLines report line text
  | _ => []

def ofCheck (text : String) : List Event :=
  match Document.check text with
  | .error e => ofRefusal ofLine text e
  | .ok s =>
    ofLines ofLine s.lines text ++
      [(success "I012" "Document checked").putAll
        [("lines", toString s.lines), ("logic_paths", toString s.pathLines)]]

def ofFormat (text : String) : List Event :=
  match Document.check text with
  | .error e => ofRefusal ofLine text e
  | .ok s => ofLines ofLine s.lines text

def ofTokens (text : String) : List Event :=
  match Document.tokens text with
  | .error e => ofRefusal ofScannedLine text e
  | .ok _ => ofLines ofScannedLine text.utf8ByteSize text

def ofVerdict (preferences : EvaluationPreferences) (l : SourceLine) : Verdict → List Event
  | .ok (some value) =>
    if preferences.logMatches then
      [(success "I010" "Document matched").putAll
        [("value", value), ("line", toString l.number)]]
    else []
  | .ok none =>
    if preferences.logMatches then
      [(success "I011" "Document produced no match").put "lines" (toString l.number)]
    else []
  | .error e =>
    [((error e.code e.message).located
      (.ofLine (UInt32.ofNat l.number) l.offset l.length)).put "line" (toString l.number)]

def ofEvaluation (e : Evaluator) (m : Machine) : List Event :=
  let report := (e.evaluate m).1
  match report.verdict with
  | .error (.tooLarge size) => [ofSize size]
  | verdict =>
    let place := report.line.getD ⟨0, 0, []⟩
    let opening := (info "Evaluating document").putAll
      [("bytes", toString e.document.utf8ByteSize), ("machine", m.display)]
    let ended := match report.sightings.getLast? with
      | some s =>
        if s.ended then
          [(debug "Middleware ended evaluation").put "line" (toString s.view.number)]
        else []
      | none => []
    opening :: ofLines (ofEvaluatedLine e.preferences) place.number e.document ++ ended ++
      ofVerdict e.preferences place verdict

end Event

end PlatformRules
