import PlatformRules.Line.Canonical
import PlatformRules.Line.Grammar
import PlatformRules.Line.Scan
import PlatformRules.Log.Event

namespace PlatformRules

namespace Event

variable [Limits]

def ofScan : Except ScanError Line → List Event
  | .ok l =>
    [(debug "Line tokenized").putAll
      [("tokens", toString l.length), ("leading", (l.kind 0).name)]]
  | .error (.lineTooLong length) =>
    [(error (ScanError.lineTooLong length).code "Line exceeds maximum length").putAll
      [("length", toString length), ("limit", toString maxLineLength)]]
  | .error .tooManyTokens =>
    [(error ScanError.tooManyTokens.code "Token limit exceeded").put
      "limit" (toString lineCapacity)]

def ofCanonical (l : Line) : Except ShapeError Line → List Event
  | .ok m =>
    [(debug "Line normalized").putAll
      [("leading", (l.kind 0).name), ("length", toString m.length)]]
  | .error _ => []

def ofSequence : Except SequenceError Nat → List Event
  | .ok lines => [(debug "Token buffer validated").put "lines" (toString lines)]
  | .error _ => []

end Event

end PlatformRules
