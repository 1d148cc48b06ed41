import PlatformRules.Json.Value
import PlatformRules.Limits
import PlatformRules.Log.Code
import PlatformRules.Log.Level
import PlatformRules.Position

namespace PlatformRules

def clampMessage [Limits] (message : String) : String :=
  if message.utf8ByteSize ≤ maxMessageLength then message
  else String.ofList (Text.splitWithin maxMessageLength message.toList).1

def insertKey (key value : String) : List (String × String) → List (String × String)
  | [] => [(key, value)]
  | (k, v) :: rest =>
    if key < k then (key, value) :: (k, v) :: rest
    else if key = k then (key, value) :: rest
    else (k, v) :: insertKey key value rest

structure Event where
  level : LogLevel
  code : String
  message : String
  span : Option Span := none
  context : List (String × String) := []
deriving Repr, DecidableEq

namespace Event

variable [Limits]

def build (level : LogLevel) (code message : String) : Event :=
  { level, code, message := clampMessage message }

def error (code message : String) : Event :=
  build .error code message

def warning (message : String) : Event :=
  build .warning "W000" message

def warningWithCode (code message : String) : Event :=
  build .warning code message

def info (message : String) : Event :=
  build .info "I000" message

def success (code message : String) : Event :=
  build .info code message

def debug (message : String) : Event :=
  build .debug "D000" message

def located (e : Event) (s : Span) : Event :=
  { e with span := some s }

def put (e : Event) (key value : String) : Event :=
  { e with context := insertKey key value e.context }

def putAll (e : Event) (pairs : List (String × String)) : Event :=
  pairs.foldl (fun e p => e.put p.1 p.2) e

def inDocument (document : Option String) (e : Event) : Event :=
  match document with
  | none => e
  | some d => e.put "document" d

def codeInfo (e : Event) : CodeInfo :=
  .ofCode e.code

def format (e : Event) : String :=
  let place := match e.span with
    | none => ""
    | some s => s!" at {s.start.display}"
  let document := match e.context.lookup "document" with
    | none => ""
    | some d => s!" ({d})"
  s!"[{e.level.name}] {e.code} - {e.message}{place}{document}"

def formatDetailed (e : Event) : String :=
  let info := e.codeInfo
  let grade := s!"\n  Category: {info.category}\n  Severity: {info.severity.name}"
  let remedy :=
    if e.level = .error then
      s!"\n  Recoverable: {info.recoverable}\n  Recommended action: {info.advice}"
    else ""
  let context :=
    if e.context.isEmpty then ""
    else "\n  Context:" ++ String.join (e.context.map fun (k, v) => s!"\n    {k}: {v}")
  e.format ++ grade ++ remedy ++ context

def toJson (timestamp : Nat) (e : Event) : Json :=
  let info := e.codeInfo
  let position (p : Position) : Json := .obj [
    ("column", .int p.column.toNat), ("line", .int p.line.toNat), ("offset", .int p.offset)]
  let context : List (String × Json) :=
    if e.context.isEmpty then []
    else [("context", .obj (e.context.map fun (k, v) => (k, .str v)))]
  let metadata : List (String × Json) :=
    if e.level = .error then
      [("error_metadata", .obj [
        ("description", .str info.description),
        ("recommended_action", .str info.advice),
        ("recoverable", .bool info.recoverable),
        ("requires_halt", .bool info.halts)])]
    else []
  let span : List (String × Json) := match e.span with
    | none => []
    | some s => [("span", .obj [("end", position s.stop), ("start", position s.start)])]
  .obj ([("category", .str info.category), ("code", .str e.code)] ++ context ++ metadata ++
    [("level", .str e.level.name), ("message", .str e.message),
     ("severity", .str info.severity.name)] ++ span ++ [("timestamp", .int timestamp)])

end Event

end PlatformRules
