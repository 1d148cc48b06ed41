import PlatformRules.Evaluation.Evaluator
import PlatformRules.Log.Level
import PlatformRules.Toml.Reader

namespace PlatformRules

structure LoggingPreferences where
  structured : Bool := false
  console : Bool := false
  level : LogLevel := .info
  documentContext : Bool := true
deriving Repr, DecidableEq

structure Settings where
  evaluation : EvaluationPreferences := {}
  logging : LoggingPreferences := {}
deriving Repr, DecidableEq

abbrev Environment := List (String × String)

namespace Settings

def variableNames : List String := [
  "RSML_EVALUATION_TRACE_LINES", "RSML_EVALUATION_LOG_MATCHES",
  "RSML_EVALUATION_REPORT_LINE_NUMBERS", "RSML_LOGGING_USE_STRUCTURED",
  "RSML_LOGGING_ENABLE_CONSOLE", "RSML_LOGGING_MIN_LEVEL",
  "RSML_LOGGING_INCLUDE_DOCUMENT_CONTEXT"]

def boolVariable (env : Environment) (name : String) (default : Bool) : Bool :=
  match env.lookup name with
  | some "true" => true
  | some "false" => false
  | _ => default

def ofEnvironment (env : Environment) : Settings where
  evaluation := {
    traceLines := boolVariable env "RSML_EVALUATION_TRACE_LINES" false
    logMatches := boolVariable env "RSML_EVALUATION_LOG_MATCHES" true
    reportLineNumbers := boolVariable env "RSML_EVALUATION_REPORT_LINE_NUMBERS" true }
  logging := {
    structured := boolVariable env "RSML_LOGGING_USE_STRUCTURED" false
    console := boolVariable env "RSML_LOGGING_ENABLE_CONSOLE" false
    level := ((env.lookup "RSML_LOGGING_MIN_LEVEL").bind LogLevel.parse?).getD .info
    documentContext := boolVariable env "RSML_LOGGING_INCLUDE_DOCUMENT_CONTEXT" true }

def entry {α : Type} (entries : List (String × Toml)) (key : String) (default : α)
    (read : Toml → Option α) : Option α :=
  match entries.lookup key with
  | none => some default
  | some v => read v

def readBool : Toml → Option Bool
  | .bool b => some b
  | _ => none

def readLevel (v : Toml) : Option LogLevel :=
  match v with
  | .str s => LogLevel.ofWord? s
  | v => match v.entries? with
    | some [(key, .array [])] | some [(key, .inline [])] | some [(key, .table _ _ [])] =>
      LogLevel.ofWord? key
    | _ => none

/-- The values of a section by their names. They may also stand in an array, in the order of
`keys`; a date counts as a section without values. -/
def section? (keys : List String) (v : Toml) : Option (List (String × Toml)) :=
  match v with
  | .array items => some (keys.zip items)
  | .date => some []
  | v => v.entries?

def readEvaluation (base : EvaluationPreferences) (v : Toml) : Option EvaluationPreferences := do
  let entries ← section? ["trace_lines", "log_matches", "report_line_numbers"] v
  return {
    traceLines := ← entry entries "trace_lines" base.traceLines readBool
    logMatches := ← entry entries "log_matches" base.logMatches readBool
    reportLineNumbers := ← entry entries "report_line_numbers" base.reportLineNumbers readBool }

def readLogging (base : LoggingPreferences) (v : Toml) : Option LoggingPreferences := do
  let entries ← section? ["use_structured_logging", "enable_console_logging", "min_log_level",
    "include_document_context"] v
  return {
    structured := ← entry entries "use_structured_logging" base.structured readBool
    console := ← entry entries "enable_console_logging" base.console readBool
    level := ← entry entries "min_log_level" base.level readLevel
    documentContext := ← entry entries "include_document_context" base.documentContext readBool }

def ofToml? (env : Environment) (text : String) : Option Settings := do
  let entries ← Toml.parse? text
  let base := ofEnvironment env
  return {
    evaluation := ← entry entries "evaluation" base.evaluation (readEvaluation base.evaluation)
    logging := ← entry entries "logging" base.logging (readLogging base.logging) }

def toJson (s : Settings) : Json := .obj [
  ("evaluation", .obj [
    ("trace_lines", .bool s.evaluation.traceLines),
    ("log_matches", .bool s.evaluation.logMatches),
    ("report_line_numbers", .bool s.evaluation.reportLineNumbers)]),
  ("logging", .obj [
    ("use_structured_logging", .bool s.logging.structured),
    ("enable_console_logging", .bool s.logging.console),
    ("min_log_level", .str s.logging.level.word),
    ("include_document_context", .bool s.logging.documentContext)])]

def errorCode : String := "ERR010"

def limitsSource : String :=
  "Generated from config/development.toml"

def profile : String := "development"

def loggingSummary (bufferSize messageLength : Nat) (p : LoggingPreferences) : String :=
  s!"Logging Configuration ({limitsSource}):\n" ++
  s!"- Log buffer size: {bufferSize}\n" ++
  s!"- Max message length: {messageLength}\n" ++
  s!"- Min log level: {p.level.title}\n" ++
  s!"- Structured logging: {p.structured}\n" ++
  s!"- Console logging: {p.console}\n" ++
  s!"- Include document context: {p.documentContext}"

end Settings

end PlatformRules
