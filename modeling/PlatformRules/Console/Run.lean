import PlatformRules.Console.Help
import PlatformRules.Console.Report
import PlatformRules.Document.Format
import PlatformRules.Files.Discovery
import PlatformRules.Host.Probe
import PlatformRules.Log.Documents

/-!
Running a command. What it reads and writes is a value, so that a run is a function of the files,
the environment, the host and the time.
-/

namespace PlatformRules.Console

structure Setting where
  environment : Environment := []
  host : HostProbe
  now : Instant := {}

structure Screen where
  files : FileTree := {}
  output : String := ""
  errors : String := ""

abbrev Work := ExceptT Failure (StateM Screen)

def print (text : String) : Work Unit :=
  modify fun s => { s with output := s.output ++ text }

def complain (text : String) : Work Unit :=
  modify fun s => { s with errors := s.errors ++ text }

inductive Outlet where
  | output
  | errors
  | file (path : Path)
deriving Repr, DecidableEq

def Outlet.ofPath (path : Path) : Outlet :=
  if path = Utf8.encode "/dev/stdout" then output
  else if path = Utf8.encode "/dev/stderr" then errors
  else file path

structure Sink where
  outlet : Outlet
  structured : Bool
  level : LogLevel

def Sink.text (now : Instant) (s : Sink) (e : Event) : String :=
  if s.structured then (e.toJson now.seconds).compact ++ "\n" else e.format ++ "\n"

def Screen.write (s : Screen) (text : String) : Outlet → Screen
  | .output => { s with output := s.output ++ text }
  | .errors => { s with errors := s.errors ++ text }
  | .file path =>
    -- A file that cannot be written any more is left alone.
    match s.files.append path (Utf8.encode text) with
    | .ok files => { s with files }
    | .error _ => s

structure Context where
  setting : Setting
  settings : Settings
  sink : Option Sink

def Context.logEvent (c : Context) (s : Screen) (e : Event) : Screen :=
  match c.sink with
  | none => s
  | some sink =>
    if sink.level.admits e.level then s.write (sink.text c.setting.now e) sink.outlet else s

def Context.log (c : Context) (events : List Event) (s : Screen) : Screen :=
  events.foldl c.logEvent s

def Context.report (c : Context) (events : List Event) : Work Unit :=
  modify (c.log events)

def Context.reportOf (c : Context) (path : Path) (events : List Event) : Work Unit :=
  c.report (events.map (Event.inDocument
    (if c.settings.logging.documentContext then path.display else none)))

def readSettings (environment : Environment) (config : Option Path) : Work Settings := do
  match config with
  | none => return .ofEnvironment environment
  | some path =>
    match (← get).files.readText path with
    | .error e => throw (.settingsUnreadable path e)
    | .ok text =>
      match Settings.ofToml? environment text with
      | some s => return s
      | none => throw .settingsInvalid

def openSink (a : Arguments) (p : LoggingPreferences) : Work (Option Sink) := do
  let structured := p.structured || a.structured
  let level := a.logLevel.getD p.level
  match a.logFile.map Outlet.ofPath with
  | some (.file path) =>
    match (← get).files.addParents path >>= (·.append path []) with
    | .error e => throw (.unwritable path e)
    | .ok files =>
      modify fun s => { s with files }
      return some ⟨.file path, structured, level⟩
  | some outlet => return some ⟨outlet, structured, level⟩
  | none =>
    return if p.console || a.logLevel.isSome then some ⟨.errors, structured, level⟩ else none

def prepare (setting : Setting) (a : Arguments) : Work Context := do
  let settings ← readSettings setting.environment a.config
  return { setting, settings, sink := ← openSink a settings.logging }

def findDocuments (path : Path) : Work (List Path) := do
  match (← get).files.documents path with
  | .error e => throw (.unreadable e.path e.reason)
  | .ok [] => throw (.noDocuments path)
  | .ok paths => return paths

def readDocument (files : FileTree) (path : Path) : Except Failure String :=
  (files.readText path).mapError fun e => .unreadable path e.message

def MachineChoice.over (m : MachineChoice) (base : Machine) : Machine where
  system := m.given.system <|> base.system
  distro := m.given.distro <|> base.distro
  family := m.given.family <|> base.family
  architecture := m.given.architecture <|> base.architecture
  version := m.given.version <|> base.version

variable [Limits]

def chooseMachine (c : Context) (m : MachineChoice) : Work Machine := do
  if m.detect then
    c.report (Event.ofDetection c.setting.host.probe)
    return m.over c.setting.host.detect
  else return m.over {}

def evaluateDocument (preferences : EvaluationPreferences) (m : Machine) (files : FileTree)
    (path : Path) : DocumentOutcome × List Event :=
  match readDocument files path with
  | .error e => (⟨path, .error e⟩, [])
  | .ok document =>
    let e : Evaluator := { document, preferences }
    let (report, after) := e.evaluate m
    let line := if preferences.reportLineNumbers then after.matchedLine else none
    (⟨path, (report.verdict.map (·, line)).mapError (.document path)⟩, Event.ofEvaluation e m)

def evaluateFound (c : Context) (m : Machine) (path : Path) : Work DocumentOutcome := do
  let (outcome, events) := evaluateDocument c.settings.evaluation m (← get).files path
  if c.sink.isSome then c.reportOf path events
  return outcome

def printJson (j : Option Json) : Work Unit :=
  match j with
  | some j => print (j.pretty ++ "\n")
  | none => throw .pathNotText

def printEvaluation (c : Context) (json : Bool) (r : EvaluationReport) : Work Unit := do
  if json then printJson (r.toJson? c.setting.now)
  else
    let single := r.documents.length == 1
    for o in r.documents do
      (o.line? single).forM fun l => print (l ++ "\n")
      o.complaint?.forM fun l => complain (l ++ "\n")

def evaluateEach (c : Context) (paths : List Path) (choice : MachineChoice) (json : Bool) :
    Work Nat := do
  let machine ← chooseMachine c choice
  c.report [(Event.info "Evaluating documents").putAll
    [("count", toString paths.length), ("machine", machine.display)]]
  let report : EvaluationReport := ⟨machine, ← paths.mapM (evaluateFound c machine)⟩
  printEvaluation c json report
  return report.exitStatus

def evaluate (c : Context) (path : Path) (choice : MachineChoice) (json : Bool) : Work Nat := do
  evaluateEach c (← findDocuments path) choice json

def checkDocument (files : FileTree) (path : Path) : CheckedDocument × List Event :=
  match readDocument files path with
  | .error e => (⟨path, .error e.message⟩, [])
  | .ok text => (⟨path, (Document.check text).mapError (·.message)⟩, Event.ofCheck text)

def check (c : Context) (path : Path) (json : Bool) : Work Nat := do
  let paths ← findDocuments path
  let documents ← paths.mapM fun path => do
    let (d, events) := checkDocument (← get).files path
    if c.sink.isSome then c.report events
    return d
  if json then printJson (checkReport? c.setting.now documents)
  else
    for d in documents do
      d.line?.forM fun l => print (l ++ "\n")
      d.complaint?.forM fun l => complain (l ++ "\n")
  return if documents.any (·.isFailure) then 2 else 0

def onDocument {α : Type} (c : Context) (path : Path) (work : String → Except DocumentError α)
    (events : String → List Event) : Work α := do
  match readDocument (← get).files path with
  | .error e => throw e
  | .ok text =>
    if c.sink.isSome then c.report (events text)
    match work text with
    | .error e => throw (.document path e)
    | .ok a => return a

def tokens (c : Context) (path : Path) (json : Bool) : Work Nat := do
  let list ← onDocument c path Document.tokens Event.ofTokens
  if json then print (list.toJson.pretty ++ "\n")
  else print (String.join (list.lines.map tokenLine))
  return 0

def format (c : Context) (path : Path) (write : Bool) : Work Nat := do
  let text ← onDocument c path Document.format Event.ofFormat
  if write then
    match (← get).files.write path (Utf8.encode text) with
    | .error e => throw (.unwritable path e)
    | .ok files => modify fun s => { s with files }
  else print text
  return 0

def host (c : Context) (choice : MachineChoice) (json : Bool) : Work Nat := do
  let m ← chooseMachine c choice
  print ((if json then m.toJson.pretty else m.display) ++ "\n")
  return 0

def runCommand (c : Context) : Command → Work Nat
  | .evaluate path machine json => evaluate c path machine json
  | .check path json => check c path json
  | .tokens path json => tokens c path json
  | .format path write => format c path write
  | .host machine json => host c machine json

def stopWith (e : Failure) : Work Nat := do
  complain s!"error: {e.message}\n"
  return 2

def Arguments.loaded (a : Arguments) : Event :=
  (Event.debug "Runtime configuration loaded").put "config"
    (a.config.elim "<defaults>" Path.display)

def Failure.event (e : Failure) : Event :=
  (Event.error e.code "Command failed").put "error" e.message

def runArguments (setting : Setting) (a : Arguments) : Work Nat := do
  let c ← prepare setting a
  c.report [a.loaded]
  tryCatch (runCommand c a.command) fun e => do
    c.report [e.event]
    throw e

/-- Run the words of a command line: the exit status, and the files and texts after the run. -/
def run (setting : Setting) (files : FileTree) (words : List Word) : Nat × Screen :=
  match read words with
  | .error .version => (0, { files, output := versionText })
  | .error (.help command) => (0, { files, output := help command })
  | .error .nothing => (2, { files, errors := topHelp })
  | .error (.refused message) =>
    (2, { files, errors := s!"error: {message}\n\n{usage none}\n\nFor more information, try '--help'.\n" })
  | .ok a =>
    match (tryCatch (runArguments setting a) stopWith).run { files } with
    | (.ok status, s) => (status, s)
    | (.error _, s) => (2, s)

end PlatformRules.Console
