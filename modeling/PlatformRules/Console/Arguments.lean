import PlatformRules.Files.Tree
import PlatformRules.Log.Level
import PlatformRules.Machine
import PlatformRules.Text.Integer

namespace PlatformRules.Console

abbrev Word := List UInt8

def Word.shown (w : Word) : String :=
  Utf8.decodeLeniently w

inductive ValueKind where
  | path
  | text (accepts : String → Bool)

structure OptionSpec where
  name : String
  value : Option String := none
  help : String := ""
  kind : ValueKind := .text fun _ => true

def isVersion (s : String) : Bool :=
  (Text.readInt32? s.toList).isSome

def globalOptions : List OptionSpec := [
  ⟨"config", some "FILE", "Runtime configuration file (TOML)", .path⟩,
  ⟨"log-file", some "FILE", "Write toolchain events to this file", .path⟩,
  ⟨"log-level", some "LOG_LEVEL", "Minimum toolchain event level (error, warning, info, debug)",
    .text fun s => (LogLevel.parse? s).isSome⟩,
  { name := "structured-logs", help := "Emit toolchain events as JSON" }]

def machineOptions : List OptionSpec := [
  { name := "system", value := some "SYSTEM",
    help := "System name (windows, osx, linux, freebsd, or a distro)" },
  { name := "distro", value := some "DISTRO", help := "Linux distribution name" },
  { name := "family", value := some "FAMILY", help := "Linux distribution family" },
  { name := "arch", value := some "ARCH",
    help := "Processor architecture (x64, x86, arm64, arm32, loongarch64)" },
  ⟨"os-version", some "MAJOR", "Major system version", .text isVersion⟩,
  { name := "no-detect", help := "Start from an empty descriptor instead of probing the host" }]

def jsonOption : OptionSpec :=
  { name := "json" }

def writeOption : OptionSpec :=
  { name := "write", help := "Rewrite the file instead of printing" }

structure CommandSpec where
  name : String
  path : Option String
  help : String
  options : List OptionSpec

def commands : List CommandSpec := [
  ⟨"eval", some "PATH", "Evaluate a document, or every document under a directory",
    machineOptions ++ [jsonOption]⟩,
  ⟨"check", some "PATH", "Validate documents without evaluating them", [jsonOption]⟩,
  ⟨"tokens", some "FILE", "Print the raw tokens of every line", [jsonOption]⟩,
  ⟨"format", some "FILE", "Print a document with canonical spacing", [writeOption]⟩,
  ⟨"host", none, "Print the machine descriptor of this host", machineOptions ++ [jsonOption]⟩]

structure Given where
  values : List (String × Word) := []
  path : Option Path := none
deriving Repr, DecidableEq

def Given.value? (g : Given) (name : String) : Option Word :=
  g.values.lookup name

def Given.text? (g : Given) (name : String) : Option String :=
  (g.value? name).bind Utf8.decode?

def Given.has (g : Given) (name : String) : Bool :=
  (g.value? name).isSome

inductive Stop where
  | version
  | help (command : Option String)
  | nothing
  | refused (message : String)
deriving Repr, DecidableEq

structure Level where
  command : Option CommandSpec
  options : List OptionSpec

def Level.top : Level := ⟨none, globalOptions⟩

def Level.ofCommand (c : CommandSpec) : Level := ⟨some c, globalOptions ++ c.options⟩

def dash : UInt8 := 45

def equalsSign : UInt8 := 61

def isLooseValue (w : Word) : Bool :=
  w.head? != some dash || w == [dash]

def takePath (l : Level) (g : Given) (w : Word) : Except Stop Given :=
  let takes := l.command.any (·.path.isSome)
  if !takes || g.path.isSome then .error (.refused s!"unexpected argument '{w.shown}' found")
  else if w = [] then .error (.refused "a value is required but none was supplied")
  else .ok { g with path := some w }

def invalidValue (o : OptionSpec) (value : Word) : Stop :=
  let shown := o.value.getD ""
  .refused s!"invalid value '{value.shown}' for '--{o.name} <{shown}>'"

def refusal? (o : OptionSpec) (value : Word) : Option Stop :=
  match o.kind with
  | .path => if value = [] then some (invalidValue o value) else none
  | .text accepts =>
    match Utf8.decode? value with
    | none => some (.refused "invalid UTF-8 was detected in one or more arguments")
    | some s => if accepts s then none else some (invalidValue o value)

def takeValue (g : Given) (o : OptionSpec) (value : Word) : Except Stop Given :=
  if g.has o.name then .error (.refused s!"the argument '--{o.name}' cannot be used multiple times")
  else match refusal? o value with
    | some stop => .error stop
    | none => .ok { g with values := g.values ++ [(o.name, value)] }

def findOption (l : Level) (word : Word) : Except Stop (OptionSpec × Option Word) :=
  let body := word.drop 2
  let name := body.takeWhile (· != equalsSign)
  let value := match body.dropWhile (· != equalsSign) with
    | _ :: value => some value
    | [] => none
  if name = Utf8.encode "help" && value.isNone then .error (.help (l.command.map (·.name)))
  else if name = Utf8.encode "version" && value.isNone && l.command.isNone then .error .version
  else match l.options.find? (Utf8.encode ·.name == name) with
    | none => .error (.refused s!"unexpected argument '--{Word.shown name}' found")
    | some o => .ok (o, value)

def missingValue (o : OptionSpec) : Stop :=
  let shown := o.value.getD ""
  .refused s!"a value is required for '--{o.name} <{shown}>' but none was supplied"

def unexpectedValue (o : OptionSpec) (value : Word) : Stop :=
  .refused s!"unexpected value '{value.shown}' for '--{o.name}' found; no more were expected"

def readWords (l : Level) (g : Given) : List Word → Except Stop (Given × List Word)
  | [] => .ok (g, [])
  | word :: rest =>
    if word = [dash, dash] then
      (rest.foldlM (takePath l) g).map (·, [])
    else if [dash, dash].isPrefixOf word then do
      let (o, value) ← findOption l word
      match o.value.isSome, value with
      | false, none => readWords l (← takeValue g o []) rest
      | false, some value => .error (unexpectedValue o value)
      | true, some value => readWords l (← takeValue g o value) rest
      | true, none =>
        match rest with
        | value :: rest =>
          if isLooseValue value then readWords l (← takeValue g o value) rest
          else .error (missingValue o)
        | [] => .error (missingValue o)
    else if !isLooseValue word then
      if (Utf8.encode "-h").isPrefixOf word then .error (.help (l.command.map (·.name)))
      else if (Utf8.encode "-V").isPrefixOf word && l.command.isNone then .error .version
      else .error (.refused s!"unexpected argument '{word.shown}' found")
    else if l.command.isNone then .ok (g, word :: rest)
    else do readWords l (← takePath l g word) rest

structure MachineChoice where
  given : Machine := {}
  detect : Bool := true
deriving Repr, DecidableEq

inductive Command where
  | evaluate (path : Path) (machine : MachineChoice) (json : Bool)
  | check (path : Path) (json : Bool)
  | tokens (path : Path) (json : Bool)
  | format (path : Path) (write : Bool)
  | host (machine : MachineChoice) (json : Bool)
deriving Repr, DecidableEq

structure Arguments where
  config : Option Path := none
  logFile : Option Path := none
  logLevel : Option LogLevel := none
  structured : Bool := false
  command : Command
deriving Repr, DecidableEq

def Given.machine (g : Given) : MachineChoice where
  given := {
    system := g.text? "system", distro := g.text? "distro", family := g.text? "family"
    architecture := g.text? "arch"
    version := (g.text? "os-version").bind fun s => Text.readInt32? s.toList }
  detect := !g.has "no-detect"

def Given.command (g : Given) (spec : CommandSpec) : Except Stop Command :=
  let json := g.has "json"
  match spec.name, g.path with
  | "host", _ => .ok (.host g.machine json)
  | "eval", some path => .ok (.evaluate path g.machine json)
  | "check", some path => .ok (.check path json)
  | "tokens", some path => .ok (.tokens path json)
  | "format", some path => .ok (.format path (g.has "write"))
  | _, _ =>
    let shown := spec.path.getD ""
    .error (.refused s!"the following required arguments were not provided: <{shown}>")

/-- A value behind the name of the command goes before one in front of it. -/
def global (outer inner : Given) (name : String) : Option Word :=
  inner.value? name <|> outer.value? name

def unrecognized (name : Word) : Stop :=
  .refused s!"unrecognized subcommand '{name.shown}'"

def helpFor : List Word → Stop
  | [] => .help none
  | name :: rest =>
    match ("help" :: commands.map (·.name)).find? (Utf8.encode · == name) with
    | some topic => if rest.isEmpty then .help (some topic) else unrecognized name
    | none => unrecognized name

def read (words : List Word) : Except Stop Arguments := do
  if words.isEmpty then throw .nothing
  let (outer, rest) ← readWords .top {} words
  match rest with
  | [] => throw (.refused "'rsml' requires a subcommand but one was not provided")
  | name :: rest =>
    if name = Utf8.encode "help" then throw (helpFor rest)
    match commands.find? (Utf8.encode ·.name == name) with
    | none => throw (unrecognized name)
    | some spec =>
      let (inner, _) ← readWords (.ofCommand spec) {} rest
      return {
        config := global outer inner "config"
        logFile := global outer inner "log-file"
        logLevel := ((global outer inner "log-level").bind Utf8.decode?).bind LogLevel.parse?
        structured := outer.has "structured-logs" || inner.has "structured-logs"
        command := ← inner.command spec }

end PlatformRules.Console
