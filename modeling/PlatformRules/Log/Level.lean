namespace PlatformRules

inductive LogLevel where
  | error
  | warning
  | info
  | debug
deriving Repr, DecidableEq

namespace LogLevel

def all : List LogLevel :=
  [error, warning, info, debug]

def number : LogLevel → Nat
  | error => 0
  | warning => 1
  | info => 2
  | debug => 3

def name : LogLevel → String
  | error => "ERROR"
  | warning => "WARN"
  | info => "INFO"
  | debug => "DEBUG"

def ofName? (s : String) : Option LogLevel :=
  all.find? fun l => l.name == s

def word : LogLevel → String
  | error => "error"
  | warning => "warning"
  | info => "info"
  | debug => "debug"

def ofWord? (s : String) : Option LogLevel :=
  all.find? fun l => l.word == s

def title : LogLevel → String
  | error => "Error"
  | warning => "Warning"
  | info => "Info"
  | debug => "Debug"

def admits (m l : LogLevel) : Bool :=
  l.number ≤ m.number

def parse? (s : String) : Option LogLevel :=
  match String.ofList (s.toList.map Char.toLower) with
  | "error" | "0" => some error
  | "warning" | "warn" | "1" => some warning
  | "info" | "2" => some info
  | "debug" | "3" => some debug
  | _ => none

end LogLevel

end PlatformRules
