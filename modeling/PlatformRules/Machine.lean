import PlatformRules.Json.Reader
import PlatformRules.Json.Value

namespace PlatformRules

structure Machine where
  system : Option String := none
  distro : Option String := none
  family : Option String := none
  architecture : Option String := none
  version : Option Int32 := none
deriving Repr, DecidableEq

namespace Machine

def linuxName : String := "linux"

def isLinux (m : Machine) : Bool :=
  m.system == some linuxName

def versionText? (m : Machine) : Option String :=
  m.version.map Text.int32Text

def isShortest (ds : List Char) : Bool :=
  ds.head? != some '0' && ds.all Char.isDigit

def isPlainSpelling (literal : List Char) : Bool :=
  match literal with
  | '-' :: ds => ds != ['0'] && isShortest ds
  | ds => ds == ['0'] || isShortest ds

def readsVersion (m : Machine) (literal : List Char) : Bool :=
  match m.version with
  | none => false
  | some v => isPlainSpelling literal && Text.readInt32? literal == some v

def display (m : Machine) : String :=
  let field (s : Option String) := s.getD "-"
  let first := s!"{field m.system} {field m.versionText?} {field m.architecture}"
  if m.distro.isSome || m.family.isSome then
    s!"{first} ({field m.distro}/{field m.family})"
  else first

def toJson (m : Machine) : Json :=
  .obj [
    ("system_name", .ofOption .str m.system),
    ("distro_name", .ofOption .str m.distro),
    ("distro_family", .ofOption .str m.family),
    ("processor_architecture", .ofOption .str m.architecture),
    ("system_version", .ofOption (fun v => .int v.toInt) m.version)]

namespace Reader

open TextReader JsonReader

structure Fields where
  -- the outer option is empty until the key was met
  system : Option (Option String) := none
  distro : Option (Option String) := none
  family : Option (Option String) := none
  architecture : Option (Option String) := none
  version : Option (Option Int32) := none

def Fields.toMachine (f : Fields) : Machine where
  system := f.system.join
  distro := f.distro.join
  family := f.family.join
  architecture := f.architecture.join
  version := f.version.join

def fill {α : Type} (field : Option (Option α)) (read : TextReader α)
    (f : Option (Option α) → Fields) : TextReader Fields := do
  guard field.isNone
  return f (some (← nullable read))

def field (key : String) (f : Fields) : TextReader Fields :=
  match key with
  | "system_name" => fill f.system string fun v => { f with system := v }
  | "distro_name" => fill f.distro string fun v => { f with distro := v }
  | "distro_family" => fill f.family string fun v => { f with family := v }
  | "processor_architecture" => fill f.architecture string fun v => { f with architecture := v }
  | "system_version" => fill f.version int32 fun v => { f with version := v }
  | _ => do skip; return f

def keys : List String :=
  ["system_name", "distro_name", "distro_family", "processor_architecture", "system_version"]

def item (s : List String × Fields) : TextReader (List String × Fields) :=
  match s with
  | ([], _) => failure
  | (key :: keys, f) => return (keys, ← field key f)

def machine : TextReader Machine := do
  if (← peek?) = some '[' then
    let (missing, f) ← array item (keys, {})
    guard missing.isEmpty
    return f.toMachine
  else return (← object field {}).toMachine

end Reader

def ofJson? (text : String) : Option Machine :=
  JsonReader.whole Reader.machine text

end Machine

end PlatformRules
