import PlatformRules.Json.Reader
import PlatformRules.Json.Value

namespace PlatformRules

def languageVersion : String := "2.0.0"

inductive Feature where
  | logicPaths
  | specialActions
  | comments
  | whitespace
  | overloads
deriving Repr, DecidableEq

namespace Feature

def all : List Feature :=
  [logicPaths, specialActions, comments, whitespace, overloads]

def name : Feature → String
  | logicPaths => "LogicPaths"
  | specialActions => "SpecialActions"
  | comments => "Comments"
  | whitespace => "WhitespaceManagement"
  | overloads => "OverloadConversion"

def ofName? (s : String) : Option Feature :=
  all.find? fun f => f.name == s

end Feature

inductive Support where
  | none
  | part
  | full
deriving Repr, DecidableEq

namespace Support

def all : List Support :=
  [none, part, full]

def name : Support → String
  | none => "None"
  | part => "Partial"
  | full => "Full"

def ofName? (s : String) : Option Support :=
  all.find? fun l => l.name == s

end Support

structure Compliance where
  version : String
  levels : Feature → Option Support

namespace Compliance

def uniform (version : String) (level : Support) : Compliance :=
  ⟨version, fun _ => some level⟩

def full (version : String) : Compliance :=
  uniform version .full

def none : Compliance :=
  uniform "" .none

def library : Compliance :=
  full languageVersion

def set (c : Compliance) (f : Feature) (level : Support) : Compliance :=
  { c with levels := fun g => if g = f then some level else c.levels g }

def level (c : Compliance) (f : Feature) : Support :=
  (c.levels f).getD .none

def isFull (c : Compliance) : Bool :=
  Feature.all.all fun f => c.level f == .full

def toJson (c : Compliance) : Json :=
  .obj [
    ("specification_version", .str c.version),
    ("levels", .obj (Feature.all.filterMap fun f =>
      (c.levels f).map fun l => (f.name, .str l.name)))]

namespace Reader

open TextReader JsonReader

def named {α : Type} (ofName? : String → Option α) : TextReader α := do
  ofName? (← string)

def support : TextReader Support := do
  if (← peek?) = some '\x7b' then
    discard next
    skipSpace
    let l ← member (named Support.ofName?) (fun l _ => do literal "null"; return l) Support.none
    skipSpace
    literal "\x7d"
    return l
  else named Support.ofName?

def level (key : String) (levels : Feature → Option Support) :
    TextReader (Feature → Option Support) := do
  let f ← Feature.ofName? key
  return ((Compliance.mk "" levels).set f (← support)).levels

structure Fields where
  version : Option String := Option.none
  levels : Option (Feature → Option Support) := Option.none

def field (key : String) (f : Fields) : TextReader Fields := do
  match key with
  | "specification_version" =>
    guard f.version.isNone
    return { f with version := some (← string) }
  | "levels" =>
    guard f.levels.isNone
    return { f with levels := some (← object level fun _ => Option.none) }
  | _ => skip; return f

def item (s : List String × Fields) : TextReader (List String × Fields) :=
  match s with
  | ([], _) => failure
  | (key :: keys, f) => return (keys, ← field key f)

def compliance : TextReader Compliance := do
  let f ← if (← peek?) = some '[' then
      pure (← array item (["specification_version", "levels"], {})).2
    else object field {}
  return ⟨← f.version, ← f.levels⟩

end Reader

def ofJson? (text : String) : Option Compliance :=
  JsonReader.whole Reader.compliance text

end Compliance

end PlatformRules
