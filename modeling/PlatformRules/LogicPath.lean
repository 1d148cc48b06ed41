import PlatformRules.Line.Basic
import PlatformRules.Machine
import PlatformRules.Token.Vocabulary

/-!
Logic paths: which machines they match. A field matches every machine, the machines that have the
field, or those with one text in it. On Linux a system may also be named by its distribution or the
family of that, and the system counts as defined if the distribution is known.
-/

namespace PlatformRules

inductive Pattern where
  | any
  | defined
  | word (text : List Char)
deriving Repr, DecidableEq

namespace Pattern

def ofToken (source : List Char) (t : Token) : Pattern :=
  match t.kind with
  | .wildcard => any
  | .defined => defined
  | _ => word (t.text source)

def holds (p : Pattern) (field : Option String) : Bool :=
  match p with
  | any => true
  | defined => field.isSome
  | word text => field == some (String.ofList text)

def holdsSystem (p : Pattern) (m : Machine) : Bool :=
  if m.isLinux then
    match p with
    | any => true
    | defined => m.distro.isSome
    | word _ => p.holds m.system || p.holds m.distro || p.holds m.family
  else p.holds m.system

def holdsVersion (p : Pattern) (m : Machine) : Bool :=
  match p with
  | any => true
  | defined => m.version.isSome
  | word text => m.readsVersion text

end Pattern

/-- Compare the version of a machine with a literal: for equality as text, for order as numbers.
Without a version, or without a number to compare it with, only inequality holds. -/
def Comparator.holds (c : Comparator) (m : Machine) (literal : List Char) : Bool :=
  let ordered (test : Int32 → Int32 → Bool) : Bool :=
    match m.version, Vocabulary.version? literal with
    | some v, some n => test v n
    | _, _ => false
  match c with
  | .equal => m.readsVersion literal
  | .notEqual => !m.readsVersion literal
  | .less => ordered fun v n => v < n
  | .greater => ordered fun v n => n < v
  | .lessOrEqual => ordered fun v n => v ≤ n
  | .greaterOrEqual => ordered fun v n => n ≤ v

inductive VersionTest where
  | plain (p : Pattern)
  | compared (c : Option Comparator) (literal : List Char)
deriving Repr, DecidableEq

namespace VersionTest

def compare (source : List Char) (comparator literal : Token) : VersionTest :=
  let text := literal.text source
  match comparator.kind with
  | .comparator c => compared (some c) text
  | _ => compared none text

def isCompared : VersionTest → Bool
  | plain _ => false
  | compared .. => true

def holds (t : VersionTest) (m : Machine) : Bool :=
  match t with
  | plain p => p.holdsVersion m
  | compared none _ => false
  | compared (some c) literal => c.holds m literal

end VersionTest

structure LogicPath where
  operator : Operator
  system : Pattern
  version : VersionTest
  architecture : Pattern
  value : List Char
deriving Repr, DecidableEq

namespace LogicPath

def ofTokens? (source : List Char) : List Token → Option LogicPath
  | [op, system, version, arch, value] =>
    build op system (.plain (.ofToken source version)) arch value
  | [op, system, comparator, version, arch, value] =>
    build op system (.compare source comparator version) arch value
  | _ => none
where
  build (op system : Token) (version : VersionTest) (arch value : Token) : Option LogicPath :=
    match op.kind with
    | .operator operator => some {
        operator
        system := .ofToken source system
        version
        architecture := .ofToken source arch
        value := value.text source }
    | _ => none

def ofLine? (source : List Char) (l : Line) : Option LogicPath :=
  ofTokens? source l.tokens

def isMatch (p : LogicPath) (m : Machine) : Bool :=
  p.system.holdsSystem m && p.version.holds m && p.architecture.holds m.architecture

end LogicPath

end PlatformRules
