import PlatformRules.Text.Alphanumeric
import PlatformRules.Text.Integer
import PlatformRules.Token.Basic

namespace PlatformRules

def Operator.symbol : Operator → String
  | .returns => "->"
  | .throws => "!>"

def Operator.ofText? (cs : List Char) : Option Operator :=
  [returns, throws].find? fun o => o.symbol.toList == cs

def Comparator.symbol : Comparator → String
  | .equal => "=="
  | .notEqual => "!="
  | .less => "<"
  | .greater => ">"
  | .lessOrEqual => "<="
  | .greaterOrEqual => ">="

def Comparator.all : List Comparator :=
  [equal, notEqual, less, greater, lessOrEqual, greaterOrEqual]

def Comparator.ofText? (cs : List Char) : Option Comparator :=
  all.find? fun c => c.symbol.toList == cs

namespace Vocabulary

def wildcardWord : String := "any"

def definedWord : String := "defined"

def systems : List String :=
  ["windows", "osx", "linux", "freebsd", "debian", "ubuntu", "archlinux", "fedora"]

def architectures : List String :=
  ["x64", "x86", "arm64", "arm32", "loongarch64"]

def isWordOf (words : List String) (cs : List Char) : Bool :=
  words.any fun w => w.toList == cs.map Char.toLower

def isSystem (cs : List Char) : Bool :=
  isWordOf systems cs

def isArchitecture (cs : List Char) : Bool :=
  isWordOf architectures cs

def version? (cs : List Char) : Option Int32 :=
  Text.readInt32? cs

def voidAction : String := "Void"

def throwAction : String := "ThrowError"

def endAction : String := "EndAll"

def builtInActions : List String :=
  [voidAction, throwAction, endAction]

def isBuiltIn (cs : List Char) : Bool :=
  builtInActions.any fun w => w.toList == cs

def isActionName (cs : List Char) : Bool :=
  !cs.isEmpty && cs.all fun c => Text.isAlphanumeric c || c == '_'

end Vocabulary

namespace Token.Kind

def ofWord (cs : List Char) : Kind :=
  if cs = Vocabulary.wildcardWord.toList then wildcard
  else if cs = Vocabulary.definedWord.toList then defined
  else if Vocabulary.isSystem cs then system
  else if Vocabulary.isArchitecture cs then architecture
  else if (Vocabulary.version? cs).isSome then version
  else match Comparator.ofText? cs with
    | some c => comparator c
    | none => undefined

def ofOperatorWord (cs : List Char) : Kind :=
  match Operator.ofText? cs with
  | some o => operator o
  | none => undefined

def syntheticText? : Kind → Option String
  | wildcard => some Vocabulary.wildcardWord
  | defined => some Vocabulary.definedWord
  | operator o => some o.symbol
  | comparator c => some c.symbol
  | _ => none

def comparatorSymbol? : Kind → Option String
  | comparator c => some c.symbol
  | _ => none

end Token.Kind

end PlatformRules
