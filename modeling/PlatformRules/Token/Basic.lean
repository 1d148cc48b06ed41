import PlatformRules.Text.Basic

/-!
Tokens: a kind, and the bytes of the source it stands for. A token without bytes is synthetic; it
was put in while a line was completed and has no text of its own.
-/

namespace PlatformRules

inductive Operator where
  | returns
  | throws
deriving Repr, DecidableEq

inductive Comparator where
  | equal
  | notEqual
  | greater
  | less
  | greaterOrEqual
  | lessOrEqual
deriving Repr, DecidableEq

structure ByteRange where
  start : Nat
  stop : Nat
deriving Repr, DecidableEq

namespace ByteRange

def length (r : ByteRange) : Nat :=
  r.stop - r.start

def isEmpty (r : ByteRange) : Bool :=
  r.length == 0

/-- The text in the range; empty if an end lies inside a character or outside the source. -/
def slice (r : ByteRange) (source : List Char) : List Char :=
  if r.stop < r.start then []
  else match Text.splitAt? r.start source with
    | none => []
    | some (_, rest) => match Text.splitAt? (r.stop - r.start) rest with
      | none => []
      | some (part, _) => part

def shift (offset : Nat) (r : ByteRange) : ByteRange :=
  ⟨r.start + offset, r.stop + offset⟩

end ByteRange

namespace Token

inductive Kind where
  | lineEnd
  | textEnd
  | commentSign
  | commentText
  | actionSign
  | actionName
  | actionArgument
  | operator (o : Operator)
  | system
  | architecture
  | version
  | wildcard
  | defined
  | comparator (c : Comparator)
  | value
  | undefined
deriving Repr, DecidableEq

namespace Kind

def all : List Kind :=
  [lineEnd, textEnd, commentSign, commentText, actionSign, actionName, actionArgument,
   operator .returns, operator .throws, system, architecture, version, wildcard, defined,
   comparator .equal, comparator .notEqual, comparator .greater, comparator .less,
   comparator .greaterOrEqual, comparator .lessOrEqual, value, undefined]

def code (k : Kind) : Nat :=
  all.idxOf k

def ofCode? (n : Nat) : Option Kind :=
  all[n]?

theorem mem_all (k : Kind) : k ∈ all := by
  rcases k with _ | _ | _ | _ | _ | _ | _ | o | _ | _ | _ | _ | _ | c | _ | _
  case operator => cases o <;> decide
  case comparator => cases c <;> decide
  all_goals decide

@[simp] theorem ofCode?_code (k : Kind) : ofCode? k.code = some k := by
  simp [ofCode?, code, List.idxOf_lt_length_of_mem (mem_all k)]

def name : Kind → String
  | lineEnd => "Eol"
  | textEnd => "Eof"
  | commentSign => "CommentSymbol"
  | commentText => "CommentText"
  | actionSign => "SpecialActionSymbol"
  | actionName => "SpecialActionName"
  | actionArgument => "SpecialActionArgument"
  | operator .returns => "ReturnOperator"
  | operator .throws => "ThrowErrorOperator"
  | system => "SystemName"
  | architecture => "ArchitectureIdentifier"
  | version => "MajorVersionId"
  | wildcard => "WildcardKeyword"
  | defined => "DefinedKeyword"
  | comparator .equal => "EqualTo"
  | comparator .notEqual => "NotEqualTo"
  | comparator .greater => "GreaterThan"
  | comparator .less => "LessThan"
  | comparator .greaterOrEqual => "GreaterThanOrEqualTo"
  | comparator .lessOrEqual => "LessThanOrEqualTo"
  | value => "LogicPathValue"
  | undefined => "UndefinedToken"

def ofName? (s : String) : Option Kind :=
  all.find? fun k => k.name == s

def isOperator : Kind → Bool
  | operator _ => true
  | _ => false

def isComparator : Kind → Bool
  | comparator _ => true
  | _ => false

def isPlaceholder : Kind → Bool
  | wildcard | defined => true
  | _ => false

def isTerminator : Kind → Bool
  | lineEnd | textEnd => true
  | _ => false

end Kind

end Token

structure Token where
  kind : Token.Kind
  range : Option ByteRange
deriving Repr, DecidableEq

namespace Token

def synthetic (k : Kind) : Token :=
  ⟨k, none⟩

def vacant : Token :=
  synthetic .undefined

def ofBounds (k : Kind) (start stop : Nat) : Token :=
  -- 64 one bits in front of a stop of zero mean that there is no range
  if start = 18446744073709551615 ∧ stop = 0 then synthetic k else ⟨k, some ⟨start, stop⟩⟩

def isSynthetic (t : Token) : Bool :=
  t.range.isNone

def isVacant (t : Token) : Bool :=
  t == vacant

def length (t : Token) : Nat :=
  match t.range with
  | none => 0
  | some r => r.length

def text (source : List Char) (t : Token) : List Char :=
  match t.range with
  | none => []
  | some r => r.slice source

def shift (offset : Nat) (t : Token) : Token :=
  { t with range := t.range.map (·.shift offset) }

def display (t : Token) : String :=
  match t.range with
  | none => s!"{t.kind.name}(synthetic)"
  | some r => s!"{t.kind.name}[{r.start}..{r.stop}]"

end Token

end PlatformRules
