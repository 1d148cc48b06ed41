import PlatformRules.Token.Basic

namespace PlatformRules

def lineCapacity : Nat := 8

structure Line where
  tokens : List Token
  length_le : tokens.length ≤ lineCapacity
deriving Repr, DecidableEq

namespace Line

@[ext] theorem ext {l m : Line} (h : l.tokens = m.tokens) : l = m := by
  cases l; cases m; simp_all

def empty : Line := ⟨[], by decide⟩

instance : Inhabited Line := ⟨empty⟩

def overflowMessage : String :=
  s!"line holds at most {lineCapacity} tokens"

def ofList? (ts : List Token) : Option Line :=
  if h : ts.length ≤ lineCapacity then some ⟨ts, h⟩ else none

def length (l : Line) : Nat :=
  l.tokens.length

def isEmpty (l : Line) : Bool :=
  l.tokens.isEmpty

def isFull (l : Line) : Bool :=
  l.length == lineCapacity

def push? (l : Line) (t : Token) : Option Line :=
  ofList? (l.tokens ++ [t])

def last? (l : Line) : Option Token :=
  l.tokens.getLast?

def pop (l : Line) : Line :=
  ⟨l.tokens.dropLast, by have := l.length_le; simp; omega⟩

def insert? (l : Line) (index : Nat) (t : Token) : Option Line :=
  ofList? (l.tokens.take index ++ t :: l.tokens.drop index)

def erase (l : Line) (index : Nat) : Line :=
  ⟨l.tokens.eraseIdx index, Nat.le_trans (List.length_eraseIdx_le _ _) l.length_le⟩

def get? (l : Line) (index : Nat) : Option Token :=
  l.tokens[index]?

def kind (l : Line) (index : Nat) : Token.Kind :=
  match l.get? index with
  | some t => t.kind
  | none => .undefined

def countKind (l : Line) (k : Token.Kind) : Nat :=
  l.tokens.countP fun t => t.kind == k

def endsLine (l : Line) : Bool :=
  l.last?.any fun t => t.kind == .lineEnd

def isComment (l : Line) : Bool :=
  l.kind 0 == .commentSign

def slots (l : Line) : List Token :=
  l.tokens ++ List.replicate (lineCapacity - l.length) Token.vacant

@[simp] theorem length_slots (l : Line) : l.slots.length = lineCapacity := by
  have := l.length_le
  simp only [slots, length, List.length_append, List.length_replicate]
  omega

def ofSlots (slots : List Token) : Line :=
  ⟨(slots.take lineCapacity).filter fun t => !t.isVacant,
    Nat.le_trans (List.length_filter_le _ _) (List.length_take_le _ _)⟩

end Line

end PlatformRules
