import PlatformRules.Line.Canonical

/-!
Lines that are changed in place. The tokens of a line lie in the first of eight slots; what moves
them, moves them inside these slots, and a slot that is given up is cleared.
-/

namespace PlatformRules

structure Slots where
  cells : Vector Token lineCapacity
  taken : Nat
deriving Repr, DecidableEq

namespace Slots

def empty : Slots := ⟨Vector.replicate lineCapacity .vacant, 0⟩

instance : Inhabited Slots := ⟨empty⟩

def isFull (s : Slots) : Bool :=
  s.taken == lineCapacity

def tokens (s : Slots) : List Token :=
  s.cells.toList.take s.taken

def get? (s : Slots) (index : Nat) : Option Token :=
  if index < s.taken then s.cells[index]? else none

def last? (s : Slots) : Option Token :=
  s.get? (s.taken - 1)

def kind (s : Slots) (index : Nat) : Token.Kind :=
  match s.get? index with
  | some t => t.kind
  | none => .undefined

def endsLine (s : Slots) : Bool :=
  s.last?.any fun t => t.kind == .lineEnd

/-- Put the cells from `start` up to `stop` where `target` and the cells behind it are. The two
parts may overlap: what is put there is what the cells were before. -/
def copied (cells : Vector Token lineCapacity) (start stop target : Nat) :
    Vector Token lineCapacity :=
  Vector.ofFn fun i =>
    if target ≤ i ∧ i < target + (stop - start) then
      cells[start + (i - target)]?.getD .vacant
    else cells[i]

def push? (s : Slots) (t : Token) : Option Slots :=
  if s.isFull then none else some ⟨s.cells.setIfInBounds s.taken t, s.taken + 1⟩

def pop (s : Slots) : Option Token × Slots :=
  if s.taken = 0 then (none, s)
  else (s.cells[s.taken - 1]?, ⟨s.cells.setIfInBounds (s.taken - 1) .vacant, s.taken - 1⟩)

def insert? (s : Slots) (index : Nat) (t : Token) : Option Slots :=
  if s.isFull then none
  else
    let index := min index s.taken
    some ⟨(copied s.cells index s.taken (index + 1)).setIfInBounds index t, s.taken + 1⟩

def erase (s : Slots) (index : Nat) : Option Token × Slots :=
  if s.taken ≤ index then (none, s)
  else (s.cells[index]?,
    ⟨(copied s.cells (index + 1) s.taken index).setIfInBounds (s.taken - 1) .vacant, s.taken - 1⟩)

def ofList? (ts : List Token) : Option Slots :=
  ts.foldlM push? empty

def ofCells (cells : Vector Token lineCapacity) : Slots :=
  (cells.toList.filter fun t => !t.isVacant).foldl
    (fun s t => ⟨s.cells.setIfInBounds s.taken t, s.taken + 1⟩) empty

/-! Canonical form, the end of the line apart. -/

def completeComment? (s : Slots) : Option Slots :=
  match s.taken with
  | 1 => s.push? (.synthetic .commentText)
  | 2 => some s
  | _ => none

def completeAction? (s : Slots) : Option Slots :=
  match s.taken with
  | 2 => s.push? (.synthetic .actionArgument)
  | 3 => some s
  | _ => none

def wildcardPlaces? : Nat → Option (List Nat)
  | 1 => some []
  | 2 => some [1, 1, 1]
  | 3 => some [2, 2]
  | 4 => some [2]
  | 5 | 6 => some []
  | _ => none

def addWildcards? (s : Slots) (places : List Nat) : Option Slots :=
  places.foldlM (fun s index => s.insert? index Canonical.wildcard) s

def completePath? (s : Slots) : Option Slots :=
  (wildcardPlaces? s.taken).bind s.addWildcards?

def rule? : Token.Kind → Option (Slots → Option Slots)
  | .commentSign => some completeComment?
  | .actionSign => some completeAction?
  | .operator _ => some completePath?
  | _ => none

def reshape (s : Slots) (leading : Token.Kind) (rule : Slots → Option Slots) :
    Except ShapeError Slots :=
  match (rule (if s.endsLine then s.pop.2 else s)).bind (·.push? (.synthetic .lineEnd)) with
  | some s' => .ok s'
  | none => .error (.malformed leading s.taken)

def shaped (s : Slots) (leading : Token.Kind) : Except ShapeError Slots :=
  if leading.isTerminator then .ok s
  else match rule? leading with
    | none => .error (.unexpectedLeading leading)
    | some rule => s.reshape leading rule

def normalize (s : Slots) : Except ShapeError Nat × Slots :=
  match s.get? 0 with
  | none => (.error .emptyLine, s)
  | some first =>
    match s.shaped first.kind with
    | .ok s' => (.ok s'.taken, s')
    | .error e => (.error e, empty)

def isCanonical (s : Slots) : Bool :=
  match s.normalize with
  | (.ok _, s') => s' == s
  | (.error _, _) => false

end Slots

end PlatformRules
