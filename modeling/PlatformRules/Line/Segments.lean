import PlatformRules.Line.Grammar

namespace PlatformRules

namespace Grammar

structure Checked where
  lines : Nat
  start : Nat
deriving Repr, DecidableEq

namespace Checked

variable (source : List Char) (ts : List Token)

def upTo (c : Checked) (stop : Nat) : Except SequenceError Checked :=
  match checkSegment source (ts.extract c.start stop) with
  | .ok _ => .ok ⟨c.lines + 1, stop⟩
  | .error error => .error ⟨c.lines, error⟩

def throughEnds : List (Token × Nat) → Checked → Except SequenceError Checked
  | [], c => .ok c
  | (t, place) :: rest, c =>
    match t.kind with
    | .lineEnd => do throughEnds rest (← c.upTo source ts (place + 1))
    | .textEnd => .ok c
    | _ => throughEnds rest c

def toEnd (c : Checked) : Except SequenceError Checked :=
  let stop := ts.findIdx fun t => t.kind == .textEnd
  if c.start < stop then c.upTo source ts stop else .ok c

end Checked

def checkInPlace (source : List Char) (ts : List Token) : Except SequenceError Nat := do
  let c ← Checked.throughEnds source ts ts.zipIdx ⟨0, 0⟩
  Checked.lines <$> c.toEnd source ts

end Grammar

end PlatformRules
