import PlatformRules.Evaluation.Action
import PlatformRules.Line.Basic

/-!
Observers of an evaluation. Each line that is about to take effect is shown to the observers in the
order in which they were bound; the first that says so ends the evaluation. An observer decides from
all lines it has been shown.
-/

namespace PlatformRules

structure LineView where
  offset : Nat
  number : Nat
  line : Line
  text : List Char
deriving Repr, DecidableEq

namespace LineView

def tokenText (v : LineView) (index : Nat) : List Char :=
  match v.line.get? index with
  | some t => t.text v.text
  | none => []

end LineView

structure Observer where
  /-- Whether the lines so far, the newest first, are reason to end. -/
  ends : List LineView → Bool
  seen : List LineView := []

structure Sighting where
  handle : Nat
  view : LineView
  ended : Bool
deriving Repr, DecidableEq

structure ObserverChain where
  bound : List (Nat × Observer) := []
  next : Nat := 0

namespace ObserverChain

def size (c : ObserverChain) : Nat :=
  c.bound.length

def bind [Limits] (c : ObserverChain) (o : Observer) :
    Except RegistrationError (Nat × ObserverChain) :=
  if c.size ≥ maxObservers then .error .observerLimit
  else .ok (c.next, ⟨c.bound ++ [(c.next, o)], c.next + 1⟩)

def unbind (c : ObserverChain) (handle : Nat) : Bool × ObserverChain :=
  (c.bound.any (·.1 == handle), { c with bound := c.bound.filter (·.1 != handle) })

/-- Show a line to observers until one ends the evaluation: who was asked, and all of them after
that. -/
def showTo (v : LineView) : List (Nat × Observer) → List Sighting × List (Nat × Observer)
  | [] => ([], [])
  | (handle, o) :: rest =>
    let seen := v :: o.seen
    let ended := o.ends seen
    let (sightings, rest) := if ended then ([], rest) else showTo v rest
    (⟨handle, v, ended⟩ :: sightings, (handle, { o with seen }) :: rest)

def run (c : ObserverChain) (v : LineView) : List Sighting × ObserverChain :=
  let (sightings, bound) := showTo v c.bound
  (sightings, { c with bound })

end ObserverChain

end PlatformRules
