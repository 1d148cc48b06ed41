/-!
Regular expressions in which only classes of characters are repeated. Where a text can be matched in
more than one way, the ways have an order: a greedy repetition tries the longest run first, a lazy
one the shortest. The first way is the one that is taken.
-/

namespace PlatformRules.Text

inductive Expression where
  | lineStart
  | lineEnd
  | one (p : Char → Bool)
  | most (p : Char → Bool)
  | least (p : Char → Bool)
  | group (e : Expression)
  | seq (e f : Expression)

structure Way where
  taken : List Char
  groups : List (List Char)
  rest : List Char
deriving Repr, DecidableEq

namespace Way

def keep (w : Way) : Way :=
  { w with groups := w.taken :: w.groups }

def followedBy (v w : Way) : Way :=
  ⟨v.taken ++ w.taken, v.groups ++ w.groups, w.rest⟩

end Way

def runs (p : Char → Bool) : List Char → List Way
  | [] => [⟨[], [], []⟩]
  | c :: cs =>
    if p c then (runs p cs).map (fun w => ⟨c :: w.taken, [], w.rest⟩) ++ [⟨[], [], c :: cs⟩]
    else [⟨[], [], c :: cs⟩]

namespace Expression

def isEdge (c : Option Char) : Bool :=
  c.all (· == '\n')

def ways : Expression → Option Char → List Char → List Way
  | lineStart, prev, cs => if isEdge prev then [⟨[], [], cs⟩] else []
  | lineEnd, _, cs => if isEdge cs.head? then [⟨[], [], cs⟩] else []
  | one _, _, [] => []
  | one p, _, c :: cs => if p c then [⟨[c], [], cs⟩] else []
  | most p, _, cs => runs p cs
  | least p, _, cs => (runs p cs).reverse
  | group e, prev, cs => (e.ways prev cs).map Way.keep
  | seq e f, prev, cs =>
    (e.ways prev cs).flatMap fun v => (f.ways (v.taken.getLast?.or prev) v.rest).map v.followedBy

def first? (e : Expression) (prev : Option Char) (cs : List Char) : Option Way :=
  (e.ways prev cs).head?

/-- The matches in a text from left to right. Each starts behind the one before it, at the first
place where there is one; a match of nothing is passed over. -/
def occurrencesFrom (e : Expression) (prev : Option Char) (cs : List Char) : List Way :=
  match _hw : (e.first? prev cs).filter fun w => w.rest.length < cs.length with
  | some w => w :: e.occurrencesFrom w.taken.getLast? w.rest
  | none => match cs with
    | [] => []
    | c :: cs => e.occurrencesFrom (some c) cs
termination_by cs.length
decreasing_by
  · simpa using (Option.filter_eq_some_iff.1 _hw).2
  · simp

def occurrences (e : Expression) (cs : List Char) : List Way :=
  e.occurrencesFrom none cs

end Expression

end PlatformRules.Text
