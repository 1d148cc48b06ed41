import PlatformRules.Line.Basic

/-!
Canonical lines. The five forms of a logic path have one layout, with wildcards for the fields that
were left out; comments get a text and actions an argument. Only the kinds of the tokens count, and
what is added is synthetic.
-/

namespace PlatformRules

inductive ShapeError where
  | emptyLine
  | malformed (leading : Token.Kind) (length : Nat)
  | unexpectedLeading (kind : Token.Kind)
deriving Repr, DecidableEq

namespace ShapeError

def name : ShapeError → String
  | emptyLine => "EmptyLine"
  | malformed .. => "MalformedShape"
  | unexpectedLeading _ => "UnexpectedLeadingToken"

def message : ShapeError → String
  | emptyLine => "Cannot normalize an empty line"
  | malformed leading length =>
    s!"Malformed {leading.name} line: {length} tokens has no canonical shape"
  | unexpectedLeading kind => s!"Line cannot start with {kind.name}"

def code : ShapeError → String
  | emptyLine => "E030"
  | malformed .. => "E031"
  | unexpectedLeading _ => "E032"

end ShapeError

namespace Canonical

def pathLength : Nat := 5

def comparedPathLength : Nat := 6

def wildcard : Token := .synthetic .wildcard

def comment? : List Token → Option (List Token)
  | [sign] => some [sign, .synthetic .commentText]
  | [sign, text] => some [sign, text]
  | _ => none

def action? : List Token → Option (List Token)
  | [sign, name] => some [sign, name, .synthetic .actionArgument]
  | [sign, name, argument] => some [sign, name, argument]
  | _ => none

/-- Wildcards stand for the fields that a path leaves out. A lone operator stays as it is. -/
def path? : List Token → Option (List Token)
  | [op] => some [op]
  | [op, value] => some [op, wildcard, wildcard, wildcard, value]
  | [op, system, value] => some [op, system, wildcard, wildcard, value]
  | [op, system, arch, value] => some [op, system, wildcard, arch, value]
  | [op, system, version, arch, value] => some [op, system, version, arch, value]
  | [op, system, comparator, version, arch, value] =>
    some [op, system, comparator, version, arch, value]
  | _ => none

def rule? : Token.Kind → Option (List Token → Option (List Token))
  | .commentSign => some comment?
  | .actionSign => some action?
  | .operator _ => some path?
  | _ => none

theorem length_of_comment? {ts us : List Token} (h : comment? ts = some us) :
    us.length = 2 := by
  unfold comment? at h
  split at h <;> simp at h <;> subst h <;> rfl

theorem length_of_action? {ts us : List Token} (h : action? ts = some us) : us.length = 3 := by
  unfold action? at h
  split at h <;> simp at h <;> subst h <;> rfl

theorem length_of_path? {ts us : List Token} (h : path? ts = some us) :
    us.length = 1 ∨ us.length = pathLength ∨ us.length = comparedPathLength := by
  unfold path? at h
  split at h <;> simp at h <;> subst h <;> simp [pathLength, comparedPathLength]

theorem length_of_rule? {k : Token.Kind} {f : List Token → Option (List Token)}
    {ts us : List Token} (hf : rule? k = some f) (h : f ts = some us) : us.length < lineCapacity := by
  unfold rule? at hf
  split at hf <;> simp at hf <;> subst hf
  · rw [length_of_comment? h]; decide
  · rw [length_of_action? h]; decide
  · rcases length_of_path? h with h | h | h <;> rw [h] <;> decide

end Canonical

namespace Line

def content (l : Line) : List Token :=
  if l.endsLine then l.tokens.dropLast else l.tokens

def canonical (l : Line) : Except ShapeError Line :=
  match l.tokens.head? with
  | none => .error .emptyLine
  | some first =>
    if first.kind.isTerminator then .ok l
    else match _hf : Canonical.rule? first.kind with
      | none => .error (.unexpectedLeading first.kind)
      | some f => match h : f l.content with
        | none => .error (.malformed first.kind l.length)
        | some ts => .ok ⟨ts ++ [.synthetic .lineEnd], by
            have := Canonical.length_of_rule? _hf h; simp; omega⟩

def isCanonical (l : Line) : Bool :=
  match l.canonical with
  | .ok m => m == l
  | .error _ => false

end Line

end PlatformRules
