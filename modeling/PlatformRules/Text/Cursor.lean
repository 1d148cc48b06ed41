import PlatformRules.Token.Basic

/-!
Cursors: a text with a place in it, and a pair of texts of which one is active. The place never
splits a character, since a buffer holds the characters on its two sides; every reading step is
`Buffer.advance` by some number of characters.
-/

namespace PlatformRules

structure Buffer where
  -- the nearest first
  before : List Char
  rest : List Char
  position : Nat
  position_eq : position = Text.byteLength before

namespace Buffer

open Text

@[ext] theorem ext {a b : Buffer} (hb : a.before = b.before) (hr : a.rest = b.rest) : a = b := by
  cases a; cases b; simp_all

def ofText (cs : List Char) : Buffer :=
  ⟨[], cs, 0, rfl⟩

def text (b : Buffer) : List Char :=
  b.before.reverse ++ b.rest

def atEnd (b : Buffer) : Bool :=
  b.rest.isEmpty

def advance (b : Buffer) (n : Nat) : Buffer where
  before := (b.rest.take n).reverse ++ b.before
  rest := b.rest.drop n
  position := b.position + byteLength (b.rest.take n)
  position_eq := by simp [b.position_eq, Nat.add_comm]

def seek (b : Buffer) (offset : Nat) : Buffer :=
  let parts := splitWithin offset b.text
  ⟨parts.1.reverse, parts.2, byteLength parts.1, by simp⟩

@[simp] theorem text_advance (b : Buffer) (n : Nat) : (b.advance n).text = b.text := by
  simp [text, advance]

@[simp] theorem text_seek (b : Buffer) (offset : Nat) : (b.seek offset).text = b.text := by
  simp [text, seek]

theorem position_advance (b : Buffer) (n : Nat) :
    (b.advance n).position = b.position + byteLength (b.rest.take n) := rfl

def peek? (b : Buffer) : Option Char :=
  b.rest.head?

def read? (b : Buffer) : Option Char × Buffer :=
  (b.peek?, b.advance 1)

def readChars (b : Buffer) (n : Nat) : ByteRange × Buffer :=
  (⟨b.position, (b.advance n).position⟩, b.advance n)

def skipChars (b : Buffer) (n : Nat) : Nat × Buffer :=
  (byteLength (b.rest.take n), b.advance n)

def rawLine (b : Buffer) : List Char :=
  b.rest.takeWhile (· ≠ '\n')

def lineRest (b : Buffer) : List Char :=
  withoutReturn b.rawLine

def readLine? (b : Buffer) : Option ByteRange × Buffer :=
  if b.atEnd then (none, b)
  else (some ⟨b.position, b.position + byteLength b.lineRest⟩, b.advance (b.rawLine.length + 1))

def countUntil (p : Char → Nat → Bool) (cs : List Char) : Nat :=
  go cs 0
where
  go : List Char → Nat → Nat
    | [], i => i
    | c :: cs, i => if p c i then i + 1 else go cs (i + 1)

def readUntil (b : Buffer) (p : Char → Nat → Bool) : ByteRange × Buffer :=
  b.readChars (countUntil p b.rest)

def isSeparator (acrossLines : Bool) (c : Char) : Bool :=
  isBlank c && (acrossLines || !isLineBreak c)

def readWord (b : Buffer) (acrossLines : Bool) : ByteRange × Buffer :=
  b.readChars (b.rest.takeWhile fun c => !isSeparator acrossLines c).length

def skipBlanks (b : Buffer) (acrossLines : Bool) : Nat × Buffer :=
  b.skipChars (b.rest.takeWhile (isSeparator acrossLines)).length

def skipLineBlanks (b : Buffer) : Nat × Buffer :=
  b.skipChars (b.lineRest.takeWhile isBlank).length

def readToLineEnd (b : Buffer) : ByteRange × Buffer :=
  b.readChars b.lineRest.length

def readToEnd (b : Buffer) : ByteRange × Buffer :=
  b.readChars b.rest.length

end Buffer

inductive Side where
  | primary
  | secondary
deriving Repr, DecidableEq

def Side.other : Side → Side
  | primary => secondary
  | secondary => primary

/-- Two buffers, one of them active. A line of the primary buffer can be staged: copied into the
secondary buffer, where tokens then refer to the copy. -/
structure Cursor where
  primary : Buffer
  secondary : Buffer
  active : Side

namespace Cursor

def ofText (cs : List Char) : Cursor :=
  ⟨.ofText cs, .ofText [], .primary⟩

def buffer (c : Cursor) : Buffer :=
  match c.active with
  | .primary => c.primary
  | .secondary => c.secondary

def setBuffer (c : Cursor) (b : Buffer) : Cursor :=
  match c.active with
  | .primary => { c with primary := b }
  | .secondary => { c with secondary := b }

def run {α : Type} (c : Cursor) (step : Buffer → α × Buffer) : α × Cursor :=
  let (a, b) := step c.buffer
  (a, c.setBuffer b)

def swap (c : Cursor) : Cursor :=
  { c with active := c.active.other }

def setText (c : Cursor) (cs : List Char) : Cursor :=
  c.setBuffer (.ofText cs)

def seek (c : Cursor) (offset : Nat) : Cursor :=
  c.setBuffer (c.buffer.seek offset)

def stage (c : Cursor) (r : ByteRange) : Cursor :=
  { c with secondary := .ofText (r.slice c.primary.text), active := .secondary }

end Cursor

end PlatformRules
