import PlatformRules.Text.Cursor

/-!
Texts with a mark in them, and pairs of them of which one is active. The mark is a byte offset, and
nothing keeps it from standing inside a character or behind the text; what looks at the text from the
mark on, or at a part of it, fails unless the mark and the ends of the part are boundaries of
characters. What is done to the mark is arithmetic with lengths in bytes.
-/

namespace PlatformRules

namespace Text

def isBoundary (offset : Nat) (cs : List Char) : Bool :=
  (splitAt? offset cs).isSome

def from? (offset : Nat) (cs : List Char) : Option (List Char) :=
  (splitAt? offset cs).map (·.2)

def cut? (start stop : Nat) (cs : List Char) : Option (List Char) :=
  if stop < start then none
  else (from? start cs).bind fun rest => (splitAt? (stop - start) rest).map (·.1)

def find? (p : Char → Bool) : List Char → Option Nat
  | [] => none
  | c :: cs => if p c then some 0 else (find? p cs).map (c.utf8Size + ·)

def snap (cs : List Char) : Nat → Nat
  | 0 => 0
  | offset + 1 => if isBoundary (offset + 1) cs then offset + 1 else snap cs offset

def lineBytes (cs : List Char) : Nat × Nat :=
  match find? (· == '\n') cs with
  | some n => (n, n + 1)
  | none => (byteLength cs, byteLength cs)

def firstLine? (cs : List Char) : Option (List Char) :=
  match find? (· == '\n') cs with
  | some n => cut? 0 n cs
  | none => some cs

def bytesUntil (p : Char → Nat → Bool) (cs : List Char) : Nat :=
  go cs 0 0
where
  go : List Char → Nat → Nat → Nat
    | [], _, passed => passed
    | c :: cs, index, passed =>
      if p c index then passed + c.utf8Size else go cs (index + 1) (passed + c.utf8Size)

end Text

inductive Reading where
  | char
  | chars (n : Nat)
  | line
  /-- Read up to the first character that satisfies `p`, which is told how many were read before. What
  a predicate with a state of its own answers along a text is such a `p`. -/
  | upTo (p : Char → Nat → Bool)
  | word (acrossLines : Bool)
  | blanks (acrossLines : Bool)
  | lineBlanks
  | toLineEnd
  | toEnd

inductive CursorStep where
  | peek
  | reading (r : Reading)
  | swap
  | setText (cs : List Char)
  | seek (offset : Nat)
  | stage (r : ByteRange)

inductive CursorAnswer where
  | done
  | char (c : Option Char)
  | range (r : Option ByteRange)
  | count (n : Nat)
deriving Repr, DecidableEq

structure Marked where
  text : List Char
  mark : Nat
deriving Repr, DecidableEq

namespace Marked

open Text

def ofText (cs : List Char) : Marked :=
  ⟨cs, 0⟩

def atEnd (m : Marked) : Bool :=
  byteLength m.text ≤ m.mark

def rest? (m : Marked) : Option (List Char) :=
  from? m.mark m.text

def lineRest? (m : Marked) : Option (List Char) :=
  (m.rest?.bind firstLine?).map withoutReturn

def moved (m : Marked) (n : Nat) : Marked :=
  { m with mark := m.mark + n }

def pass (m : Marked) (n : Nat) : CursorAnswer × Marked :=
  (.range (some ⟨m.mark, m.mark + n⟩), m.moved n)

def skip (m : Marked) (n : Nat) : CursorAnswer × Marked :=
  (.count n, m.moved n)

def peek? (m : Marked) : Option (Option Char) :=
  m.rest?.map (·.head?)

def readChar? (m : Marked) : Option (CursorAnswer × Marked) :=
  m.peek?.map fun
    | some c => (.char (some c), m.moved c.utf8Size)
    | none => (.char none, m)

def readLine? (m : Marked) : Option (CursorAnswer × Marked) :=
  if m.atEnd then some (.range none, m)
  else do
    let rest ← m.rest?
    let (length, passed) := lineBytes rest
    let line ← cut? m.mark (m.mark + length) m.text
    let stop :=
      if line.getLast? = some '\r' then m.mark + length - 1 else m.mark + length
    return (.range (some ⟨m.mark, stop⟩), m.moved passed)

def perform? (m : Marked) : Reading → Option (CursorAnswer × Marked)
  | .char => m.readChar?
  | .chars n => m.rest?.map fun rest => m.pass (byteLength (rest.take n))
  | .line => m.readLine?
  | .upTo p => m.rest?.map fun rest => m.pass (bytesUntil p rest)
  | .word acrossLines => m.rest?.map fun rest =>
    m.pass ((find? (Buffer.isSeparator acrossLines) rest).getD (byteLength rest))
  | .blanks acrossLines => m.rest?.map fun rest =>
    m.skip ((find? (fun c => !Buffer.isSeparator acrossLines c) rest).getD (byteLength rest))
  | .lineBlanks => m.lineRest?.map fun line =>
    m.skip (byteLength line - byteLength (trimStart line))
  | .toLineEnd => m.lineRest?.map fun line => m.pass (byteLength line)
  | .toEnd => some
    (.range (some ⟨m.mark, byteLength m.text⟩), { m with mark := byteLength m.text })

def buffer (m : Marked) : Buffer :=
  (Buffer.ofText m.text).seek m.mark

def ofBuffer (b : Buffer) : Marked :=
  ⟨b.text, b.position⟩

def seek (m : Marked) (offset : Nat) : Marked :=
  { m with mark := snap m.text (min offset (byteLength m.text)) }

end Marked

structure MarkedPair where
  primary : Marked
  secondary : Marked
  active : Side
deriving Repr, DecidableEq

namespace MarkedPair

def ofText (cs : List Char) : MarkedPair :=
  ⟨.ofText cs, .ofText [], .primary⟩

def current (c : MarkedPair) : Marked :=
  match c.active with
  | .primary => c.primary
  | .secondary => c.secondary

def idle (c : MarkedPair) : Marked :=
  match c.active with
  | .primary => c.secondary
  | .secondary => c.primary

def setCurrent (c : MarkedPair) (m : Marked) : MarkedPair :=
  match c.active with
  | .primary => { c with primary := m }
  | .secondary => { c with secondary := m }

/-- What a step answers, and what it leaves. There is none if a mark has come off the boundaries. -/
def step? (c : MarkedPair) : CursorStep → Option (CursorAnswer × MarkedPair)
  | .peek => c.current.peek?.map fun o => (.char o, c)
  | .reading r => (c.current.perform? r).map fun (a, m) => (a, c.setCurrent m)
  | .swap => some (.done, { c with active := c.active.other })
  | .setText cs => some (.done, c.setCurrent (.ofText cs))
  | .seek offset => some (.done, c.setCurrent (c.current.seek offset))
  | .stage r => some (.done,
    { c with secondary := .ofText (r.slice c.primary.text), active := .secondary })

def run {α : Type} (c : MarkedPair) (step : Buffer → α × Buffer) : α × MarkedPair :=
  let (a, b) := step c.current.buffer
  (a, c.setCurrent (.ofBuffer b))

def steps? (c : MarkedPair) : List CursorStep → Option MarkedPair
  | [] => some c
  | s :: ss => (c.step? s).bind fun (_, d) => d.steps? ss

end MarkedPair

end PlatformRules
