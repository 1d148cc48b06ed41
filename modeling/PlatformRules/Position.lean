import PlatformRules.Token.Basic

namespace PlatformRules

structure Position where
  offset : Nat
  line : UInt32
  column : UInt32
deriving Repr, DecidableEq

namespace Position

def start : Position :=
  ⟨0, 1, 1⟩

def advance (p : Position) (c : Char) : Position :=
  if c = '\n' then ⟨p.offset + 1, p.line + 1, 1⟩
  else ⟨p.offset + c.utf8Size, p.line, p.column + 1⟩

def advanceBytes (p : Position) (n : Nat) : Position :=
  ⟨p.offset + n, p.line, p.column + UInt32.ofNat n⟩

def display (p : Position) : String :=
  s!"{p.line.toNat}:{p.column.toNat}"

end Position

structure Span where
  start : Position
  stop : Position
deriving Repr, DecidableEq

namespace Span

def ofLine (line : UInt32) (offset length : Nat) : Span :=
  let start : Position := ⟨offset, line, 1⟩
  ⟨start, start.advanceBytes length⟩

def within (s : Span) (start stop : Nat) : Span :=
  ⟨s.start.advanceBytes start, s.start.advanceBytes (max start stop)⟩

def length (s : Span) : Nat :=
  (UInt64.ofNat s.stop.offset - UInt64.ofNat s.start.offset).toNat

def isEmpty (s : Span) : Bool :=
  s.start.offset == s.stop.offset

def slice (s : Span) (source : List Char) : List Char :=
  (ByteRange.mk s.start.offset s.stop.offset).slice source

def display (s : Span) : String :=
  if s.start.line = s.stop.line then
    s!"{s.start.display}-{s.stop.column.toNat}"
  else s!"{s.start.display}-{s.stop.display}"

end Span

end PlatformRules
