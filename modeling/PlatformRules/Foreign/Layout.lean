import PlatformRules.Foreign.Error
import PlatformRules.Machine
import PlatformRules.Text.Utf8

/-!
The layouts that foreign code exchanges with the library: tokens with a kind byte and signed
offsets, lines of eight of them, machines with strings that end in a zero byte, and buffers that a
result is written to.
-/

namespace PlatformRules

structure ForeignToken where
  kind : UInt8
  -- negative if the token has no text
  start : Int32
  stop : Int32
deriving Repr, DecidableEq

namespace ForeignToken

def vacant : ForeignToken :=
  ⟨21, -1, 0⟩

def offset (n : Nat) : Int32 :=
  Int32.ofNat (min n 2147483647)

def ofToken (t : Token) : ForeignToken :=
  let kind := UInt8.ofNat t.kind.code
  match t.range with
  | none => ⟨kind, -1, 0⟩
  | some r => ⟨kind, offset r.start, offset r.stop⟩

def toToken (t : ForeignToken) : Except CallError Token :=
  match Token.Kind.ofCode? t.kind.toNat with
  | none => .error (.unknownKind t.kind)
  | some kind =>
    if t.start < 0 then .ok (.synthetic kind)
    else if t.stop < t.start then .error (.reversedRange t.start t.stop)
    else .ok ⟨kind, some ⟨t.start.toInt.toNat, t.stop.toInt.toNat⟩⟩

end ForeignToken

structure ForeignLine where
  slots : List ForeignToken
deriving Repr, DecidableEq

namespace ForeignLine

def vacant : ForeignLine :=
  ⟨List.replicate lineCapacity .vacant⟩

def ofLine (l : Line) : ForeignLine :=
  ⟨l.slots.map .ofToken⟩

def toLine (l : ForeignLine) : Except CallError Line :=
  (l.slots.mapM ForeignToken.toToken).map Line.ofSlots

end ForeignLine

abbrev ForeignBytes := Option (List UInt8)

namespace ForeignBytes

def toText (b : ForeignBytes) : Except CallError String :=
  match b with
  | none => .error .nullPointer
  | some bytes =>
    match Utf8.decode? bytes with
    | none => .error .invalidUtf8
    | some text => .ok text

def untilZero (b : ForeignBytes) : ForeignBytes :=
  b.map (·.takeWhile (· ≠ 0))

/-- Write bytes, and a zero byte behind them if asked to, over the front of the memory; nothing is
written unless all of them fit. -/
def write (bytes : List UInt8) (closed : Bool) (memory : ForeignBytes) :
    Except CallError ForeignBytes :=
  match memory with
  | none => .error .nullPointer
  | some old =>
    let new := if closed then bytes ++ [0] else bytes
    if new.length > old.length then .error (.bufferTooSmall new.length old.length)
    else .ok (some (new ++ old.drop new.length))

end ForeignBytes

structure ForeignMachine where
  system : ForeignBytes := none
  distro : ForeignBytes := none
  family : ForeignBytes := none
  architecture : ForeignBytes := none
  version : Int32 := -1
deriving Repr, DecidableEq

namespace ForeignMachine

def readField (b : ForeignBytes) : Except CallError (Option String) :=
  match b with
  | none => .ok none
  | some _ => (b.untilZero.toText).map some

def toMachine (m : ForeignMachine) : Except CallError Machine := do
  return {
    system := ← readField m.system
    distro := ← readField m.distro
    family := ← readField m.family
    architecture := ← readField m.architecture
    version := if m.version < 0 then none else some m.version }

end ForeignMachine

end PlatformRules
