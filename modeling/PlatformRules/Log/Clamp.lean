import PlatformRules.Log.Event
import PlatformRules.Text.Utf8

/-!
Clamping a message at its bytes: from the limit backwards, byte by byte, until no character is cut.
This is `clampMessage` on a message whose characters are not told apart (`clampInPlace?_eq`).
-/

namespace PlatformRules

namespace Utf8

def isBoundary (offset : Nat) (bytes : List UInt8) : Bool :=
  offset == 0 || match bytes[offset]? with
    | some b => !isContinuation b
    | none => offset == bytes.length

def stepBack? (bytes : List UInt8) (offset : Nat) : Option Nat :=
  if isBoundary offset bytes then some offset
  else match offset with
    | 0 => none
    | offset + 1 => stepBack? bytes offset

def before? (offset : Nat) (bytes : List UInt8) : Option (List UInt8) :=
  if isBoundary offset bytes then some (bytes.take offset) else none

end Utf8

/-- There is no answer if stepping back from the limit fails, or if the bytes that are kept are no
text. -/
def clampInPlace? [Limits] (message : String) : Option String :=
  let bytes := Utf8.encode message
  if bytes.length ≤ maxMessageLength then some message
  else do
    let stop ← Utf8.stepBack? bytes maxMessageLength
    let kept ← Utf8.before? stop bytes
    Utf8.decode? kept

end PlatformRules
