/-!
UTF-8: bytes of a text, and texts from bytes. A wrong sequence of bytes is as long as it could still
have become a character; reading leniently puts one replacement character in its place.
-/

namespace PlatformRules.Utf8

def encode (s : String) : List UInt8 :=
  s.toList.flatMap String.utf8EncodeChar

def replacement : Char := '\ufffd'

def isContinuation (b : UInt8) : Bool :=
  0x80 ≤ b && b ≤ 0xbf

def isSecond (first b : UInt8) : Bool :=
  if first = 0xe0 then 0xa0 ≤ b && b ≤ 0xbf
  else if first = 0xed then 0x80 ≤ b && b ≤ 0x9f
  else if first = 0xf0 then 0x90 ≤ b && b ≤ 0xbf
  else if first = 0xf4 then 0x80 ≤ b && b ≤ 0x8f
  else isContinuation b

def width? (first : UInt8) : Option Nat :=
  if first < 0x80 then some 1
  else if 0xc2 ≤ first && first ≤ 0xdf then some 2
  else if 0xe0 ≤ first && first ≤ 0xef then some 3
  else if 0xf0 ≤ first && first ≤ 0xf4 then some 4
  else none

def join (high : Nat) (bytes : List UInt8) : Nat :=
  bytes.foldl (fun n b => n * 64 + b.toNat % 64) high

/-- The bytes behind `first` that belong to it: those of a whole character, or as many as still fit
the start of one. -/
def tail (first : UInt8) (width : Nat) (rest : List UInt8) : List UInt8 :=
  match rest with
  | [] => []
  | b :: more =>
    if width < 2 || !isSecond first b then []
    else b :: (more.take (width - 2)).takeWhile isContinuation

def next (first : UInt8) (rest : List UInt8) : Except Nat (Char × Nat) :=
  match width? first with
  | none => .error 1
  | some width =>
    let behind := tail first width rest
    if behind.length + 1 = width then
      let high := if width = 1 then first.toNat else first.toNat % Nat.pow 2 (7 - width)
      .ok (Char.ofNat (join high behind), width)
    else .error (behind.length + 1)

def decodeFrom (fuel position : Nat) (bytes : List UInt8) (done : List Char) : Except Nat String :=
  match fuel, bytes with
  | _, [] => .ok (String.ofList done.reverse)
  | 0, _ => .error position
  | fuel + 1, b :: rest =>
    match next b rest with
    | .ok (c, width) => decodeFrom fuel (position + width) (rest.drop (width - 1)) (c :: done)
    | .error _ => .error position

def decode (bytes : List UInt8) : Except Nat String :=
  decodeFrom bytes.length 0 bytes []

def decode? (bytes : List UInt8) : Option String :=
  (decode bytes).toOption

def decodeLenientlyFrom (fuel : Nat) (bytes : List UInt8) (done : List Char) : String :=
  match fuel, bytes with
  | 0, _ => String.ofList done.reverse
  | _, [] => String.ofList done.reverse
  | fuel + 1, b :: rest =>
    match next b rest with
    | .ok (c, width) => decodeLenientlyFrom fuel (rest.drop (width - 1)) (c :: done)
    | .error width => decodeLenientlyFrom fuel (rest.drop (width - 1)) (replacement :: done)

def decodeLeniently (bytes : List UInt8) : String :=
  decodeLenientlyFrom bytes.length bytes []

end PlatformRules.Utf8
