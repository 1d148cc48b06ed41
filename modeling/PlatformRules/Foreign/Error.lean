import PlatformRules.Document.Error

namespace PlatformRules

inductive CallError where
  | nullPointer
  | invalidUtf8
  | unknownKind (kind : UInt8)
  | reversedRange (start stop : Int32)
  | bufferTooSmall (needed available : Nat)
  | scan (e : ScanError)
  | shape (e : ShapeError)
  | document (e : DocumentError)
deriving Repr, DecidableEq

namespace CallError

def name : CallError → String
  | nullPointer => "NullPointer"
  | invalidUtf8 => "InvalidUtf8"
  | unknownKind _ => "InvalidTokenKind"
  | reversedRange .. => "InvalidTokenRange"
  | bufferTooSmall .. => "BufferTooSmall"
  | scan e => e.name
  | shape e => e.name
  | document e => e.name

def message [Limits] : CallError → String
  | nullPointer => "Null pointer argument"
  | invalidUtf8 => "Input is not valid UTF-8"
  | unknownKind kind => s!"Unknown token kind {kind.toNat}"
  | reversedRange start stop => s!"Token range {start.toInt}..{stop.toInt} is reversed"
  | bufferTooSmall needed available => s!"Buffer of {available} bytes cannot hold {needed}"
  | scan e => e.message
  | shape e => e.message
  | document e => e.message

def code : CallError → String
  | nullPointer => "E080"
  | bufferTooSmall .. => "E081"
  | invalidUtf8 => "E082"
  | unknownKind _ | reversedRange .. => "E083"
  | scan e => e.code
  | shape e => e.code
  | document e => e.code

def lineStatus : CallError → Int
  | nullPointer => -1
  | shape .emptyLine => -2
  | scan .tooManyTokens => -4
  | shape _ => -5
  | unknownKind _ | reversedRange .. => -6
  | _ => -3

def evaluationStatus (_ : CallError) : Int := -1

end CallError

end PlatformRules
