import PlatformRules.Line.Canonical
import PlatformRules.Line.Grammar
import PlatformRules.Line.Scan

namespace PlatformRules

inductive LineError where
  | scan (e : ScanError)
  | shape (e : ShapeError)
  | grammar (e : GrammarError)
  | unexpectedShape (length : Nat)
deriving Repr, DecidableEq

namespace LineError

def name : LineError → String
  | scan e => e.name
  | shape e => e.name
  | grammar e => e.name
  | unexpectedShape _ => "UnexpectedShape"

def message [Limits] : LineError → String
  | scan e => s!"Lexical analysis failed: {e.message}"
  | shape e => s!"Normalization failed: {e.message}"
  | grammar e => s!"Validation failed: {e.message}"
  | unexpectedShape length => s!"Unexpected line shape of {length} tokens"

def code : LineError → String
  | scan e => e.code
  | shape e => e.code
  | grammar e => e.code
  | unexpectedShape _ => "E060"

end LineError

inductive DocumentError where
  | syntaxError (line : Nat) (cause : LineError)
  | undefinedAction (name : String)
  | actionFailed (name : String) (code : UInt8)
  | raised (message : String)
  | tooLarge (size : Nat)
deriving Repr, DecidableEq

namespace DocumentError

def name : DocumentError → String
  | syntaxError _ cause => "InvalidSyntax." ++ cause.name
  | undefinedAction _ => "UndefinedAction"
  | actionFailed .. => "ActionError"
  | raised _ => "UserRaised"
  | tooLarge _ => "DocumentTooLarge"

def message [Limits] : DocumentError → String
  | syntaxError line cause => s!"Invalid syntax on line {line}: {cause.message}"
  | undefinedAction name => s!"Special action '{name}' is not defined"
  | actionFailed name code => s!"Special action '{name}' failed with code {code.toNat}"
  | raised message => message
  | tooLarge size => s!"Document of {size} bytes exceeds the maximum size"

def code : DocumentError → String
  | syntaxError _ cause => cause.code
  | undefinedAction _ => "E061"
  | actionFailed .. => "E062"
  | raised _ => "E063"
  | tooLarge _ => "E022"

end DocumentError

end PlatformRules
