import PlatformRules.Line.Basic
import PlatformRules.Token.Vocabulary

namespace PlatformRules

inductive GrammarError where
  | emptySequence
  | invalidComment (length : Nat)
  | invalidAction (length : Nat)
  | invalidActionName (name : String)
  | unrecognizedStart (kind : Token.Kind)
  | invalidOperator (text : String)
  | mismatch (position : Nat) (expected : String) (found : Token.Kind)
  | keywordMismatch (kind : Token.Kind) (expected : String) (text : String)
  | invalidSystem (name : String)
  | invalidArchitecture (name : String)
  | invalidComparator (text : String)
  | invalidVersion (text : String)
  | comparatorNeedsVersion (found : Token.Kind)
  | unrecognizedOverload (length : Nat)
deriving Repr, DecidableEq

namespace GrammarError

def name : GrammarError → String
  | emptySequence => "EmptySequence"
  | invalidComment _ => "InvalidComment"
  | invalidAction _ => "InvalidSpecialAction"
  | invalidActionName _ => "InvalidActionName"
  | unrecognizedStart _ => "UnrecognizedStart"
  | invalidOperator _ => "InvalidOperator"
  | mismatch .. => "OverloadMismatch"
  | keywordMismatch .. => "KeywordTextMismatch"
  | invalidSystem _ => "InvalidSystemName"
  | invalidArchitecture _ => "InvalidArchitecture"
  | invalidComparator _ => "InvalidComparator"
  | invalidVersion _ => "InvalidMajorVersion"
  | comparatorNeedsVersion _ => "ComparatorRequiresVersion"
  | unrecognizedOverload _ => "UnrecognizedOverload"

def message : GrammarError → String
  | emptySequence => "Empty token sequence"
  | invalidComment length =>
    s!"Comment must be a symbol followed by text, found {length} tokens"
  | invalidAction length =>
    s!"Special action must be symbol, name and argument, found {length} tokens"
  | invalidActionName name => s!"Invalid special action name '{name}'"
  | unrecognizedStart kind => s!"Line cannot start with {kind.name}"
  | invalidOperator text => s!"Invalid operator '{text}'"
  | mismatch position expected found =>
    s!"Expected {expected} at position {position}, found {found.name}"
  | keywordMismatch kind expected text =>
    s!"{kind.name} must read '{expected}', found '{text}'"
  | invalidSystem name => s!"Unknown system name '{name}'"
  | invalidArchitecture name => s!"Unknown architecture '{name}'"
  | invalidComparator text => s!"Invalid comparator '{text}'"
  | invalidVersion text => s!"Major version '{text}' is not a 32-bit integer"
  | comparatorNeedsVersion found =>
    s!"A comparator must be followed by a major version, found {found.name}"
  | unrecognizedOverload length => s!"Unrecognized logic path overload of {length} tokens"

def code : GrammarError → String
  | emptySequence => "E040"
  | invalidComment _ => "E041"
  | invalidAction _ => "E042"
  | invalidActionName _ => "E043"
  | unrecognizedStart _ => "E044"
  | invalidOperator _ => "E045"
  | mismatch .. => "E046"
  | keywordMismatch .. => "E047"
  | invalidSystem _ => "E048"
  | invalidArchitecture _ => "E049"
  | invalidComparator _ => "E050"
  | invalidVersion _ => "E051"
  | comparatorNeedsVersion _ => "E052"
  | unrecognizedOverload _ => "E053"

end GrammarError

namespace Grammar

variable (source : List Char)

def quoted (t : Token) : String :=
  String.ofList (t.text source)

/-- `any` and `defined` read as such, unless they were put in to complete a line. -/
def checkPlaceholder (t : Token) : Except GrammarError Unit :=
  let expected :=
    if t.kind = .wildcard then Vocabulary.wildcardWord else Vocabulary.definedWord
  if t.isSynthetic || t.text source == expected.toList then .ok ()
  else .error (.keywordMismatch t.kind expected (quoted source t))

def checkOperator (t : Token) : Except GrammarError Unit :=
  if t.isSynthetic || (Operator.ofText? (t.text source)).map .operator == some t.kind then .ok ()
  else .error (.invalidOperator (quoted source t))

def checkSystem (position : Nat) (t : Token) : Except GrammarError Unit :=
  match t.kind with
  | .system =>
    if Vocabulary.isSystem (t.text source) then .ok ()
    else .error (.invalidSystem (quoted source t))
  | .wildcard | .defined => checkPlaceholder source t
  | found => .error (.mismatch position "system name, any or defined" found)

def checkArchitecture (position : Nat) (t : Token) : Except GrammarError Unit :=
  match t.kind with
  | .architecture =>
    if Vocabulary.isArchitecture (t.text source) then .ok ()
    else .error (.invalidArchitecture (quoted source t))
  | .wildcard | .defined => checkPlaceholder source t
  | found => .error (.mismatch position "architecture, any or defined" found)

def checkVersion (position : Nat) (t : Token) : Except GrammarError Unit :=
  match t.kind with
  | .version =>
    if (Vocabulary.version? (t.text source)).isSome then .ok ()
    else .error (.invalidVersion (quoted source t))
  | .wildcard | .defined => checkPlaceholder source t
  | found => .error (.mismatch position "major version, any or defined" found)

def checkComparator (t : Token) : Except GrammarError Unit :=
  match t.kind with
  | .comparator c =>
    if t.isSynthetic || Comparator.ofText? (t.text source) == some c then .ok ()
    else .error (.invalidComparator (quoted source t))
  | _ => .error (.invalidComparator (quoted source t))

def checkComparedVersion (t : Token) : Except GrammarError Unit :=
  if t.kind = .version then checkVersion source 3 t
  else .error (.comparatorNeedsVersion t.kind)

def checkValue (position : Nat) (t : Token) : Except GrammarError Unit :=
  if t.kind = .value then .ok () else .error (.mismatch position "quoted value" t.kind)

def checkFields : List Token → Except GrammarError Unit
  | [value] => checkValue 1 value
  | [system, value] => do
    checkSystem source 1 system
    checkValue 2 value
  | [system, arch, value] => do
    checkSystem source 1 system
    checkArchitecture source 2 arch
    checkValue 3 value
  | [system, version, arch, value] => do
    checkSystem source 1 system
    checkVersion source 2 version
    checkArchitecture source 3 arch
    checkValue 4 value
  | [system, comparator, version, arch, value] => do
    checkSystem source 1 system
    checkComparator source comparator
    checkComparedVersion source version
    checkArchitecture source 4 arch
    checkValue 5 value
  | fields => .error (.unrecognizedOverload (fields.length + 1))

def checkComment (ts : List Token) : Except GrammarError Unit :=
  match ts with
  | [_, text] =>
    if text.kind = .commentText then .ok () else .error (.invalidComment ts.length)
  | _ => .error (.invalidComment ts.length)

def checkAction (ts : List Token) : Except GrammarError Unit :=
  match ts with
  | [_, name, argument] =>
    if name.kind = .actionName ∧ argument.kind = .actionArgument then
      let text := name.text source
      if Vocabulary.isBuiltIn text || Vocabulary.isActionName text then .ok ()
      else .error (.invalidActionName (quoted source name))
    else .error (.invalidAction ts.length)
  | _ => .error (.invalidAction ts.length)

def checkTokens : List Token → Except GrammarError Unit
  | [] => .error .emptySequence
  | first :: rest =>
    match first.kind with
    | .lineEnd | .textEnd =>
      if rest = [] then .ok () else .error (.unrecognizedOverload (rest.length + 1))
    | .commentSign => checkComment (first :: rest)
    | .actionSign => checkAction source (first :: rest)
    | .operator _ => do
      checkOperator source first
      checkFields source rest
    | kind => .error (.unrecognizedStart kind)

end Grammar

namespace Line

def check (source : List Char) (l : Line) : Except GrammarError Unit :=
  Grammar.checkTokens source
    (if l.length > 1 && l.endsLine then l.tokens.dropLast else l.tokens)

end Line

structure SequenceError where
  line : Nat
  error : GrammarError
deriving Repr, DecidableEq

def SequenceError.message (e : SequenceError) : String :=
  s!"line {e.line}: {e.error.message}"

namespace Grammar

def checkSegment (source : List Char) (ts : List Token) : Except GrammarError Unit :=
  match Line.ofList? ts with
  | some l => l.check source
  | none => .error (.unrecognizedOverload ts.length)

def checkSequence (source : List Char) (ts : List Token) : Except SequenceError Nat :=
  go ts [] 0
where
  close (segment : List Token) (lines : Nat) : Except SequenceError Nat :=
    match checkSegment source segment.reverse with
    | .ok _ => .ok (lines + 1)
    | .error error => .error ⟨lines, error⟩
  -- the second list holds the tokens of the line so far, the last one first
  go : List Token → List Token → Nat → Except SequenceError Nat
    | [], segment, lines => if segment = [] then .ok lines else close segment lines
    | t :: ts, segment, lines =>
      match t.kind with
      | .textEnd => if segment = [] then .ok lines else close segment lines
      | .lineEnd =>
        match close (t :: segment) lines with
        | .ok lines => go ts [] lines
        | .error e => .error e
      | _ => go ts (t :: segment) lines

end Grammar

end PlatformRules
