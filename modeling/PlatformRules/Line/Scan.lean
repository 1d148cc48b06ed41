import PlatformRules.Limits
import PlatformRules.Text.Cursor
import PlatformRules.Line.Basic
import PlatformRules.Token.Vocabulary

/-!
From the text of a line to its tokens. Scanning never refuses a text: what it does not know becomes
an undefined token. Only two limits make it fail, the bytes of a line and the eight slots.
-/

namespace PlatformRules

inductive ScanError where
  | lineTooLong (length : Nat)
  | tooManyTokens
deriving Repr, DecidableEq

namespace ScanError

def name : ScanError → String
  | lineTooLong _ => "LineTooLong"
  | tooManyTokens => "TooManyTokens"

def message [Limits] : ScanError → String
  | lineTooLong length => s!"Line too long: {length} bytes (max {maxLineLength})"
  | tooManyTokens =>
    s!"Too many tokens: {lineCapacity + 1} (a line holds at most {lineCapacity})"

def code : ScanError → String
  | lineTooLong _ => "E020"
  | tooManyTokens => "E021"

end ScanError

namespace Scan

open Text

structure Piece where
  token : Token
  resume : Nat
deriving Repr, DecidableEq

def piece (kind : Token.Kind) (start : Nat) (cs : List Char) : Piece :=
  ⟨⟨kind, some ⟨start, start + byteLength cs⟩⟩, start + byteLength cs⟩

def trimmedPiece (kind : Token.Kind) (start : Nat) (cs : List Char) : Piece :=
  ⟨⟨kind, some ⟨start, start + byteLength (trimEnd cs)⟩⟩, start + byteLength cs⟩

def remainder (kind : Token.Kind) (start : Nat) (cs : List Char) : Piece :=
  trimmedPiece kind (start + byteLength (cs.takeWhile isBlank)) (trimStart cs)

/-- The value goes from the quote at `start` to the last quote of the line, and `cs` is the text
after the first of them. Text behind the last quote is undefined, and so is a single quote with all
that follows it. -/
def value (start : Nat) (cs : List Char) : List Piece :=
  match cs.reverse.dropWhile (· ≠ '"') with
  | [] => [trimmedPiece .undefined start ('"' :: cs)]
  | _ :: inside =>
    let inner := piece .value (start + 1) inside.reverse
    let after := (cs.reverse.takeWhile (· ≠ '"')).reverse
    let resume := inner.resume + 1
    { inner with resume } ::
      if trimStart after = [] then [] else [remainder .undefined resume after]

def fields (start : Nat) (cs : List Char) (done : List Piece) : List Piece :=
  let begin := start + byteLength (cs.takeWhile isBlank)
  match _h : trimStart cs with
  | [] => done.reverse
  | c :: rest =>
    if c = '"' then done.reverse ++ value begin rest
    else
      let word := c :: rest.takeWhile (!isBlank ·)
      let next := piece (.ofWord word) begin word
      fields next.resume (rest.dropWhile (!isBlank ·)) (next :: done)
termination_by cs.length
decreasing_by
  have h1 := (List.dropWhile_suffix (p := isBlank) (l := cs)).length_le
  have h2 := (List.dropWhile_suffix (p := (!isBlank ·)) (l := rest)).length_le
  simp only [trimStart] at _h
  simp only [_h, List.length_cons] at h1
  omega

def body (start : Nat) : List Char → List Piece
  | [] => []
  | c :: rest =>
    if c = '#' then
      [piece .commentSign start [c], remainder .commentText (start + 1) rest]
    else if c = '@' then
      let name := piece .actionName (start + 1) (rest.takeWhile (!isBlank ·))
      [piece .actionSign start [c], name,
        remainder .actionArgument name.resume (rest.dropWhile (!isBlank ·))]
    else
      let word := c :: rest.takeWhile (!isBlank ·)
      let first := piece (.ofOperatorWord word) start word
      fields first.resume (rest.dropWhile (!isBlank ·)) [first]

def line (start : Nat) (cs : List Char) : List Piece :=
  body (start + byteLength (cs.takeWhile isBlank)) (trimStart cs) ++
    [⟨.synthetic .lineEnd, start + byteLength cs⟩]

end Scan

namespace Line

variable [Limits]

def scan (start : Nat) (cs : List Char) : Except ScanError Line :=
  if Text.byteLength cs > maxLineLength then .error (.lineTooLong (Text.byteLength cs))
  else match ofList? ((Scan.line start cs).map (·.token)) with
    | some l => .ok l
    | none => .error .tooManyTokens

def ofText (cs : List Char) : Except ScanError Line :=
  scan 0 (Text.withoutReturn cs)

end Line

namespace Buffer

/-- Scan the rest of the line and pass its terminator. A line that is too long is not touched; one
with too many tokens is left behind the first token that found no slot. -/
def scanLine [Limits] (b : Buffer) : Except ScanError Line × Buffer :=
  match Line.scan b.position b.lineRest with
  | .ok l => (.ok l, b.advance (b.rawLine.length + 1))
  | .error .tooManyTokens =>
    let stop := match (Scan.line b.position b.lineRest)[lineCapacity]? with
      | some p => p.resume
      | none => b.position
    (.error .tooManyTokens,
      b.advance (Text.splitWithin (stop - b.position) b.rest).1.length)
  | .error e => (.error e, b)

def readField? (b : Buffer) : Option Token × Buffer :=
  match b.peek? with
  | none => (none, b)
  | some c =>
    if c = '"' || Text.isBlank c then (none, b)
    else
      let (r, b') := b.readWord true
      (some ⟨.ofWord (b.rest.takeWhile fun c => !isSeparator true c), some r⟩, b')

end Buffer

end PlatformRules
