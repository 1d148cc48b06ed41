import PlatformRules.Text.Integer
import PlatformRules.Text.Reader

/-!
Reading JSON text without building values. Objects and arrays hand each member to a reader of the
caller, who skips what is of no interest. A skipped text is checked for its form only; it may hold
escapes that stand for no character.
-/

namespace PlatformRules

namespace JsonReader

open TextReader

def isSpace (c : Char) : Bool :=
  c == ' ' || c == '\n' || c == '\t' || c == '\r'

def skipSpace : TextReader Unit :=
  modify (List.dropWhile isSpace)

def isHighSurrogate (n : Nat) : Bool :=
  0xd800 ≤ n && n ≤ 0xdbff

def isLowSurrogate (n : Nat) : Bool :=
  0xdc00 ≤ n && n ≤ 0xdfff

def plainEscape? : Char → Option Char
  | '"' => some '"'
  | '\\' => some '\\'
  | '/' => some '/'
  | 'b' => some '\x08'
  | 'f' => some '\x0c'
  | 'n' => some '\n'
  | 'r' => some '\r'
  | 't' => some '\t'
  | _ => none

def escape : TextReader Char := do
  match ← next with
  | 'u' =>
    let n ← hex 4
    guard (!isLowSurrogate n)
    if isHighSurrogate n then
      literal "\\u"
      let m ← hex 4
      guard (isLowSurrogate m)
      return Char.ofNat (0x10000 + (n - 0xd800) * 0x400 + (m - 0xdc00))
    else return Char.ofNat n
  | c => plainEscape? c

def skipEscape : TextReader Unit := do
  match ← next with
  | 'u' => discard (hex 4)
  | c => guard (plainEscape? c).isSome

def stringBody (fuel : Nat) (done : List Char) : TextReader String :=
  match fuel with
  | 0 => failure
  | fuel + 1 => do
    match ← next with
    | '"' => return String.ofList done.reverse
    | '\\' => stringBody fuel ((← escape) :: done)
    | c => if c.toNat < 32 then failure else stringBody fuel (c :: done)

def skipStringBody (fuel : Nat) : TextReader Unit :=
  match fuel with
  | 0 => failure
  | fuel + 1 => do
    match ← next with
    | '"' => return
    | '\\' => skipEscape; skipStringBody fuel
    | c => if c.toNat < 32 then failure else skipStringBody fuel

def string : TextReader String := do
  literal "\""
  stringBody (← get).length []

def skipString : TextReader Unit := do
  literal "\""
  skipStringBody (← get).length

def digits : TextReader (List Char) :=
  takeWhile1 Char.isDigit

def wholeDigits : TextReader (List Char) := do
  let ds ← digits
  guard (ds.head? != some '0' || ds == ['0'])
  return ds

/-- A whole number within 32 bits, without fraction and exponent. A minus sign in front of a zero
makes it a number that is not whole. -/
def int32 : TextReader Int32 := do
  let negative ← accept "-"
  let n := Text.digitsValue (← wholeDigits)
  let goesOn ← sees fun c => c == '.' || c == 'e' || c == 'E'
  guard (!goesOn && !(negative && n == 0))
  Text.toInt32? (if negative then -(n : Int) else n)

def skipNumber : TextReader Unit := do
  discard (accept "-")
  discard wholeDigits
  if ← accept "." then discard digits
  if ← sees (fun c => c == 'e' || c == 'E') then
    discard next
    if ← sees (fun c => c == '+' || c == '-') then discard next
    discard digits

def items {σ : Type} (item : σ → TextReader σ) (close : Char) (fuel : Nat) (s : σ) :
    TextReader σ :=
  match fuel with
  | 0 => failure
  | fuel + 1 => do
    skipSpace
    let s ← item s
    skipSpace
    let c ← next
    if c = ',' then items item close fuel s
    else
      guard (c == close)
      return s

def bracketed {σ : Type} (item : σ → TextReader σ) (opening close : Char) (s : σ) :
    TextReader σ := do
  guard ((← next) == opening)
  skipSpace
  if (← peek?) = some close then
    discard next
    return s
  else items item close (← get).length s

def array {σ : Type} (item : σ → TextReader σ) (s : σ) : TextReader σ :=
  bracketed item '[' ']' s

def member {σ κ : Type} (key : TextReader κ) (value : κ → σ → TextReader σ) (s : σ) :
    TextReader σ := do
  let k ← key
  skipSpace
  literal ":"
  skipSpace
  value k s

def object {σ : Type} (value : String → σ → TextReader σ) (s : σ) : TextReader σ :=
  bracketed (member string value) '\x7b' '\x7d' s

def skipNested (fuel : Nat) : TextReader Unit :=
  match fuel with
  | 0 => failure
  | fuel + 1 => do
    match ← peek? with
    | some '"' => skipString
    | some '[' => bracketed (fun _ => skipNested fuel) '[' ']' ()
    | some '\x7b' => bracketed (member skipString fun _ _ => skipNested fuel) '\x7b' '\x7d' ()
    | some 'n' => literal "null"
    | some 't' => literal "true"
    | some 'f' => literal "false"
    | _ => skipNumber

def skip : TextReader Unit := do
  skipNested (← get).length

def nullable {α : Type} (read : TextReader α) : TextReader (Option α) := do
  if (← peek?) = some 'n' then
    literal "null"
    return none
  else return some (← read)

def whole {α : Type} (read : TextReader α) (text : String) : Option α :=
  let reader : TextReader α := do
    skipSpace
    let a ← read
    skipSpace
    guard (← get).isEmpty
    return a
  (StateT.run reader text.toList).map (·.1)

end JsonReader

end PlatformRules
