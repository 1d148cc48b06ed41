import PlatformRules.Text.Integer
import PlatformRules.Text.Reader
import PlatformRules.Toml.Value

namespace PlatformRules.Toml.Reader

open TextReader

def isSpace (c : Char) : Bool :=
  c == ' ' || c == '\t'

def isVisible (c : Char) : Bool :=
  c == '\t' || (0x20 ≤ c.toNat && c.toNat ≠ 0x7f)

def skipSpace : TextReader Unit :=
  discard (takeWhile isSpace)

def lineBreak : TextReader Bool := do
  if ← accept "\n" then return true
  else accept "\r\n"

def skipComment : TextReader Unit := do
  if ← accept "#" then discard (takeWhile isVisible)

def endLine : TextReader Unit := do
  skipSpace
  skipComment
  if !(← atEnd) then guard (← lineBreak)

def skipLines (fuel : Nat) : TextReader Unit :=
  match fuel with
  | 0 => return
  | fuel + 1 => do
    skipSpace
    skipComment
    if ← lineBreak then skipLines fuel

/-! Strings -/

def charOf? (n : Nat) : Option Char :=
  if h : n.isValidChar then some (Char.ofNatAux n h) else none

def escape : TextReader Char := do
  match ← next with
  | 'b' => return '\x08'
  | 't' => return '\t'
  | 'n' => return '\n'
  | 'f' => return '\x0c'
  | 'r' => return '\r'
  | '"' => return '"'
  | '\\' => return '\\'
  | 'u' => charOf? (← hex 4)
  | 'U' => charOf? (← hex 8)
  | _ => failure

def basicBody (fuel : Nat) (done : List Char) : TextReader String :=
  match fuel with
  | 0 => failure
  | fuel + 1 => do
    match ← next with
    | '"' => return String.ofList done.reverse
    | '\\' => basicBody fuel ((← escape) :: done)
    | c => if isVisible c then basicBody fuel (c :: done) else failure

def literalBody : TextReader String := do
  let cs ← takeWhile fun c => c != '\'' && isVisible c
  literal "'"
  return String.ofList cs

def skipFolded (fuel : Nat) : TextReader Unit :=
  match fuel with
  | 0 => return
  | fuel + 1 => do
    skipSpace
    if ← lineBreak then skipFolded fuel

def longBody (q : Char) (escapes : Bool) (fuel : Nat) (done : List Char) : TextReader String :=
  match fuel with
  | 0 => failure
  | fuel + 1 => do
    let quotes ← takeWhile (· == q)
    if quotes.length ≥ 3 then
      guard (quotes.length ≤ 5)
      return String.ofList (quotes.drop 3 ++ done).reverse
    else
      let done := quotes ++ done
      if ← lineBreak then longBody q escapes fuel ('\n' :: done)
      else
        let c ← next
        if c == '\\' && escapes then
          let rest ← get
          skipSpace
          if ← lineBreak then
            skipFolded fuel
            longBody q escapes fuel done
          else
            set rest
            longBody q escapes fuel ((← escape) :: done)
        else
          guard (isVisible c)
          longBody q escapes fuel (c :: done)

def basicString : TextReader String := do
  literal "\""
  basicBody (← get).length []

def literalString : TextReader String := do
  literal "'"
  literalBody

def string : TextReader String := do
  if ← accept "\"\"\"" then
    discard lineBreak
    longBody '"' true ((← get).length + 1) []
  else if ← accept "'''" then
    discard lineBreak
    longBody '\'' false ((← get).length + 1) []
  else if (← peek?) = some '"' then basicString
  else literalString

/-! Numbers and dates -/

def grouped (isDigit : Char → Bool) (fuel : Nat) : TextReader (List Char) :=
  match fuel with
  | 0 => failure
  | fuel + 1 => do
    let ds ← takeWhile1 isDigit
    if ← accept "_" then return ds ++ (← grouped isDigit fuel) else return ds

def digitGroups (isDigit : Char → Bool) : TextReader (List Char) := do
  grouped isDigit ((← get).length + 1)

def based (word : String) (base : Nat) (isDigit : Char → Bool) : TextReader Unit := do
  literal word
  let ds ← digitGroups isDigit
  let n := ds.foldl (fun n c => n * base + (hexDigit? c).getD 0) 0
  guard (n < Nat.pow 2 63)

/-- A decimal number is not larger than what a double can hold: its digits, with the point
`places` from their end, are below the middle between the last double and the next power of two. -/
def isFinite (digits : List Char) (exponent : Int) : Bool :=
  let n := Text.digitsValue digits
  let size : Int := (digits.dropWhile (· == '0')).length
  if n = 0 || size + exponent < 300 then true
  else if size + exponent > 320 then false
  else
    let limit := Nat.pow 2 1024 - Nat.pow 2 970
    if exponent ≥ 0 then n * Nat.pow 10 exponent.toNat < limit
    else n < limit * Nat.pow 10 (-exponent).toNat

def wholeDigits : TextReader (List Char) := do
  let ds ← digitGroups Char.isDigit
  guard (ds.head? != some '0' || ds == ['0'])
  return ds

def exponent : TextReader Int := do
  let negative ← accept "-"
  if !negative then discard (accept "+")
  let n := Text.digitsValue (← digitGroups Char.isDigit)
  return if negative then -(n : Int) else n

def decimal : TextReader Unit := do
  let negative ← accept "-"
  if !negative then discard (accept "+")
  if ← accept "inf" then return
  if ← accept "nan" then return
  let whole ← wholeDigits
  let fraction ← if ← accept "." then digitGroups Char.isDigit else pure []
  let scaled ← sees fun c => c == 'e' || c == 'E'
  if scaled then
    discard next
    let e ← exponent
    guard (negative || isFinite (whole ++ fraction) (e - fraction.length))
  else if fraction.isEmpty then
    let n := Text.digitsValue whole
    guard (if negative then n ≤ Nat.pow 2 63 else n < Nat.pow 2 63)
  else guard (negative || isFinite (whole ++ fraction) (-(fraction.length : Int)))

def fixed (count : Nat) : TextReader Nat := do
  let ds := (← get).take count
  guard (ds.length == count && ds.all Char.isDigit)
  modify (·.drop count)
  return Text.digitsValue ds

def daysIn (year month : Nat) : Nat :=
  if month = 2 then
    if year % 4 = 0 ∧ (year % 100 ≠ 0 ∨ year % 400 = 0) then 29 else 28
  else if month ∈ [4, 6, 9, 11] then 30
  else 31

def fullDate : TextReader Unit := do
  let year ← fixed 4
  literal "-"
  let month ← fixed 2
  literal "-"
  let day ← fixed 2
  guard (1 ≤ month && month ≤ 12 && 1 ≤ day && day ≤ daysIn year month)

def clock : TextReader Unit := do
  let hour ← fixed 2
  literal ":"
  let minute ← fixed 2
  literal ":"
  let second ← fixed 2
  guard (hour ≤ 23 && minute ≤ 59 && second ≤ 60)
  if ← accept "." then discard (takeWhile1 Char.isDigit)

def offset : TextReader Unit := do
  if ← sees (fun c => c == 'Z' || c == 'z') then discard next
  else if ← sees (fun c => c == '+' || c == '-') then
    discard next
    let hour ← fixed 2
    literal ":"
    let minute ← fixed 2
    guard (hour ≤ 23 && minute ≤ 59)

def dateTime : TextReader Unit := do
  fullDate
  let timed : TextReader Unit := do
    guard (← sees fun c => c == 'T' || c == 't' || c == ' ')
    discard next
    clock
    offset
  timed <|> return

def numeral : TextReader Toml := do
  let cs ← get
  if (cs.take 5).drop 4 == ['-'] && (cs.take 4).all Char.isDigit then
    dateTime
    return .date
  else if (cs.take 3).drop 2 == [':'] then
    clock
    return .date
  else
    if cs.take 2 == ['0', 'x'] then
      based "0x" 16 fun c => (hexDigit? c).isSome
    else if cs.take 2 == ['0', 'o'] then
      based "0o" 8 fun c => '0' ≤ c && c ≤ '7'
    else if cs.take 2 == ['0', 'b'] then
      based "0b" 2 fun c => c == '0' || c == '1'
    else decimal
    return .number

/-! Keys and values -/

def isBareKey (c : Char) : Bool :=
  c.isAlphanum || c == '-' || c == '_'

def simpleKey : TextReader String := do
  match ← peek? with
  | some '"' => basicString
  | some '\'' => literalString
  | _ => return String.ofList (← takeWhile1 isBareKey)

def depthLimit : Nat := 80

def keyParts (fuel : Nat) : TextReader (List String) :=
  match fuel with
  | 0 => failure
  | fuel + 1 => do
    skipSpace
    let k ← simpleKey
    skipSpace
    if ← accept "." then return k :: (← keyParts fuel) else return [k]

def key : TextReader (List String × String) := do
  let parts ← keyParts (depthLimit - 1)
  return (parts.dropLast, parts.getLastD "")

def arrayItems (value : TextReader Toml) (fuel : Nat) (done : List Toml) : TextReader (List Toml) :=
  match fuel with
  | 0 => failure
  | fuel + 1 => do
    skipLines (← get).length
    if ← accept "]" then return done.reverse
    let v ← value
    skipLines (← get).length
    if ← accept "," then arrayItems value fuel (v :: done)
    else
      literal "]"
      return (v :: done).reverse

def inlineEntries (value : TextReader Toml) (fuel : Nat) (t : Table) : TextReader Table :=
  match fuel with
  | 0 => failure
  | fuel + 1 => do
    let (path, k) ← key
    literal "="
    skipSpace
    let t ← t.assign path k (← value)
    skipSpace
    if ← accept "," then inlineEntries value fuel t
    else
      literal "\x7d"
      return t

def value (depth : Nat) : TextReader Toml := do
  match ← peek? with
  | some '"' | some '\'' => return .str (← string)
  | some 't' => literal "true"; return .bool true
  | some 'f' => literal "false"; return .bool false
  | some '[' =>
    match depth with
    | 0 => failure
    | depth + 1 =>
      literal "["
      return .array (← arrayItems (value depth) ((← get).length + 1) [])
  | some '\x7b' =>
    match depth with
    | 0 => failure
    | depth + 1 =>
      literal "\x7b"
      skipSpace
      if ← accept "\x7d" then return .inline []
      let t ← inlineEntries (value depth) ((← get).length + 1) {}
      return .inline t.entries
  | _ => numeral

def statement (s : Table × List String) : TextReader (Table × List String) := do
  let (root, current) := s
  if ← accept "[[" then
    let (path, k) ← key
    literal "]]"
    return (← root.openNext path k, path ++ [k])
  else if ← accept "[" then
    let (path, k) ← key
    literal "]"
    return (← root.openTable path k, path ++ [k])
  else
    let (path, k) ← key
    literal "="
    skipSpace
    let v ← value (depthLimit - 1)
    let root ← root.descend false (·.assign path k v) current
    return (root, current)

def lines (fuel : Nat) (s : Table × List String) : TextReader Table :=
  match fuel with
  | 0 => failure
  | fuel + 1 => do
    skipSpace
    if ← atEnd then return s.1
    let s ← if ← sees (fun c => c == '#' || c == '\n' || c == '\r') then pure s else statement s
    endLine
    lines fuel s

def document : TextReader Table := do
  discard (accept "\ufeff")
  lines ((← get).length + 1) ({}, [])

end PlatformRules.Toml.Reader

namespace PlatformRules.Toml

def parse? (text : String) : Option (List (String × Toml)) :=
  (StateT.run Reader.document text.toList).map fun (t, _) => t.entries

end PlatformRules.Toml
