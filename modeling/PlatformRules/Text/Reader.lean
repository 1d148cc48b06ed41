namespace PlatformRules

abbrev TextReader := StateT (List Char) Option

namespace TextReader

def peek? : TextReader (Option Char) :=
  return (← get).head?

def sees (p : Char → Bool) : TextReader Bool :=
  return (← get).head?.any p

def next : TextReader Char := do
  match ← get with
  | [] => failure
  | c :: cs => set cs; return c

def literal (word : String) : TextReader Unit := do
  let cs ← get
  guard (word.toList.isPrefixOf cs)
  set (cs.drop word.length)

def accept (word : String) : TextReader Bool := do
  let cs ← get
  if word.toList.isPrefixOf cs then
    set (cs.drop word.length)
    return true
  else return false

def takeWhile (p : Char → Bool) : TextReader (List Char) := do
  let cs ← get
  set (cs.dropWhile p)
  return cs.takeWhile p

def takeWhile1 (p : Char → Bool) : TextReader (List Char) := do
  let taken ← takeWhile p
  guard !taken.isEmpty
  return taken

def atEnd : TextReader Bool :=
  return (← get).isEmpty

def hexDigit? (c : Char) : Option Nat :=
  if c.isDigit then some (c.toNat - '0'.toNat)
  else if 'a' ≤ c ∧ c ≤ 'f' then some (c.toNat - 'a'.toNat + 10)
  else if 'A' ≤ c ∧ c ≤ 'F' then some (c.toNat - 'A'.toNat + 10)
  else none

def hexBytes : List Char → List UInt8
  | a :: b :: cs =>
    UInt8.ofNat ((hexDigit? a).getD 0 * 16 + (hexDigit? b).getD 0) :: hexBytes cs
  | _ => []

def hex (count : Nat) : TextReader Nat :=
  match count with
  | 0 => return 0
  | count + 1 => do
    let n ← hex count
    let d ← hexDigit? (← next)
    return n * 16 + d

end TextReader

end PlatformRules
