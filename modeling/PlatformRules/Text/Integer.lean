namespace PlatformRules.Text

def digitsValue (cs : List Char) : Nat :=
  cs.foldl (fun n c => 10 * n + (c.toNat - '0'.toNat)) 0

def readDigits? (cs : List Char) : Option Nat :=
  if cs ≠ [] ∧ cs.all Char.isDigit then some (digitsValue cs) else none

def toInt32? (i : Int) : Option Int32 :=
  if -2147483648 ≤ i ∧ i ≤ 2147483647 then some (Int32.ofInt i) else none

def splitSign : List Char → Bool × List Char
  | '-' :: ds => (true, ds)
  | '+' :: ds => (false, ds)
  | ds => (false, ds)

def readInt32? (cs : List Char) : Option Int32 :=
  let (negative, ds) := splitSign cs
  (readDigits? ds).bind fun n => toInt32? (if negative then -(n : Int) else n)

def int32Text (i : Int32) : String :=
  toString i.toInt

end PlatformRules.Text
