import PlatformRules.Text.CodePoint

namespace PlatformRules.Text

def stampKey : List Char :=
  "\"timestamp\":".toList

def afterStamp (cs : List Char) : List Char :=
  match cs.dropWhile (· == ' ') with
  | '"' :: rest => (rest.dropWhile (· != '"')).drop 1
  | rest => rest.dropWhile Char.isDigit

theorem length_afterStamp_le (cs : List Char) : (afterStamp cs).length ≤ cs.length := by
  have drop (p : Char → Bool) (as : List Char) : (as.dropWhile p).length ≤ as.length :=
    (List.dropWhile_sublist p).length_le
  have spaces := drop (· == ' ') cs
  unfold afterStamp
  split
  · next rest h =>
    have := drop (· != '"') rest
    simp only [h, List.length_cons, List.length_drop] at *
    omega
  · exact Nat.le_trans (drop _ _) spaces

def withoutStampsFrom (done : List Char) (cs : List Char) : List Char :=
  match cs with
  | [] => done.reverse
  | c :: rest =>
    if stampKey.isPrefixOf (c :: rest) then
      withoutStampsFrom ('0' :: stampKey.reverse ++ done)
        (afterStamp (rest.drop (stampKey.length - 1)))
    else withoutStampsFrom (c :: done) rest
termination_by cs.length
decreasing_by
  · have := length_afterStamp_le (rest.drop (stampKey.length - 1))
    simp only [List.length_drop, List.length_cons] at *
    omega
  · simp

def withoutStamps (text : String) : String :=
  String.ofList (withoutStampsFrom [] text.toList)

end PlatformRules.Text
