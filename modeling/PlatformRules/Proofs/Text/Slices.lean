import PlatformRules.Token.Basic

namespace PlatformRules

namespace Text

theorem utf8ByteSize_ofList (cs : List Char) : (String.ofList cs).utf8ByteSize = byteLength cs := by
  induction cs with
  | nil => rfl
  | cons c cs ih =>
    have happend : String.ofList (c :: cs) = String.singleton c ++ String.ofList cs := by
      rw [String.singleton_eq_ofList, ← String.ofList_append, List.singleton_append]
    rw [happend, String.utf8ByteSize_append, String.utf8ByteSize_singleton, ih, byteLength_cons]

theorem utf8ByteSize_eq (text : String) : text.utf8ByteSize = byteLength text.toList := by
  rw [← utf8ByteSize_ofList, String.ofList_toList]

theorem byteLength_replicate (n : Nat) (c : Char) :
    byteLength (List.replicate n c) = n * c.utf8Size := by
  induction n with
  | zero => simp
  | succ n ih => rw [List.replicate_succ, byteLength_cons, ih, Nat.succ_mul, Nat.add_comm]

theorem splitWithin_byteLength (part rest : List Char) :
    splitWithin (byteLength part) (part ++ rest) = (part, rest) := by
  induction part with
  | nil =>
    cases rest with
    | nil => rfl
    | cons c rest =>
      have hc := c.utf8Size_pos
      rw [List.nil_append, splitWithin_cons, byteLength_nil, if_neg (by omega)]
  | cons c part ih =>
    rw [List.cons_append, splitWithin_cons, byteLength_cons, if_pos (by omega),
      Nat.add_sub_cancel_left, ih]

theorem splitAt?_byteLength (part rest : List Char) :
    splitAt? (byteLength part) (part ++ rest) = some (part, rest) := by
  simp [splitAt?, splitWithin_byteLength]

end Text

open Text

def StandsAt (source : List Char) (start : Nat) (part : List Char) : Prop :=
  ∃ front back, source = front ++ part ++ back ∧ byteLength front = start

namespace StandsAt

variable {source part a b : List Char} {start : Nat}

theorem prefixOf (part back : List Char) : StandsAt (part ++ back) 0 part :=
  ⟨[], back, rfl, rfl⟩

theorem left (h : StandsAt source start (a ++ b)) : StandsAt source start a := by
  obtain ⟨front, back, rfl, hf⟩ := h
  exact ⟨front, b ++ back, by simp, hf⟩

theorem right (h : StandsAt source start (a ++ b)) : StandsAt source (start + byteLength a) b := by
  obtain ⟨front, back, rfl, hf⟩ := h
  exact ⟨front ++ a, back, by simp, by simp [hf]⟩

theorem slice (h : StandsAt source start part) :
    (⟨start, start + byteLength part⟩ : ByteRange).slice source = part := by
  obtain ⟨front, back, rfl, rfl⟩ := h
  rw [ByteRange.slice, if_neg (by simp), List.append_assoc]
  simp only [splitAt?_byteLength, Nat.add_sub_cancel_left]

end StandsAt

end PlatformRules
