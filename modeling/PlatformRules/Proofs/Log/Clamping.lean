import PlatformRules.Log.Clamp
import PlatformRules.Proofs.Log.Reports
import PlatformRules.Proofs.Text.Encoding
import PlatformRules.Proofs.Text.Marked

namespace PlatformRules

namespace Text

variable {n : Nat} {cs more : List Char} {c : Char}

theorem lt_of_splitWithin (h : (splitWithin n cs).2 = c :: more) :
    n < byteLength (splitWithin n cs).1 + c.utf8Size := by
  by_contra hle
  -- with one more character there would be a boundary further on, still within the limit
  have hboundary : IsBoundary (byteLength ((splitWithin n cs).1 ++ [c])) cs := by
    refine ⟨_, more, ?_, rfl⟩
    rw [List.append_assoc, List.singleton_append, ← h, splitWithin_append]
  have hsize : byteLength ((splitWithin n cs).1 ++ [c]) =
      byteLength (splitWithin n cs).1 + c.utf8Size := by simp
  have hgreatest := (isGreatest_splitWithin n cs).2 ⟨hboundary, by omega⟩
  have hpositive := c.utf8Size_pos
  omega

theorem le_splitWithin_add (h : n < byteLength cs) :
    n ≤ byteLength (splitWithin n cs).1 + 3 := by
  cases hrest : (splitWithin n cs).2 with
  | nil =>
    have hle := byteLength_splitWithin_le n cs
    have hall := splitWithin_append n cs
    rw [hrest, List.append_nil] at hall
    rw [hall] at hle
    omega
  | cons c more =>
    -- at least one of its four bytes is behind the limit
    have hlt := lt_of_splitWithin hrest
    have hfour := c.utf8Size_le_four
    omega

theorem isBoundary_or (n : Nat) (cs : List Char) : IsBoundary n cs ∨ byteLength cs < n ∨
    ∃ front c back k, cs = front ++ c :: back ∧ n = byteLength front + k ∧ 0 < k ∧
      k < c.utf8Size := by
  have hcut := splitWithin_append n cs
  obtain ⟨k, hk⟩ := Nat.exists_eq_add_of_le (byteLength_splitWithin_le n cs)
  rcases Nat.eq_zero_or_pos k with rfl | hpositive
  · exact .inl ⟨_, _, hcut.symm, hk.symm⟩
  · right
    cases hrest : (splitWithin n cs).2 with
    | nil =>
      left
      rw [hrest, List.append_nil] at hcut
      rw [hcut] at hk
      omega
    | cons c more =>
      right
      have hlt := lt_of_splitWithin hrest
      exact ⟨_, c, more, k, by rw [← hrest, hcut], hk, hpositive, by omega⟩

end Text

open Text

namespace Utf8

variable {a : UInt8} {bytes behind : List UInt8} {code offset : Nat} {cs : List Char}

theorem isContinuation_of_isSecond {b : UInt8} (h : isSecond a b = true) :
    isContinuation b = true :=
  isContinuation_iff.2 (isSecond_iff.1 h).1

theorem not_isContinuation (h : a.toNat < 128 ∨ 192 ≤ a.toNat) : isContinuation a = false := by
  rw [Bool.eq_false_iff, ne_eq, isContinuation_iff]
  omega

theorem isContinuation_of_form (h : Form (a :: behind) code) :
    isContinuation a = false ∧ ∀ b ∈ behind, isContinuation b = true := by
  cases h with
  | one ha => exact ⟨not_isContinuation (.inl ha), by simp⟩
  | two ha hb => exact ⟨not_isContinuation (by omega), by simp [isContinuation_of_isSecond hb]⟩
  | three ha hb hc =>
    exact ⟨not_isContinuation (by omega), by simp [isContinuation_of_isSecond hb, hc]⟩
  | four ha hb hc hd =>
    exact ⟨not_isContinuation (by omega), by simp [isContinuation_of_isSecond hb, hc, hd]⟩

theorem exists_encodeChar_eq (c : Char) : ∃ a behind, String.utf8EncodeChar c = a :: behind ∧
    isContinuation a = false ∧ ∀ b ∈ behind, isContinuation b = true := by
  obtain ⟨a, behind, hc⟩ := List.exists_cons_of_ne_nil (String.utf8EncodeChar_ne_nil (c := c))
  exact ⟨a, behind, hc, isContinuation_of_form (hc ▸ form_encode c)⟩

theorem length_flatMap_encodeChar (cs : List Char) :
    (cs.flatMap String.utf8EncodeChar).length = byteLength cs := by
  induction cs with
  | nil => rfl
  | cons c cs ih =>
    rw [List.flatMap_cons, List.length_append, String.length_utf8EncodeChar, ih, byteLength_cons]

theorem length_encode (text : String) : (encode text).length = text.utf8ByteSize := by
  rw [encode, length_flatMap_encodeChar, utf8ByteSize_eq]

theorem getElem?_flatMap (front back : List Char) (offset : Nat) :
    ((front ++ back).flatMap String.utf8EncodeChar)[byteLength front + offset]? =
      (back.flatMap String.utf8EncodeChar)[offset]? := by
  rw [List.flatMap_append, ← length_flatMap_encodeChar front, List.getElem?_append_right (by omega),
    Nat.add_sub_cancel_left]

theorem isBoundary_byteLength (front back : List Char) :
    isBoundary (byteLength front) ((front ++ back).flatMap String.utf8EncodeChar) = true := by
  have hbyte := getElem?_flatMap front back 0
  rw [Nat.add_zero] at hbyte
  rw [isBoundary, hbyte]
  cases back with
  | nil => rw [List.append_nil, length_flatMap_encodeChar]; simp
  | cons c back =>
    obtain ⟨a, behind, hc, ha, -⟩ := exists_encodeChar_eq c
    simp [hc, ha]

theorem not_isBoundary_inside {front back : List Char} {c : Char} (hpositive : 0 < offset)
    (hlt : offset < c.utf8Size) :
    isBoundary (byteLength front + offset)
      ((front ++ c :: back).flatMap String.utf8EncodeChar) = false := by
  obtain ⟨a, behind, hc, -, hbehind⟩ := exists_encodeChar_eq c
  have hlength : behind.length + 1 = c.utf8Size := by
    rw [← String.length_utf8EncodeChar, hc, List.length_cons]
  obtain ⟨k, rfl⟩ := Nat.exists_eq_succ_of_ne_zero hpositive.ne'
  have hk : k < behind.length := by omega
  have hbyte : ((c :: back).flatMap String.utf8EncodeChar)[k + 1]? = some behind[k] := by
    rw [List.flatMap_cons, hc, List.cons_append, List.getElem?_cons_succ,
      List.getElem?_append_left hk, List.getElem?_eq_getElem hk]
  rw [isBoundary, getElem?_flatMap, hbyte]
  simp [hbehind behind[k] (List.getElem_mem hk)]

theorem not_isBoundary_behind (h : byteLength cs < offset) :
    isBoundary offset (cs.flatMap String.utf8EncodeChar) = false := by
  have hlength := length_flatMap_encodeChar cs
  rw [isBoundary, List.getElem?_eq_none (by omega), hlength]
  simp only [Bool.or_eq_false_iff, beq_eq_false_iff_ne]
  omega

theorem isBoundary_flatMap_iff :
    isBoundary offset (cs.flatMap String.utf8EncodeChar) = true ↔ IsBoundary offset cs := by
  constructor
  · intro h
    rcases isBoundary_or offset cs with hboundary | hbehind | ⟨front, c, back, k, rfl, rfl, hk, hlt⟩
    · exact hboundary
    · rw [not_isBoundary_behind hbehind] at h
      cases h
    · rw [not_isBoundary_inside hk hlt] at h
      cases h
  · rintro ⟨front, back, rfl, rfl⟩
    exact isBoundary_byteLength front back

theorem exists_stepBack? (bytes : List UInt8) (n : Nat) : ∃ stop, stepBack? bytes n = some stop ∧
    IsGreatest {k | isBoundary k bytes = true ∧ k ≤ n} stop := by
  induction n with
  | zero =>
    -- whatever the bytes are, zero is a boundary, and it is not passed
    exact ⟨0, rfl, ⟨rfl, Nat.le_refl 0⟩, fun k hk => hk.2⟩
  | succ n ih =>
    rw [stepBack?]
    by_cases hboundary : isBoundary (n + 1) bytes = true
    · exact ⟨n + 1, if_pos hboundary, ⟨hboundary, Nat.le_refl _⟩, fun k hk => hk.2⟩
    · obtain ⟨stop, hstop, hgreatest⟩ := ih
      refine ⟨stop, ?_, isGreatest_le_succ hboundary hgreatest⟩
      rw [if_neg hboundary]
      exact hstop

theorem isGreatest_isBoundary (cs : List Char) (n : Nat) :
    IsGreatest {k | isBoundary k (cs.flatMap String.utf8EncodeChar) = true ∧ k ≤ n}
      (byteLength (splitWithin n cs).1) := by
  simp only [isBoundary_flatMap_iff]
  exact isGreatest_splitWithin n cs

theorem stepBack?_encode (text : String) (n : Nat) :
    stepBack? (encode text) n = some (byteLength (splitWithin n text.toList).1) := by
  obtain ⟨stop, hstop, hgreatest⟩ := exists_stepBack? (encode text) n
  rw [hstop, hgreatest.unique (isGreatest_isBoundary text.toList n)]

theorem before?_byteLength (front back : List Char) :
    before? (byteLength front) ((front ++ back).flatMap String.utf8EncodeChar) =
      some (front.flatMap String.utf8EncodeChar) := by
  rw [before?, if_pos (isBoundary_byteLength front back), List.flatMap_append,
    ← length_flatMap_encodeChar front, List.take_left]

end Utf8

open Utf8

section

variable [Limits]

theorem Clamps.isGreatest {message text : String} (h : Clamps message text) :
    IsGreatest {k | IsBoundary k text.toList ∧ k ≤ maxMessageLength} message.utf8ByteSize := by
  constructor
  · obtain ⟨back, hback⟩ := h.front
    exact ⟨⟨_, back, hback.symm, (utf8ByteSize_eq message).symm⟩, h.fits⟩
  · rintro _ ⟨⟨front, back, hcut, rfl⟩, hle⟩
    exact h.longest front ⟨back, hcut.symm⟩ hle

theorem Clamps.utf8ByteSize_eq_splitWithin {message text : String} (h : Clamps message text) :
    message.utf8ByteSize = byteLength (splitWithin maxMessageLength text.toList).1 :=
  h.isGreatest.unique (isGreatest_splitWithin _ _)

theorem clampInPlace?_eq (text : String) : clampInPlace? text = some (clampMessage text) := by
  unfold clampInPlace? clampMessage
  simp only [length_encode]
  split
  · rfl
  · have hkept := before?_byteLength (splitWithin maxMessageLength text.toList).1
      (splitWithin maxMessageLength text.toList).2
    rw [splitWithin_append] at hkept
    rw [stepBack?_encode, Option.bind_eq_bind, Option.bind_some, encode, hkept,
      Option.bind_eq_bind, Option.bind_some, decode?_eq_some_iff, encode, String.toList_ofList]

/-- Clamping a text goes back from the limit to the last boundary within it, which is at most three
bytes away, and keeps what stands in front of that. A text within the limit is kept whole, and so
clamping again changes nothing. -/
theorem clampInPlace?_longest (text : String) : ∃ message,
    clampInPlace? text = some message ∧ clampMessage text = message ∧ Clamps message text ∧
    IsGreatest {k | isBoundary k (encode text) = true ∧ k ≤ maxMessageLength}
      message.utf8ByteSize ∧
    (text.utf8ByteSize ≤ maxMessageLength → message = text) ∧
    (maxMessageLength < text.utf8ByteSize →
      stepBack? (encode text) maxMessageLength = some message.utf8ByteSize ∧
        maxMessageLength ≤ message.utf8ByteSize + 3) ∧
    clampInPlace? message = some message := by
  have hclamps := clamps_clampMessage text
  have hsize := hclamps.utf8ByteSize_eq_splitWithin
  refine ⟨clampMessage text, clampInPlace?_eq text, rfl, hclamps, ?greatest, ?whole, ?cut, ?again⟩
  case greatest =>
    rw [hsize]
    exact isGreatest_isBoundary text.toList maxMessageLength
  case whole =>
    intro hfits
    rw [clampMessage, if_pos hfits]
  case cut =>
    intro hlong
    rw [utf8ByteSize_eq] at hlong
    rw [hsize]
    exact ⟨stepBack?_encode text maxMessageLength, le_splitWithin_add hlong⟩
  case again =>
    rw [clampInPlace?_eq, clampMessage, if_pos hclamps.fits]

end

theorem clampInPlace?_longest_emoji :
    let text := String.ofList ('x' :: List.replicate 1024 '😀')
    maxMessageLength < text.utf8ByteSize ∧ ∃ message,
      clampInPlace? text = some message ∧ message.utf8ByteSize + 3 = maxMessageLength := by
  intro text
  have hsize : text.utf8ByteSize = 4097 := by
    rw [utf8ByteSize_ofList, byteLength_cons, byteLength_replicate]
    rfl
  have hlong : maxMessageLength < text.utf8ByteSize := by
    rw [hsize]
    decide
  obtain ⟨message, hclamp, -, hclamps, -, -, hcut, -⟩ := clampInPlace?_longest text
  obtain ⟨-, hfree⟩ := hcut hlong
  refine ⟨hlong, message, hclamp, ?_⟩
  have hfits := hclamps.fits
  have hfront := hclamps.front
  rw [utf8ByteSize_eq] at hfree hfits ⊢
  rw [String.toList_ofList, List.prefix_cons_iff] at hfront
  have hlimit : maxMessageLength = 4096 := rfl
  rw [hlimit] at hfree hfits ⊢
  rcases hfront with hnil | ⟨emoji, hmessage, hemoji⟩
  · rw [hnil, byteLength_nil] at hfree
    omega
  · obtain ⟨-, hreplicate⟩ := List.prefix_replicate_iff.1 hemoji
    have hfour : byteLength message.toList = 1 + emoji.length * 4 := by
      rw [hmessage, hreplicate, byteLength_cons, byteLength_replicate, List.length_replicate]
      rfl
    omega

end PlatformRules
