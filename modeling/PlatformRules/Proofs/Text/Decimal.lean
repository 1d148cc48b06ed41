import Mathlib.Data.List.Induction
import PlatformRules.Text.Integer

namespace PlatformRules

open Text

def IsInt32 (n : Int) : Prop :=
  -2147483648 ≤ n ∧ n ≤ 2147483647

def Spells (w : List Char) (n : Int) : Prop :=
  ∃ sign digits, w = sign ++ digits ∧ (sign = [] ∨ sign = ['+'] ∨ sign = ['-']) ∧
    digits ≠ [] ∧ (∀ c ∈ digits, c.isDigit) ∧
    n = if sign = ['-'] then -(digitsValue digits : Int) else digitsValue digits

def IsInteger (w : List Char) : Prop :=
  ∃ n, Spells w n ∧ IsInt32 n

namespace Text

theorem isInt32_toInt (k : Int32) : IsInt32 k.toInt := by
  have hle := k.le_toInt
  have hlt := k.toInt_lt
  unfold IsInt32
  omega

theorem toInt32?_eq_some_iff {n : Int} {k : Int32} : toInt32? n = some k ↔ n = k.toInt := by
  unfold toInt32?
  constructor
  · intro h
    split at h
    · next hn =>
      obtain rfl := Option.some.inj h
      exact (Int32.toInt_ofInt_of_le (by omega) (by omega)).symm
    · simp at h
  · rintro rfl
    have := isInt32_toInt k
    unfold IsInt32 at this
    rw [if_pos this, Int32.ofInt_toInt]

theorem readDigits?_bind_eq_some_iff {cs : List Char} {f : Nat → Option Int32} {k : Int32} :
    (readDigits? cs).bind f = some k ↔
      cs ≠ [] ∧ (∀ c ∈ cs, c.isDigit) ∧ f (digitsValue cs) = some k := by
  simp only [readDigits?, List.all_eq_true]
  by_cases h : cs ≠ [] ∧ ∀ c ∈ cs, c.isDigit
  · rw [if_pos h, Option.bind_some]
    exact ⟨fun hf => ⟨h.1, h.2, hf⟩, fun hf => hf.2.2⟩
  · rw [if_neg h, Option.bind_none]
    exact ⟨fun hf => by simp at hf, fun hf => absurd ⟨hf.1, hf.2.1⟩ h⟩

theorem splitSign_of_isDigit {digits : List Char} (h : ∀ c ∈ digits, c.isDigit) :
    splitSign digits = (false, digits) := by
  cases digits with
  | nil => rfl
  | cons c digits =>
    have hc := h c (by simp)
    unfold splitSign
    split
    · next heq =>
      obtain ⟨rfl, -⟩ := List.cons.inj heq
      exact absurd hc (by decide)
    · next heq =>
      obtain ⟨rfl, -⟩ := List.cons.inj heq
      exact absurd hc (by decide)
    · rfl

theorem spells_iff {w : List Char} {n : Int} : Spells w n ↔
    (splitSign w).2 ≠ [] ∧ (∀ c ∈ (splitSign w).2, c.isDigit) ∧
      n = if (splitSign w).1 then -(digitsValue (splitSign w).2 : Int)
        else digitsValue (splitSign w).2 := by
  constructor
  · rintro ⟨sign, digits, rfl, rfl | rfl | rfl, hne, hd, hn⟩
    · rw [List.nil_append, splitSign_of_isDigit hd]
      exact ⟨hne, hd, by simpa using hn⟩
    · exact ⟨hne, hd, by simpa [splitSign] using hn⟩
    · exact ⟨hne, hd, by simpa [splitSign] using hn⟩
  · unfold splitSign
    split
    · next digits =>
      rintro ⟨hne, hd, hn⟩
      exact ⟨['-'], digits, rfl, .inr (.inr rfl), hne, hd, by simpa using hn⟩
    · next digits =>
      rintro ⟨hne, hd, hn⟩
      exact ⟨['+'], digits, rfl, .inr (.inl rfl), hne, hd, by simpa using hn⟩
    · rintro ⟨hne, hd, hn⟩
      exact ⟨[], w, rfl, .inl rfl, hne, hd, by simpa using hn⟩

theorem readInt32?_eq_some_iff {w : List Char} {k : Int32} :
    readInt32? w = some k ↔ Spells w k.toInt := by
  rw [spells_iff, readInt32?]
  simp only [readDigits?_bind_eq_some_iff, toInt32?_eq_some_iff]
  constructor
  · rintro ⟨hne, hd, hn⟩
    exact ⟨hne, hd, hn.symm⟩
  · rintro ⟨hne, hd, hn⟩
    exact ⟨hne, hd, hn.symm⟩

theorem spells_unique {w : List Char} {n k : Int} (hn : Spells w n) (hk : Spells w k) : n = k :=
  (spells_iff.1 hn).2.2.trans (spells_iff.1 hk).2.2.symm

theorem readInt32?_isSome_iff {w : List Char} : (readInt32? w).isSome ↔ IsInteger w := by
  rw [Option.isSome_iff_exists]
  constructor
  · rintro ⟨k, hk⟩
    exact ⟨k.toInt, readInt32?_eq_some_iff.1 hk, isInt32_toInt k⟩
  · rintro ⟨n, hn, hlow, hhigh⟩
    have hk := Int32.toInt_ofInt_of_le (n := n) (by omega) (by omega)
    exact ⟨Int32.ofInt n, readInt32?_eq_some_iff.2 (hk.symm ▸ hn)⟩

end Text

namespace Decimal

theorem digitsValue_concat (ds : List Char) (d : Char) :
    digitsValue (ds ++ [d]) = 10 * digitsValue ds + (d.toNat - '0'.toNat) := by
  simp [digitsValue]

theorem toDigits_of_isDigit {d : Char} (hd : d.isDigit) :
    d.toNat - '0'.toNat < 10 ∧ Nat.toDigits 10 (d.toNat - '0'.toNat) = [d] := by
  obtain ⟨h0, h9⟩ := Char.isDigit_iff_toNat.1 hd
  have hzero : '0'.toNat = 48 := rfl
  have hnine : '9'.toNat = 57 := rfl
  have hlt : d.toNat - '0'.toNat < 10 := by omega
  refine ⟨hlt, ?_⟩
  rw [Nat.toDigits_of_lt_base hlt]
  have hchar : (d.toNat - '0'.toNat).digitChar = d := by
    rw [← Char.toNat_inj, Nat.toNat_digitChar_of_lt_ten hlt]
    omega
  rw [hchar]

theorem toDigits_digitsValue {ds : List Char} (hne : ds ≠ []) (hds : ∀ c ∈ ds, c.isDigit)
    (hhead : ds.head? ≠ some '0') : 0 < digitsValue ds ∧ Nat.toDigits 10 (digitsValue ds) = ds := by
  induction ds using List.reverseRecOn with
  | nil => exact absurd rfl hne
  | append_singleton es d ih =>
    have hd : d.isDigit := hds d (by simp)
    obtain ⟨hlt, hdigit⟩ := toDigits_of_isDigit hd
    rw [digitsValue_concat]
    by_cases hes : es = []
    · subst hes
      have hd0 : d ≠ '0' := fun h => hhead (by rw [h]; rfl)
      have hpos : 0 < d.toNat - '0'.toNat := by
        obtain ⟨h0, -⟩ := Char.isDigit_iff_toNat.1 hd
        have : d.toNat ≠ '0'.toNat := fun h => hd0 (Char.toNat_inj.1 h)
        omega
      exact ⟨by omega, by simpa [digitsValue] using hdigit⟩
    · have hhead' : es.head? ≠ some '0' := by
        obtain ⟨c, cs, rfl⟩ := List.exists_cons_of_ne_nil hes
        exact hhead
      obtain ⟨hpos, hes'⟩ := ih hes (fun c hc => hds c (by simp [hc])) hhead'
      refine ⟨by omega, ?_⟩
      rw [← Nat.toDigits_append_toDigits (by decide) hpos hlt, hes', hdigit]

theorem head?_toDigits {n : Nat} (hn : 0 < n) : (Nat.toDigits 10 n).head? ≠ some '0' := by
  induction n using Nat.strongRecOn with
  | _ n ih =>
    rw [Nat.toDigits_eq_if (by decide)]
    split
    · simp
      omega
    · have hdiv : 0 < n / 10 := by omega
      have hrest := ih (n / 10) (by omega) hdiv
      obtain ⟨c, cs, hcs⟩ := List.exists_cons_of_ne_nil (Nat.toDigits_ne_nil (n := n / 10) (b := 10))
      rw [hcs] at hrest ⊢
      exact hrest

theorem digitsValue_toDigits (n : Nat) : digitsValue (Nat.toDigits 10 n) = n :=
  Nat.ofDigitChars_ten_toDigits

theorem isDigit_toDigits (n : Nat) : ∀ c ∈ Nat.toDigits 10 n, c.isDigit :=
  fun _ hc => Nat.isDigit_of_mem_toDigits (by decide) (by decide) hc

theorem toList_repr (n : Int) : n.repr.toList =
    if 0 ≤ n then Nat.toDigits 10 n.toNat else '-' :: Nat.toDigits 10 (-n).toNat := by
  rw [Int.repr_eq_if]
  split <;> simp

structure IsNumeral (ds : List Char) : Prop where
  ne_nil : ds ≠ []
  isDigit : ∀ c ∈ ds, c.isDigit
  head?_ne : ds.head? ≠ some '0'

/-- The integer as it is ordinarily written: with a minus sign if it is negative, and with no plus
sign and no leading zeros. -/
inductive Writes : List Char → Int → Prop
  | zero : Writes ['0'] 0
  | positive {ds : List Char} (h : IsNumeral ds) : Writes ds (digitsValue ds)
  | negative {ds : List Char} (h : IsNumeral ds) : Writes ('-' :: ds) (-(digitsValue ds : Int))

theorem isNumeral_toDigits {k : Nat} (hk : 0 < k) : IsNumeral (Nat.toDigits 10 k) :=
  ⟨Nat.toDigits_ne_nil, isDigit_toDigits k, head?_toDigits hk⟩

theorem writes_toDigits {k : Nat} (hk : 0 < k) : Writes (Nat.toDigits 10 k) k := by
  have hwrites := Writes.positive (isNumeral_toDigits hk)
  rwa [digitsValue_toDigits] at hwrites

theorem writes_minus_toDigits {k : Nat} (hk : 0 < k) : Writes ('-' :: Nat.toDigits 10 k) (-k) := by
  have hwrites := Writes.negative (isNumeral_toDigits hk)
  rwa [digitsValue_toDigits] at hwrites

theorem writes_iff {w : List Char} {n : Int} : Writes w n ↔ w = n.repr.toList := by
  rw [toList_repr]
  constructor
  · rintro (_ | ⟨hne, hdigits, hhead⟩ | ⟨hne, hdigits, hhead⟩)
    · rfl
    · have htext := (toDigits_digitsValue hne hdigits hhead).2
      rw [if_pos (Int.natCast_nonneg _), Int.toNat_natCast, htext]
    · obtain ⟨hpos, htext⟩ := toDigits_digitsValue hne hdigits hhead
      rw [if_neg (by omega), Int.neg_neg, Int.toNat_natCast, htext]
  · rintro rfl
    rcases Int.lt_trichotomy n 0 with hneg | rfl | hpos
    · obtain ⟨k, rfl⟩ : ∃ k : Nat, n = -k := ⟨(-n).toNat, by omega⟩
      rw [if_neg (by omega), Int.neg_neg, Int.toNat_natCast]
      exact writes_minus_toDigits (by omega)
    · exact .zero
    · obtain ⟨k, rfl⟩ := Int.eq_ofNat_of_zero_le (Int.le_of_lt hpos)
      rw [if_pos (Int.natCast_nonneg _), Int.toNat_natCast]
      exact writes_toDigits (by omega)

end Decimal

end PlatformRules
