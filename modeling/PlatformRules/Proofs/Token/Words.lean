import PlatformRules.Token.Vocabulary
import PlatformRules.Proofs.Text.Decimal
import PlatformRules.Proofs.Text.Runs

namespace PlatformRules

open Text

def IsNameOf (names : List String) (w : List Char) : Prop :=
  ∃ n ∈ names, n.toList = w.map Char.toLower

def IsFieldWord (w : List Char) : Prop :=
  IsWord w ∧ w.head? ≠ some '"'

namespace Text

theorem isBlank_of_visible {c : Char} (h : 0x21 ≤ c.toNat) (h' : c.toNat ≤ 0x7e) :
    isBlank c = false := by
  simp only [isBlank, inRanges, blankRanges, List.any_cons, List.any_nil, Bool.or_false,
    Bool.or_eq_false_iff, Bool.and_eq_false_iff, decide_eq_false_iff_not]
  omega

theorem blankRanges_disjoint : ∀ r ∈ blankRanges, ∀ q ∈ alphanumericRanges,
    r.2 < q.1 ∨ q.2 < r.1 := by
  have hall : (blankRanges.all fun r => alphanumericRanges.all fun q =>
      r.2.blt q.1 || q.2.blt r.1) = true := by
    decide +kernel
  simpa using hall

theorem visible_of_isAlphanum {c : Char} (h : c.isAlphanum = true) :
    0x21 ≤ c.toNat ∧ c.toNat ≤ 0x7e := by
  change ((decide (65 ≤ c.toNat ∧ c.toNat ≤ 90) ||
    (decide (97 ≤ c.toNat) && decide (c.toNat ≤ 122))) ||
    (decide (48 ≤ c.toNat) && decide (c.toNat ≤ 57))) = true at h
  simp only [Bool.or_eq_true, Bool.and_eq_true, decide_eq_true_eq] at h
  omega

theorem isBlank_of_isAlphanumeric {c : Char} (h : isAlphanumeric c = true) : isBlank c = false := by
  rw [isAlphanumeric, Bool.or_eq_true] at h
  rcases h with h | h
  · obtain ⟨hlow, hhigh⟩ := visible_of_isAlphanum h
    exact isBlank_of_visible hlow hhigh
  · obtain ⟨q, hq, hc⟩ := List.any_eq_true.1 h
    rw [Bool.and_eq_true, decide_eq_true_eq, decide_eq_true_eq] at hc
    rw [← Bool.not_eq_true, isBlank_iff]
    rintro ⟨r, hr, hlow, hhigh⟩
    have := blankRanges_disjoint r hr q hq
    omega

theorem toNat_toLower (c : Char) :
    c.toLower.toNat = if 65 ≤ c.toNat ∧ c.toNat ≤ 90 then c.toNat + 32 else c.toNat := by
  have hiff : (c.val ≥ 'A'.val ∧ c.val ≤ 'Z'.val) ↔ 65 ≤ c.toNat ∧ c.toNat ≤ 90 := Iff.rfl
  unfold Char.toLower
  split
  · next h =>
    have hc := hiff.1 h
    rw [if_pos hc]
    change (c.val + 32).toNat = c.val.toNat + 32
    rw [UInt32.toNat_add]
    have : c.val.toNat = c.toNat := rfl
    simp
    omega
  · next h => rw [if_neg (fun hc => h (hiff.2 hc))]

end Text

theorem isFieldWord_of_visible {w : List Char} (hne : w ≠ [])
    (h : ∀ c ∈ w, 0x21 ≤ c.toNat ∧ c.toNat ≠ 0x22 ∧ c.toNat ≤ 0x7e) : IsFieldWord w := by
  refine ⟨⟨hne, fun c hc => isBlank_of_visible (h c hc).1 (h c hc).2.2⟩, ?_⟩
  intro hq
  have hmem : '"' ∈ w := List.mem_of_mem_head? hq
  exact (h '"' hmem).2.1 rfl

theorem IsInteger.isFieldWord {w : List Char} (h : IsInteger w) : IsFieldWord w := by
  obtain ⟨n, ⟨sign, digits, rfl, hsign, hne, hd, -⟩, -⟩ := h
  apply isFieldWord_of_visible (by simp [hne])
  intro c hc
  rcases List.mem_append.1 hc with hc | hc
  · rcases hsign with rfl | rfl | rfl
    · simp at hc
    · obtain rfl := List.mem_singleton.1 hc
      decide
    · obtain rfl := List.mem_singleton.1 hc
      decide
  · obtain ⟨h0, h9⟩ := Char.isDigit_iff_toNat.1 (hd c hc)
    rw [show '0'.toNat = 48 from rfl] at h0
    rw [show '9'.toNat = 57 from rfl] at h9
    omega

theorem IsInteger.head_lt {w : List Char} (h : IsInteger w) : ∃ c ∈ w.head?, c.toLower.toNat < 0x61 := by
  obtain ⟨n, ⟨sign, digits, rfl, hsign, hne, hd, -⟩, -⟩ := h
  rcases hsign with rfl | rfl | rfl
  · obtain ⟨d, digits, rfl⟩ := List.exists_cons_of_ne_nil hne
    refine ⟨d, rfl, ?_⟩
    obtain ⟨-, h9⟩ := Char.isDigit_iff_toNat.1 (hd d (by simp))
    rw [show '9'.toNat = 57 from rfl] at h9
    rw [toNat_toLower]
    split <;> omega
  · exact ⟨'+', rfl, by decide⟩
  · exact ⟨'-', rfl, by decide⟩

theorem Comparator.ofText?_eq_some_iff {c : Comparator} {w : List Char} :
    ofText? w = some c ↔ w = c.symbol.toList := by
  constructor
  · intro h
    have hc := List.find?_some h
    exact (eq_of_beq hc).symm
  · rintro rfl
    cases c <;> decide

theorem Operator.ofText?_eq_some_iff {o : Operator} {w : List Char} :
    ofText? w = some o ↔ w = o.symbol.toList := by
  constructor
  · intro h
    have ho := List.find?_some h
    exact (eq_of_beq ho).symm
  · rintro rfl
    cases o <;> decide

namespace Vocabulary

theorem isWordOf_iff {names : List String} {w : List Char} : isWordOf names w ↔ IsNameOf names w := by
  simp [isWordOf, IsNameOf]

theorem names_spelling : ∀ n ∈ systems ++ architectures,
    (∃ c ∈ n.toList.head?, 0x61 ≤ c.toNat) ∧ ∀ c ∈ n.toList, 0x30 ≤ c.toNat ∧ c.toNat ≤ 0x7a := by
  have hfirst : ∀ n ∈ systems ++ architectures,
      n.toList.head?.any (fun c => decide (0x61 ≤ c.toNat)) = true := by decide
  have hall : ∀ n ∈ systems ++ architectures,
      n.toList.all (fun c => decide (0x30 ≤ c.toNat ∧ c.toNat ≤ 0x7a)) = true := by decide
  intro n hn
  refine ⟨?_, forall_of_all (hall n hn)⟩
  obtain ⟨c, hc, hle⟩ := (Option.any_eq_true _ _).1 (hfirst n hn)
  exact ⟨c, hc, of_decide_eq_true hle⟩

variable {names : List String} {w : List Char} (hnames : names ⊆ systems ++ architectures)
include hnames

theorem isFieldWord_of_isNameOf (h : IsNameOf names w) : IsFieldWord w := by
  obtain ⟨n, hn, hw⟩ := h
  obtain ⟨⟨d, hd, -⟩, hspelling⟩ := names_spelling n (hnames hn)
  apply isFieldWord_of_visible
  · rintro rfl
    simp [hw] at hd
  · intro c hc
    have hlower : c.toLower ∈ n.toList := hw ▸ List.mem_map_of_mem hc
    have := hspelling _ hlower
    rw [toNat_toLower] at this
    split at this <;> omega

theorem not_isNameOf_of_isInteger (hw : IsInteger w) : ¬IsNameOf names w := by
  rintro ⟨n, hn, heq⟩
  obtain ⟨c, hc, hlt⟩ := hw.head_lt
  obtain ⟨⟨d, hd, hle⟩, -⟩ := names_spelling n (hnames hn)
  rw [heq, List.head?_map, hc] at hd
  obtain rfl : c.toLower = d := by simpa using hd
  omega

omit hnames

theorem isSystem_iff : isSystem w ↔ IsNameOf systems w := isWordOf_iff

theorem isArchitecture_iff : isArchitecture w ↔ IsNameOf architectures w := isWordOf_iff

theorem isSome_version?_iff : (version? w).isSome ↔ IsInteger w := readInt32?_isSome_iff

theorem systems_subset : systems ⊆ systems ++ architectures := by simp

theorem architectures_subset : architectures ⊆ systems ++ architectures := by simp

theorem not_isArchitecture_of_isSystem (h : isSystem w) : ¬isArchitecture w := by
  have hdisjoint : ∀ s ∈ systems, ∀ a ∈ architectures, s.toList ≠ a.toList := by decide
  intro ha
  obtain ⟨s, hs, hsw⟩ := isSystem_iff.1 h
  obtain ⟨a, ha, haw⟩ := isArchitecture_iff.1 ha
  exact hdisjoint s hs a ha (hsw.trans haw.symm)

theorem not_isName_of_isSome_version? (h : (version? w).isSome) : ¬isSystem w ∧ ¬isArchitecture w := by
  rw [isSome_version?_iff] at h
  rw [isSystem_iff, isArchitecture_iff]
  exact ⟨not_isNameOf_of_isInteger systems_subset h,
    not_isNameOf_of_isInteger architectures_subset h⟩

end Vocabulary

namespace Token.Kind

open Vocabulary

variable {w : List Char}

theorem ofWord_wildcardWord : ofWord wildcardWord.toList = wildcard := by decide

theorem ofWord_definedWord : ofWord definedWord.toList = defined := by decide

theorem ofWord_symbol (c : Comparator) : ofWord c.symbol.toList = comparator c := by
  cases c <;> decide

theorem ofOperatorWord_symbol (o : Operator) : ofOperatorWord o.symbol.toList = operator o := by
  cases o <;> decide

theorem ofOperatorWord_cases (w : List Char) :
    (∃ o : Operator, w = o.symbol.toList) ∨ ofOperatorWord w = undefined := by
  unfold ofOperatorWord
  split
  · next o h => exact .inl ⟨o, Operator.ofText?_eq_some_iff.1 h⟩
  · exact .inr rfl

theorem ne_placeholder {p : List Char → Bool}
    (hp : p wildcardWord.toList = false ∧ p definedWord.toList = false) (h : p w = true) :
    w ≠ wildcardWord.toList ∧ w ≠ definedWord.toList := by
  constructor
  · rintro rfl
    simp [hp.1] at h
  · rintro rfl
    simp [hp.2] at h

theorem ofWord_of_isSystem (h : isSystem w) : ofWord w = system := by
  obtain ⟨hany, hdefined⟩ := ne_placeholder (p := isSystem) (by decide) h
  rw [ofWord, if_neg hany, if_neg hdefined, if_pos h]

theorem ofWord_of_isArchitecture (h : isArchitecture w) : ofWord w = architecture := by
  obtain ⟨hany, hdefined⟩ := ne_placeholder (p := isArchitecture) (by decide) h
  have hsystem : ¬isSystem w := fun hs => not_isArchitecture_of_isSystem hs h
  rw [ofWord, if_neg hany, if_neg hdefined, if_neg hsystem, if_pos h]

theorem ofWord_of_isSome_version? (h : (version? w).isSome) : ofWord w = version := by
  obtain ⟨hany, hdefined⟩ :=
    ne_placeholder (p := fun w => (version? w).isSome) (by decide) h
  obtain ⟨hsystem, harch⟩ := not_isName_of_isSome_version? h
  rw [ofWord, if_neg hany, if_neg hdefined, if_neg hsystem, if_neg harch, if_pos h]

def Reads (w : List Char) : Kind → Prop
  | wildcard => w = wildcardWord.toList
  | defined => w = definedWord.toList
  | system => isSystem w
  | architecture => isArchitecture w
  | version => (version? w).isSome
  | comparator c => w = c.symbol.toList
  | undefined => True
  | _ => False

theorem reads_ofWord (w : List Char) : (ofWord w).Reads w := by
  unfold ofWord
  split
  · next h => exact h
  split
  · next h => exact h
  split
  · next h => exact h
  split
  · next h => exact h
  split
  · next h => exact h
  split
  · next c h => exact Comparator.ofText?_eq_some_iff.1 h
  · trivial

theorem reads_of_ofWord_eq {k : Kind} (h : ofWord w = k) : k.Reads w :=
  h ▸ reads_ofWord w

theorem isSystem_iff_ofWord : isSystem w ↔ ofWord w = system :=
  ⟨ofWord_of_isSystem, reads_of_ofWord_eq⟩

theorem isArchitecture_iff_ofWord : isArchitecture w ↔ ofWord w = architecture :=
  ⟨ofWord_of_isArchitecture, reads_of_ofWord_eq⟩

theorem isSome_version?_iff_ofWord : (version? w).isSome ↔ ofWord w = version :=
  ⟨ofWord_of_isSome_version?, reads_of_ofWord_eq⟩

theorem isPlaceholder_ofWord_iff :
    (ofWord w).isPlaceholder ↔ w = wildcardWord.toList ∨ w = definedWord.toList := by
  constructor
  · intro h
    have hw := reads_ofWord w
    cases hk : ofWord w <;> rw [hk] at h hw <;> simp_all [isPlaceholder, Reads]
  · rintro (rfl | rfl) <;> decide

theorem ofWord_ne_value : ofWord w ≠ value := by
  intro h
  exact reads_of_ofWord_eq h

end Token.Kind

end PlatformRules
