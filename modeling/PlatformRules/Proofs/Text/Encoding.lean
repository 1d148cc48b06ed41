import Mathlib.Data.List.TakeWhile
import PlatformRules.Text.Utf8

namespace PlatformRules.Utf8

variable {a b : UInt8} {bytes behind rest : List UInt8} {c : Char} {n width : Nat}

theorem isContinuation_iff : isContinuation b = true ↔ 128 ≤ b.toNat ∧ b.toNat ≤ 191 := by
  simp [isContinuation, UInt8.le_iff_toNat_le]

theorem isSecond_iff : isSecond a b = true ↔ (128 ≤ b.toNat ∧ b.toNat ≤ 191) ∧
    (a.toNat = 0xe0 → 160 ≤ b.toNat) ∧ (a.toNat = 0xed → b.toNat ≤ 159) ∧
    (a.toNat = 0xf0 → 144 ≤ b.toNat) ∧ (a.toNat = 0xf4 → b.toNat ≤ 143) := by
  unfold isSecond isContinuation
  simp only [← UInt8.toNat_inj, UInt8.le_iff_toNat_le, UInt8.reduceToNat]
  grind

theorem width?_eq_some_iff : width? a = some width ↔
    width = 1 ∧ a.toNat < 128 ∨ width = 2 ∧ 194 ≤ a.toNat ∧ a.toNat ≤ 223 ∨
      width = 3 ∧ 224 ≤ a.toNat ∧ a.toNat ≤ 239 ∨ width = 4 ∧ 240 ≤ a.toNat ∧ a.toNat ≤ 244 := by
  unfold width?
  simp only [UInt8.le_iff_toNat_le, UInt8.lt_iff_toNat_lt, UInt8.reduceToNat]
  grind

inductive Form : List UInt8 → Nat → Prop
  | one {a : UInt8} (ha : a.toNat < 128) : Form [a] a.toNat
  | two {a b : UInt8} (ha : 194 ≤ a.toNat ∧ a.toNat ≤ 223) (hb : isSecond a b = true) :
    Form [a, b] (join (a.toNat % 32) [b])
  | three {a b c : UInt8} (ha : 224 ≤ a.toNat ∧ a.toNat ≤ 239) (hb : isSecond a b = true)
    (hc : isContinuation c = true) : Form [a, b, c] (join (a.toNat % 16) [b, c])
  | four {a b c d : UInt8} (ha : 240 ≤ a.toNat ∧ a.toNat ≤ 244) (hb : isSecond a b = true)
    (hc : isContinuation c = true) (hd : isContinuation d = true) :
    Form [a, b, c, d] (join (a.toNat % 8) [b, c, d])

theorem next_of_form (h : Form (a :: behind) n) (rest : List UInt8) :
    next a (behind ++ rest) = .ok (Char.ofNat n, behind.length + 1) := by
  cases h with
  | one ha =>
    have hwidth : width? a = some 1 := width?_eq_some_iff.2 (by omega)
    cases rest <;> simp [next, hwidth, tail, join]
  | two ha hb =>
    have hwidth : width? a = some 2 := width?_eq_some_iff.2 (by omega)
    simp [next, hwidth, tail, hb]
  | three ha hb hc =>
    have hwidth : width? a = some 3 := width?_eq_some_iff.2 (by omega)
    simp [next, hwidth, tail, hb, hc]
  | four ha hb hc hd =>
    have hwidth : width? a = some 4 := width?_eq_some_iff.2 (by omega)
    simp [next, hwidth, tail, hb, hc, hd]

theorem tail_isPrefix (a : UInt8) (width : Nat) (rest : List UInt8) :
    tail a width rest <+: rest := by
  cases rest with
  | nil => exact List.nil_prefix
  | cons b more =>
    simp only [tail]
    split
    · exact List.nil_prefix
    · rw [List.prefix_cons_inj]
      exact (List.takeWhile_prefix _).trans (List.take_prefix ..)

theorem of_tail_eq_cons (h : tail a width rest = b :: behind) :
    isSecond a b = true ∧ ∀ x ∈ behind, isContinuation x = true := by
  cases rest with
  | nil => simp [tail] at h
  | cons b' more =>
    simp only [tail] at h
    split at h
    · simp at h
    · next hsecond =>
      obtain ⟨rfl, rfl⟩ := List.cons.inj h
      have hsecond : ¬width < 2 ∧ isSecond a b' = true := by simpa using hsecond
      refine ⟨hsecond.2, fun x hx => ?_⟩
      exact List.mem_takeWhile_imp hx

theorem exists_form_of_next (h : next a rest = .ok (c, width)) :
    ∃ behind more n, rest = behind ++ more ∧ width = behind.length + 1 ∧ c = Char.ofNat n ∧
      Form (a :: behind) n := by
  unfold next at h
  cases hwidth : width? a with
  | none => simp [hwidth] at h
  | some w =>
    simp only [hwidth] at h
    split at h
    · next hlength =>
      obtain ⟨rfl, rfl⟩ := Prod.mk.inj (Except.ok.inj h)
      obtain ⟨more, hmore⟩ := tail_isPrefix a w rest
      have hbytes : ∀ b more, tail a w rest = b :: more → _ := fun _ _ h => of_tail_eq_cons h
      generalize tail a w rest = behind at hlength hmore hbytes ⊢
      refine ⟨behind, more, _, hmore.symm, hlength.symm, rfl, ?_⟩
      have hfirst := width?_eq_some_iff.1 hwidth
      subst hlength
      match behind with
      | [] =>
        simp at hfirst
        exact .one hfirst
      | [b] =>
        simp at hfirst
        exact .two hfirst (hbytes b [] rfl).1
      | [b, c] =>
        simp at hfirst
        obtain ⟨hsecond, hrest⟩ := hbytes b [c] rfl
        exact .three hfirst hsecond (hrest c (by simp))
      | [b, c, d] =>
        simp at hfirst
        obtain ⟨hsecond, hrest⟩ := hbytes b [c, d] rfl
        exact .four hfirst hsecond (hrest c (by simp)) (hrest d (by simp))
      | b :: c :: d :: e :: more =>
        simp at hfirst
    · simp at h

theorem toNat_ofNat (h : n < 256) : (UInt8.ofNat n).toNat = n := by
  rw [UInt8.toNat_ofNat', Nat.mod_eq_of_lt h]

theorem ofNat_eq (h : n = a.toNat) : UInt8.ofNat n = a := by
  rw [h, UInt8.ofNat_toNat]

theorem toNat_low (n : Nat) : (UInt8.ofNat (n % 64 + 128)).toNat = n % 64 + 128 :=
  toNat_ofNat (by omega)

theorem isContinuation_low (n : Nat) : isContinuation (UInt8.ofNat (n % 64 + 128)) = true := by
  rw [isContinuation_iff, toNat_low]
  omega

theorem form_encode (c : Char) : Form (String.utf8EncodeChar c) c.toNat := by
  have hvalid : c.val.toNat < 55296 ∨ 57343 < c.val.toNat ∧ c.val.toNat < 1114112 := c.valid
  change Form (String.utf8EncodeChar c) c.val.toNat
  rw [String.utf8EncodeChar.eq_1]
  generalize c.val.toNat = n at hvalid ⊢
  have hlow := toNat_low n
  split
  · have ha : (UInt8.ofNat n).toNat = n := toNat_ofNat (by omega)
    have hform := Form.one (a := UInt8.ofNat n) (by omega)
    rwa [ha] at hform
  · split
    · have ha : (UInt8.ofNat (n / 64 % 32 + 192)).toNat = n / 64 % 32 + 192 :=
        toNat_ofNat (by omega)
      have hn : (n / 64 % 32 + 192) % 32 * 64 + (n % 64 + 128) % 64 = n := by omega
      have hform := Form.two (a := UInt8.ofNat (n / 64 % 32 + 192))
        (b := UInt8.ofNat (n % 64 + 128)) (by omega) (isSecond_iff.2 (by omega))
      simp only [join, List.foldl_cons, List.foldl_nil, ha, hlow] at hform
      rwa [hn] at hform
    · have hmiddle := toNat_low (n / 64)
      split
      · have ha : (UInt8.ofNat (n / 4096 % 16 + 224)).toNat = n / 4096 % 16 + 224 :=
          toNat_ofNat (by omega)
        have hn : ((n / 4096 % 16 + 224) % 16 * 64 + (n / 64 % 64 + 128) % 64) * 64 +
            (n % 64 + 128) % 64 = n := by omega
        have hform := Form.three (a := UInt8.ofNat (n / 4096 % 16 + 224))
          (b := UInt8.ofNat (n / 64 % 64 + 128)) (by omega) (isSecond_iff.2 (by omega))
          (isContinuation_low n)
        simp only [join, List.foldl_cons, List.foldl_nil, ha, hmiddle, hlow] at hform
        rwa [hn] at hform
      · have hhigh := toNat_low (n / 4096)
        have ha : (UInt8.ofNat (n / 262144 % 8 + 240)).toNat = n / 262144 % 8 + 240 :=
          toNat_ofNat (by omega)
        have hn : (((n / 262144 % 8 + 240) % 8 * 64 + (n / 4096 % 64 + 128) % 64) * 64 +
            (n / 64 % 64 + 128) % 64) * 64 + (n % 64 + 128) % 64 = n := by omega
        have hform := Form.four (a := UInt8.ofNat (n / 262144 % 8 + 240))
          (b := UInt8.ofNat (n / 4096 % 64 + 128)) (by omega) (isSecond_iff.2 (by omega))
          (isContinuation_low (n / 64)) (isContinuation_low n)
        simp only [join, List.foldl_cons, List.foldl_nil, ha, hhigh, hmiddle, hlow] at hform
        rwa [hn] at hform

theorem isValidChar_of_form (h : Form bytes n) : n.isValidChar := by
  cases h with
  | one ha => exact .inl (by omega)
  | @two a b ha hb =>
    left
    simp only [join, List.foldl_cons, List.foldl_nil]
    omega
  | @three a b c ha hb hc =>
    have hb := isSecond_iff.1 hb
    change _ < 55296 ∨ 57343 < _ ∧ _ < 1114112
    simp only [join, List.foldl_cons, List.foldl_nil]
    omega
  | @four a b c d ha hb hc hd =>
    have hb := isSecond_iff.1 hb
    change _ < 55296 ∨ 57343 < _ ∧ _ < 1114112
    simp only [join, List.foldl_cons, List.foldl_nil]
    omega

theorem encode_of_form (h : Form bytes n) : String.utf8EncodeChar (Char.ofNat n) = bytes := by
  have hvalue : (Char.ofNat n).val.toNat = n := by
    rw [Char.ofNat, dif_pos (isValidChar_of_form h)]
    rfl
  rw [String.utf8EncodeChar.eq_1, hvalue]
  cases h with
  | one ha => rw [if_pos (by omega), UInt8.ofNat_toNat]
  | @two a b ha hb =>
    have hb := isSecond_iff.1 hb
    generalize hn : join (a.toNat % 32) [b] = n
    simp only [join, List.foldl_cons, List.foldl_nil] at hn
    rw [if_neg (by omega), if_pos (by omega), ofNat_eq (a := a) (by omega),
      ofNat_eq (a := b) (by omega)]
  | @three a b c ha hb hc =>
    have hb := isSecond_iff.1 hb
    have hc := isContinuation_iff.1 hc
    generalize hn : join (a.toNat % 16) [b, c] = n
    simp only [join, List.foldl_cons, List.foldl_nil] at hn
    rw [if_neg (by omega), if_neg (by omega), if_pos (by omega), ofNat_eq (a := a) (by omega),
      ofNat_eq (a := b) (by omega), ofNat_eq (a := c) (by omega)]
  | @four a b c d ha hb hc hd =>
    have hb := isSecond_iff.1 hb
    have hc := isContinuation_iff.1 hc
    have hd := isContinuation_iff.1 hd
    generalize hn : join (a.toNat % 8) [b, c, d] = n
    simp only [join, List.foldl_cons, List.foldl_nil] at hn
    rw [if_neg (by omega), if_neg (by omega), if_neg (by omega), ofNat_eq (a := a) (by omega),
      ofNat_eq (a := b) (by omega), ofNat_eq (a := c) (by omega), ofNat_eq (a := d) (by omega)]

theorem next_eq_ok_iff : next a rest = .ok (c, width) ↔
    ∃ behind more, rest = behind ++ more ∧ width = behind.length + 1 ∧
      String.utf8EncodeChar c = a :: behind := by
  constructor
  · intro h
    obtain ⟨behind, more, n, hrest, hwidth, rfl, hform⟩ := exists_form_of_next h
    exact ⟨behind, more, hrest, hwidth, encode_of_form hform⟩
  · rintro ⟨behind, more, rfl, rfl, hc⟩
    rw [next_of_form (hc ▸ form_encode c), Char.ofNat_toNat]

theorem next_of_flatMap {cs : List Char} (h : a :: rest = cs.flatMap String.utf8EncodeChar) :
    ∃ c cs' width, cs = c :: cs' ∧ next a rest = .ok (c, width) ∧
      rest.drop (width - 1) = cs'.flatMap String.utf8EncodeChar := by
  cases cs with
  | nil => simp at h
  | cons c cs =>
    obtain ⟨b, behind, hc⟩ := List.exists_cons_of_ne_nil (String.utf8EncodeChar_ne_nil (c := c))
    rw [List.flatMap_cons, hc, List.cons_append] at h
    obtain ⟨rfl, rfl⟩ := List.cons.inj h
    refine ⟨c, cs, behind.length + 1, rfl, next_eq_ok_iff.2 ⟨behind, _, rfl, rfl, hc⟩, ?_⟩
    rw [Nat.add_sub_cancel, List.drop_left]

variable {fuel position : Nat} {done : List Char} {text : String}

theorem decodeFrom_nil_eq_ok_iff : decodeFrom fuel position [] done = .ok text ↔
    ∃ cs, text.toList = done.reverse ++ cs ∧ [] = cs.flatMap String.utf8EncodeChar := by
  have hdecode : decodeFrom fuel position [] done = .ok (String.ofList done.reverse) := by
    cases fuel <;> rfl
  rw [hdecode, Except.ok.injEq]
  constructor
  · rintro rfl
    exact ⟨[], by simp, rfl⟩
  · rintro ⟨cs, htext, hcs⟩
    cases cs with
    | nil =>
      rw [List.append_nil] at htext
      rw [← htext, String.ofList_toList]
    | cons c cs => simp [String.utf8EncodeChar_ne_nil] at hcs

theorem decodeFrom_eq_ok_iff (hfuel : bytes.length ≤ fuel) :
    decodeFrom fuel position bytes done = .ok text ↔
      ∃ cs, text.toList = done.reverse ++ cs ∧ bytes = cs.flatMap String.utf8EncodeChar := by
  induction fuel generalizing bytes position done with
  | zero =>
    obtain rfl := List.length_eq_zero_iff.1 (Nat.le_zero.1 hfuel)
    exact decodeFrom_nil_eq_ok_iff
  | succ fuel ih =>
    cases bytes with
    | nil => exact decodeFrom_nil_eq_ok_iff
    | cons a rest =>
      constructor
      · intro h
        simp only [decodeFrom] at h
        cases hnext : next a rest with
        | error width => simp [hnext] at h
        | ok read =>
          obtain ⟨c, width⟩ := read
          obtain ⟨behind, more, rfl, rfl, hc⟩ := next_eq_ok_iff.1 hnext
          simp only [hnext, Nat.add_sub_cancel, List.drop_left] at h
          obtain ⟨cs, htext, rfl⟩ := (ih (by simp at hfuel; omega)).1 h
          exact ⟨c :: cs, by simpa using htext, by rw [List.flatMap_cons, hc, List.cons_append]⟩
      · rintro ⟨cs, htext, hcs⟩
        obtain ⟨c, cs, width, rfl, hnext, hdrop⟩ := next_of_flatMap hcs
        simp only [decodeFrom, hnext]
        refine (ih ?_).2 ⟨cs, by simpa using htext, hdrop⟩
        simp at hfuel ⊢
        omega

theorem decode?_eq_some_iff : decode? bytes = some text ↔ encode text = bytes := by
  have hdecode : decode? bytes = some text ↔ decode bytes = .ok text := by
    unfold decode?
    cases decode bytes <;> simp [Except.toOption]
  rw [hdecode, decode, decodeFrom_eq_ok_iff (Nat.le_refl _), encode]
  simp [eq_comm]

end PlatformRules.Utf8
