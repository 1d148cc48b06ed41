import Mathlib.Data.List.Forall2
import Mathlib.Data.Nat.Count
import PlatformRules.Proofs.Cuts
import PlatformRules.Proofs.Text.Lines
import PlatformRules.Proofs.Text.Slices

namespace PlatformRules.Text

theorem induction_on_lines {P : List Char → Prop} (nil : P [])
    (last : ∀ cs, '\n' ∉ cs → cs ≠ [] → P cs)
    (line : ∀ cs ds, '\n' ∉ cs → P ds → P (cs ++ '\n' :: ds)) (cs : List Char) : P cs := by
  generalize hlength : cs.length = n
  induction n using Nat.strong_induction_on generalizing cs with
  | _ n ih =>
    by_cases hmem : '\n' ∈ cs
    · obtain ⟨front, back, rfl, hfront⟩ := List.eq_append_cons_of_mem hmem
      apply line front back hfront
      apply ih back.length _ back rfl
      rw [List.length_append, List.length_cons] at hlength
      omega
    · by_cases hnil : cs = []
      · exact hnil ▸ nil
      · exact last cs hmem hnil

theorem linesFrom_of_not_mem (number offset : Nat) {cs : List Char} (h : '\n' ∉ cs)
    (hne : cs ≠ []) : linesFrom number offset cs [] = [⟨number, offset, withoutReturn cs⟩] := by
  have hpass := linesFrom_pass number offset h [] []
  rw [List.append_nil, List.append_nil] at hpass
  rw [hpass, linesFrom, if_neg (by simpa using hne), closeLine, List.reverse_reverse]

def Terminates (back : List Char) : Prop :=
  back = [] ∨ back = ['\r'] ∨ ['\n'] <+: back ∨ ['\r', '\n'] <+: back

/-- The line is a part of the text: at its offset, in front of a terminator, and behind as many line
feeds as its number tells. -/
def StandsIn (text : List Char) (l : SourceLine) : Prop :=
  ∃ front back, text = front ++ l.text ++ back ∧ Terminates back ∧ IsWhole front ∧
    byteLength front = l.offset ∧ front.count '\n' + 1 = l.number

theorem StandsIn.standsAt {text : List Char} {l : SourceLine} (h : StandsIn text l) :
    StandsAt text l.offset l.text := by
  obtain ⟨front, back, htext, -, -, hoffset, -⟩ := h
  exact ⟨front, back, htext, hoffset⟩

theorem standsIn_of_line (cs : List Char) {front back : List Char} (hfront : IsWhole front)
    (hback : back = [] ∨ ['\n'] <+: back) : StandsIn (front ++ cs ++ back)
      ⟨front.count '\n' + 1, byteLength front, withoutReturn cs⟩ := by
  obtain ⟨g, hg, hcs, -⟩ := exists_return_append cs
  refine ⟨front, g ++ back, ?_, ?_, hfront, rfl, rfl⟩
  · conv_lhs => rw [hcs]
    simp only [List.append_assoc]
  · rcases hback with rfl | ⟨ds, rfl⟩
    · rcases hg with rfl | rfl
      · exact .inl rfl
      · exact .inr (.inl rfl)
    · rcases hg with rfl | rfl
      · exact .inr (.inr (.inl ⟨ds, rfl⟩))
      · exact .inr (.inr (.inr ⟨ds, rfl⟩))

theorem standsIn_linesFrom {front cs : List Char} (hfront : IsWhole front) :
    ∀ l ∈ linesFrom (front.count '\n' + 1) (byteLength front) cs [], StandsIn (front ++ cs) l := by
  induction cs using induction_on_lines generalizing front with
  | nil => simp [linesFrom]
  | last cs h hne =>
    intro l hl
    rw [linesFrom_of_not_mem _ _ h hne, List.mem_singleton] at hl
    have hstands := standsIn_of_line cs hfront (.inl rfl)
    rw [List.append_nil] at hstands
    exact hl ▸ hstands
  | line cs ds h ih =>
    intro l hl
    rw [linesFrom_line _ _ h, List.mem_cons] at hl
    rcases hl with rfl | hl
    · rw [← List.append_assoc]
      exact standsIn_of_line cs hfront (.inr ⟨ds, rfl⟩)
    · have hwhole : IsWhole (front ++ cs ++ ['\n']) := .inr (by simp)
      have hcount : (front ++ cs ++ ['\n']).count '\n' = front.count '\n' + 1 := by
        simp [List.count_eq_zero.2 h]
      have hlength : byteLength (front ++ cs ++ ['\n']) = byteLength front + byteLength cs + 1 := by
        simp only [byteLength_append]
        rfl
      have hrest := ih hwhole l
      rw [hcount, hlength] at hrest
      have happend : front ++ (cs ++ '\n' :: ds) = front ++ cs ++ ['\n'] ++ ds := by simp
      rw [happend]
      exact hrest hl

theorem standsIn_lines {text : List Char} : ∀ l ∈ lines text, StandsIn text l :=
  fun l hl => standsIn_linesFrom (.inl rfl) l hl

def parts (cs : List Char) : List (List Char) :=
  cs.splitBy fun c _ => c != '\n'

theorem parts_eq_singleton {cs : List Char} (h : '\n' ∉ cs.dropLast) (hne : cs ≠ []) :
    parts cs = [cs] := by
  change cutBehind (fun c => c == '\n') cs = [cs]
  refine cutBehind_of_open (fun c hc => ?_) hne
  simpa using ne_of_mem_of_not_mem hc h

theorem parts_line {cs : List Char} (h : '\n' ∉ cs) (ds : List Char) :
    parts (cs ++ '\n' :: ds) = (cs ++ ['\n']) :: parts ds := by
  change cutBehind (fun c => c == '\n') _ = _ :: cutBehind (fun c => c == '\n') ds
  refine cutBehind_append_cons (fun c hc => ?_) (by simp) ds
  simpa using ne_of_mem_of_not_mem hc h

def withoutLinesFrom (gone : Nat → Bool) (n : Nat) (cs : List Char) : List Char :=
  (((parts cs).zipIdx n).filter fun p => !gone p.2).flatMap (·.1)

def withoutLines (gone : Nat → Bool) (cs : List Char) : List Char :=
  withoutLinesFrom gone 1 cs

def goneBefore (gone : Nat → Bool) (n : Nat) : Nat :=
  Nat.count (fun i => gone (i + 1)) (n - 1)

section

variable {gone : Nat → Bool} {n : Nat}

theorem goneBefore_lt (gone : Nat → Bool) (hn : 0 < n) : goneBefore gone n < n := by
  have := Nat.count_le (p := fun i => gone (i + 1)) (n := n - 1)
  unfold goneBefore
  omega

theorem goneBefore_succ (gone : Nat → Bool) (hn : 0 < n) :
    goneBefore gone (n + 1) = goneBefore gone n + if gone n then 1 else 0 := by
  obtain ⟨k, rfl⟩ := Nat.exists_eq_add_of_le' hn
  exact Nat.count_succ _ k

theorem withoutLinesFrom_last {cs : List Char} (h : '\n' ∉ cs) (hne : cs ≠ []) :
    withoutLinesFrom gone n cs = if gone n then [] else cs := by
  have hdrop : '\n' ∉ cs.dropLast := fun hm => h (List.dropLast_subset cs hm)
  rw [withoutLinesFrom, parts_eq_singleton hdrop hne]
  cases hgone : gone n <;> simp [hgone]

theorem withoutLinesFrom_line {cs : List Char} (h : '\n' ∉ cs) (ds : List Char) :
    withoutLinesFrom gone n (cs ++ '\n' :: ds) =
      (if gone n then [] else cs ++ ['\n']) ++ withoutLinesFrom gone (n + 1) ds := by
  rw [withoutLinesFrom, parts_line h, List.zipIdx_cons]
  cases hgone : gone n <;> simp [hgone, withoutLinesFrom]

def MovesUp (gone : Nat → Bool) (k l : SourceLine) : Prop :=
  k.text = l.text ∧ k.number = l.number - goneBefore gone l.number

theorem movesUp_linesFrom (gone : Nat → Bool) (offset offset' : Nat) (cs : List Char) (hn : 0 < n) :
    List.Forall₂ (MovesUp gone)
      (linesFrom (n - goneBefore gone n) offset' (withoutLinesFrom gone n cs) [])
      ((linesFrom n offset cs []).filter fun l => !gone l.number) := by
  induction cs using induction_on_lines generalizing n offset offset' with
  | nil => exact .nil
  | last cs h hne =>
    rw [withoutLinesFrom_last h hne, linesFrom_of_not_mem _ _ h hne]
    cases hgone : gone n with
    | true => simp [hgone, linesFrom]
    | false =>
      simp only [Bool.false_eq_true, if_false, linesFrom_of_not_mem _ _ h hne, List.filter_cons,
        hgone, Bool.not_false, if_true, List.filter_nil]
      exact .cons ⟨rfl, rfl⟩ .nil
  | line cs ds h ih =>
    have hlt := goneBefore_lt gone hn
    have hsucc := goneBefore_succ gone hn
    rw [withoutLinesFrom_line h, linesFrom_line _ _ h]
    cases hgone : gone n with
    | true =>
      have hnumber : n + 1 - goneBefore gone (n + 1) = n - goneBefore gone n := by
        rw [hsucc, hgone, if_pos rfl]
        omega
      have hrest := ih (offset + byteLength cs + 1) offset' (Nat.succ_pos n)
      rw [hnumber] at hrest
      simpa [hgone] using hrest
    | false =>
      have hnumber : n + 1 - goneBefore gone (n + 1) = n - goneBefore gone n + 1 := by
        rw [hsucc, hgone]
        simp only [Bool.false_eq_true, if_false]
        omega
      have hrest := ih (offset + byteLength cs + 1) (offset' + byteLength cs + 1) (Nat.succ_pos n)
      rw [hnumber] at hrest
      have happend : cs ++ ['\n'] ++ withoutLinesFrom gone (n + 1) ds =
          cs ++ '\n' :: withoutLinesFrom gone (n + 1) ds := by simp
      simp only [Bool.false_eq_true, if_false, happend, linesFrom_line _ _ h, List.filter_cons,
        hgone, Bool.not_false, if_true]
      exact .cons ⟨rfl, rfl⟩ hrest

theorem movesUp_lines (gone : Nat → Bool) (cs : List Char) :
    List.Forall₂ (MovesUp gone) (lines (withoutLines gone cs))
      ((lines cs).filter fun l => !gone l.number) :=
  movesUp_linesFrom gone 0 0 cs Nat.one_pos

end

theorem byteLength_withoutLinesFrom_le (gone : Nat → Bool) (n : Nat) (cs : List Char) :
    byteLength (withoutLinesFrom gone n cs) ≤ byteLength cs := by
  induction cs using induction_on_lines generalizing n with
  | nil => exact Nat.le_refl _
  | last cs h hne =>
    rw [withoutLinesFrom_last h hne]
    split <;> simp
  | line cs ds h ih =>
    have hrest := ih (n + 1)
    have hline : byteLength (if gone n then [] else cs ++ ['\n']) ≤ byteLength (cs ++ ['\n']) := by
      split <;> simp
    have happend : cs ++ '\n' :: ds = cs ++ ['\n'] ++ ds := by simp
    rw [withoutLinesFrom_line h, happend, byteLength_append, byteLength_append (cs ++ ['\n'])]
    omega

end PlatformRules.Text
