import Mathlib.Algebra.GroupWithZero.Nat
import PlatformRules.Proofs.Text.Runs
import PlatformRules.Text.Lines

namespace PlatformRules

open Text

def SourceLine.shift (lines bytes : Nat) (l : SourceLine) : SourceLine :=
  { l with number := l.number + lines, offset := l.offset + bytes }

theorem SourceLine.isBlank_iff_trim {l : SourceLine} : l.isBlank = true ↔ trim l.text = [] := by
  rw [trim_eq_nil_iff, SourceLine.isBlank, List.all_eq_true]
  exact Iff.rfl

theorem SourceLine.trim_ne_nil {l : SourceLine} (h : l.isBlank = false) : trim l.text ≠ [] := by
  rw [ne_eq, ← isBlank_iff_trim, h]
  simp

namespace Text

def IsWhole (cs : List Char) : Prop :=
  cs = [] ∨ cs.getLast? = some '\n'

instance (cs : List Char) : Decidable (IsWhole cs) :=
  instDecidableOr

theorem shift_closeLine (lines bytes number offset : Nat) (reversed : List Char) :
    (closeLine number offset reversed).shift lines bytes =
      closeLine (number + lines) (offset + bytes) reversed := rfl

theorem linesFrom_shift (lines bytes number offset : Nat) (cs reversed : List Char) :
    linesFrom (number + lines) (offset + bytes) cs reversed =
      (linesFrom number offset cs reversed).map (·.shift lines bytes) := by
  induction cs generalizing number offset reversed with
  | nil =>
    rw [linesFrom, linesFrom]
    split
    · rfl
    · rfl
  | cons c cs ih =>
    rw [linesFrom, linesFrom]
    split
    · have hnumber : number + lines + 1 = number + 1 + lines := by omega
      have hoffset : offset + bytes + byteLength reversed + 1 =
          offset + byteLength reversed + 1 + bytes := by omega
      rw [hnumber, hoffset, ih, List.map_cons, shift_closeLine]
    · exact ih ..

theorem linesFrom_append (number offset : Nat) {cs reversed : List Char}
    (h : cs = [] ∧ reversed = [] ∨ cs.getLast? = some '\n') (ds : List Char) :
    linesFrom number offset (cs ++ ds) reversed = linesFrom number offset cs reversed ++
      linesFrom (number + (linesFrom number offset cs reversed).length)
        (offset + byteLength reversed + byteLength cs) ds [] := by
  induction cs generalizing number offset reversed with
  | nil =>
    obtain rfl : reversed = [] := by simpa using h
    rfl
  | cons c cs ih =>
    have hlast : (c :: cs).getLast? = some '\n' := by simpa using h
    rw [List.cons_append, linesFrom, linesFrom]
    split
    · next hc =>
      have hrest : cs = [] ∧ ([] : List Char) = [] ∨ cs.getLast? = some '\n' := by
        cases cs with
        | nil => exact .inl ⟨rfl, rfl⟩
        | cons d cs => exact .inr hlast
      have hsize : c.utf8Size = 1 := by
        rw [hc]
        rfl
      rw [ih _ _ hrest, List.cons_append, List.length_cons, byteLength_nil, byteLength_cons, hsize]
      have hnumber (k : Nat) : number + 1 + k = number + (k + 1) := by omega
      have hoffset : offset + byteLength reversed + 1 + 0 + byteLength cs =
          offset + byteLength reversed + (1 + byteLength cs) := by omega
      rw [hnumber, hoffset]
    · next hc =>
      have hrest : cs.getLast? = some '\n' := by
        cases cs with
        | nil => exact absurd (by simpa using hlast) hc
        | cons d cs => exact hlast
      rw [ih _ _ (.inr hrest), byteLength_cons, byteLength_cons]
      have hoffset : offset + (c.utf8Size + byteLength reversed) + byteLength cs =
          offset + byteLength reversed + (c.utf8Size + byteLength cs) := by omega
      rw [hoffset]

theorem lines_append {cs : List Char} (h : IsWhole cs) (ds : List Char) :
    lines (cs ++ ds) =
      lines cs ++ (lines ds).map (·.shift (lines cs).length (byteLength cs)) := by
  have hcs : cs = [] ∧ ([] : List Char) = [] ∨ cs.getLast? = some '\n' := by
    simpa [IsWhole] using h
  rw [lines, linesFrom_append 1 0 hcs, lines, lines, ← linesFrom_shift, byteLength_nil]

theorem linesFrom_pass (number offset : Nat) {cs : List Char} (h : '\n' ∉ cs)
    (ds reversed : List Char) : linesFrom number offset (cs ++ ds) reversed =
      linesFrom number offset ds (cs.reverse ++ reversed) := by
  induction cs generalizing reversed with
  | nil => rfl
  | cons c cs ih =>
    have hc : c ≠ '\n' := fun hc => h (by simp [hc])
    have hcs : '\n' ∉ cs := fun hm => h (List.mem_cons_of_mem c hm)
    rw [List.cons_append, linesFrom, if_neg hc, ih hcs, List.reverse_cons, List.append_assoc]
    rfl

theorem lines_of_not_mem {cs : List Char} (h : '\n' ∉ cs) (hne : cs ≠ []) :
    lines cs = [⟨1, 0, withoutReturn cs⟩] := by
  have hpass := linesFrom_pass 1 0 h [] []
  rw [List.append_nil, List.append_nil] at hpass
  rw [lines, hpass, linesFrom, if_neg (by simpa using hne), closeLine, List.reverse_reverse]

theorem lines_concat {cs : List Char} (h : '\n' ∉ cs) :
    lines (cs ++ ['\n']) = [⟨1, 0, withoutReturn cs⟩] := by
  rw [lines, linesFrom_pass 1 0 h, List.append_nil, linesFrom, if_pos rfl, linesFrom, if_pos rfl,
    closeLine, List.reverse_reverse]

theorem linesFrom_line (number offset : Nat) {cs : List Char} (h : '\n' ∉ cs) (ds : List Char) :
    linesFrom number offset (cs ++ '\n' :: ds) [] = ⟨number, offset, withoutReturn cs⟩ ::
      linesFrom (number + 1) (offset + byteLength cs + 1) ds [] := by
  rw [linesFrom_pass number offset h, List.append_nil, linesFrom, if_pos rfl, closeLine,
    List.reverse_reverse, byteLength_reverse]

theorem mem_of_mem_withoutReturn {c : Char} {cs : List Char} (h : c ∈ withoutReturn cs) :
    c ∈ cs := by
  unfold withoutReturn at h
  split at h
  · exact List.dropLast_subset cs h
  · exact h

theorem not_mem_linesFrom (number offset : Nat) (cs : List Char) {reversed : List Char}
    (h : '\n' ∉ reversed) : ∀ l ∈ linesFrom number offset cs reversed, '\n' ∉ l.text := by
  have hclose (number offset : Nat) {reversed : List Char} (h : '\n' ∉ reversed) :
      '\n' ∉ (closeLine number offset reversed).text :=
    fun hm => h (List.mem_reverse.1 (mem_of_mem_withoutReturn hm))
  induction cs generalizing number offset reversed with
  | nil =>
    intro l hl
    rw [linesFrom] at hl
    split at hl
    · simp at hl
    · rw [List.mem_singleton] at hl
      exact hl ▸ hclose number offset h
  | cons c cs ih =>
    intro l hl
    rw [linesFrom] at hl
    split at hl
    · rcases List.mem_cons.1 hl with rfl | hl
      · exact hclose number offset h
      · exact ih _ _ (by simp) l hl
    · next hc => exact ih _ _ (by simp [Ne.symm hc, h]) l hl

theorem not_mem_lines (cs : List Char) : ∀ l ∈ lines cs, '\n' ∉ l.text :=
  not_mem_linesFrom 1 0 cs (by simp)

def NumberedFrom : Nat → List SourceLine → Prop
  | _, [] => True
  | n, l :: ls => l.number = n ∧ NumberedFrom (n + 1) ls

theorem NumberedFrom.number_eq {n : Nat} {before after : List SourceLine} {l : SourceLine}
    (h : NumberedFrom n (before ++ l :: after)) : l.number = n + before.length := by
  induction before generalizing n with
  | nil => exact h.1
  | cons k before ih =>
    have hl := ih h.2
    rw [List.length_cons]
    omega

theorem numberedFrom_linesFrom (number offset : Nat) (cs reversed : List Char) :
    NumberedFrom number (linesFrom number offset cs reversed) := by
  induction cs generalizing number offset reversed with
  | nil =>
    rw [linesFrom]
    split
    · trivial
    · exact ⟨rfl, trivial⟩
  | cons c cs ih =>
    rw [linesFrom]
    split
    · exact ⟨rfl, ih ..⟩
    · exact ih ..

theorem NumberedFrom.map_number {n : Nat} {ls : List SourceLine} (h : NumberedFrom n ls) :
    ls.map (·.number) = List.range' n ls.length := by
  induction ls generalizing n with
  | nil => rfl
  | cons l ls ih =>
    rw [List.map_cons, h.1, ih h.2, List.length_cons, List.range'_succ]

theorem map_number_lines (text : List Char) :
    (lines text).map (·.number) = List.range' 1 (lines text).length :=
  (numberedFrom_linesFrom ..).map_number

theorem number_of_lines_eq {text : List Char} {before after : List SourceLine} {l : SourceLine}
    (h : lines text = before ++ l :: after) : l.number = before.length + 1 := by
  have hnumbered : NumberedFrom 1 (before ++ l :: after) := h ▸ numberedFrom_linesFrom ..
  rw [hnumbered.number_eq, Nat.add_comm]

theorem sum_linesFrom_le (number offset extra : Nat) {cs reversed : List Char}
    (h : extra = 1 ∨ cs = [] ∧ reversed = [] ∨ cs.getLast? = some '\n') :
    ((linesFrom number offset cs reversed).map fun l => l.length + 1).sum ≤
      byteLength reversed + byteLength cs + extra := by
  have hclose (number offset : Nat) (reversed : List Char) :
      (closeLine number offset reversed).length ≤ byteLength reversed := by
    have := byteLength_withoutReturn_le reversed.reverse
    rwa [byteLength_reverse] at this
  induction cs generalizing number offset reversed with
  | nil =>
    rw [linesFrom]
    split
    · simp
    · next hne =>
      obtain rfl : extra = 1 := by simpa [hne] using h
      have := hclose number offset reversed
      simp only [List.map_cons, List.map_nil, List.sum_cons, List.sum_nil, byteLength_nil]
      omega
  | cons c cs ih =>
    rw [linesFrom, byteLength_cons]
    split
    · next hc =>
      have hrest : extra = 1 ∨ cs = [] ∧ ([] : List Char) = [] ∨ cs.getLast? = some '\n' := by
        cases cs with
        | nil => exact .inr (.inl ⟨rfl, rfl⟩)
        | cons d cs => simpa using h
      have hsize : c.utf8Size = 1 := by rw [hc]; rfl
      have hsum := ih (number + 1) (offset + byteLength reversed + 1) hrest
      have := hclose number offset reversed
      rw [byteLength_nil] at hsum
      rw [List.map_cons, List.sum_cons]
      omega
    · next hc =>
      have hrest : extra = 1 ∨ cs = [] ∧ c :: reversed = [] ∨ cs.getLast? = some '\n' := by
        rcases h with h | ⟨h, -⟩ | h
        · exact .inl h
        · simp at h
        · cases cs with
          | nil => exact absurd (by simpa using h) hc
          | cons d cs => exact .inr (.inr h)
      have hsum := ih number offset hrest
      rw [byteLength_cons] at hsum
      omega

theorem sum_lines_le (cs : List Char) : ((lines cs).map fun l => l.length + 1).sum ≤
    byteLength cs + if IsWhole cs then 0 else 1 := by
  unfold lines
  split
  · next hwhole =>
    have hextra : 0 = 1 ∨ cs = [] ∧ ([] : List Char) = [] ∨ cs.getLast? = some '\n' := by
      simpa [IsWhole] using hwhole
    have hsum := sum_linesFrom_le 1 0 0 hextra
    rwa [byteLength_nil, Nat.zero_add] at hsum
  · have hsum := sum_linesFrom_le 1 0 1 (.inl rfl : 1 = 1 ∨ cs = [] ∧ ([] : List Char) = [] ∨ _)
    rwa [byteLength_nil, Nat.zero_add] at hsum

end Text

end PlatformRules
