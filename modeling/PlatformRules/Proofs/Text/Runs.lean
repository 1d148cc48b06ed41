import Mathlib.Data.List.DropRight
import PlatformRules.Text.Basic

namespace PlatformRules.Text

theorem takeWhile_append_stop {p : Char → Bool} {run rest : List Char} (hrun : ∀ c ∈ run, p c)
    (hrest : ∀ c ∈ rest.head?, p c = false) : (run ++ rest).takeWhile p = run := by
  rw [List.takeWhile_append_of_pos hrun]
  cases rest with
  | nil => simp
  | cons c rest => simp [hrest c rfl]

theorem dropWhile_append_stop {p : Char → Bool} {run rest : List Char} (hrun : ∀ c ∈ run, p c)
    (hrest : ∀ c ∈ rest.head?, p c = false) : (run ++ rest).dropWhile p = rest := by
  rw [List.dropWhile_append_of_pos hrun]
  cases rest with
  | nil => simp
  | cons c rest => simp [hrest c rfl]

theorem stops_dropWhile (p : Char → Bool) (cs : List Char) :
    ∀ c ∈ (cs.dropWhile p).head?, p c = false := by
  intro c hc
  have h := List.head?_dropWhile_not p cs
  rw [hc] at h
  simpa using h

def IsBlankRun (cs : List Char) : Prop :=
  ∀ c ∈ cs, isBlank c

def IsGap (cs : List Char) : Prop :=
  cs ≠ [] ∧ IsBlankRun cs

def IsWord (cs : List Char) : Prop :=
  cs ≠ [] ∧ ∀ c ∈ cs, isBlank c = false

def EndsWord (cs : List Char) : Prop :=
  ∀ c ∈ cs.head?, isBlank c

instance (cs : List Char) : Decidable (IsBlankRun cs) :=
  decidable_of_iff (cs.all isBlank = true) List.all_eq_true

instance (cs : List Char) : Decidable (IsGap cs) :=
  instDecidableAnd

instance (cs : List Char) : Decidable (EndsWord cs) :=
  decidable_of_iff (cs.head?.all isBlank = true) (Option.all_eq_true ..)

theorem forall_of_all {p : Char → Prop} [DecidablePred p] {cs : List Char}
    (h : cs.all (fun c => decide (p c)) = true) : ∀ c ∈ cs, p c :=
  fun c hc => of_decide_eq_true (List.all_eq_true.1 h c hc)

theorem IsBlankRun.nil : IsBlankRun [] := by simp [IsBlankRun]

theorem IsBlankRun.append {g h : List Char} (hg : IsBlankRun g) (hh : IsBlankRun h) :
    IsBlankRun (g ++ h) := by
  intro c hc
  rcases List.mem_append.1 hc with hc | hc
  · exact hg c hc
  · exact hh c hc

theorem isBlankRun_takeWhile (cs : List Char) : IsBlankRun (cs.takeWhile isBlank) :=
  fun _ hc => List.mem_takeWhile_imp hc

theorem IsGap.endsWord {g cs : List Char} (hg : IsGap g) : EndsWord (g ++ cs) := by
  obtain ⟨hne, hg⟩ := hg
  cases g with
  | nil => exact absurd rfl hne
  | cons c g =>
    intro d hd
    obtain rfl : c = d := by simpa using hd
    exact hg c (by simp)

theorem endsWord_dropWhile (cs : List Char) : EndsWord (cs.dropWhile (!isBlank ·)) := by
  intro c hc
  simpa using stops_dropWhile (!isBlank ·) cs c hc

theorem not_blank_takeWhile (cs : List Char) : ∀ c ∈ cs.takeWhile (!isBlank ·), isBlank c = false := by
  intro c hc
  simpa using List.mem_takeWhile_imp hc

theorem takeWhile_word {w cs : List Char} (hw : ∀ c ∈ w, isBlank c = false) (hcs : EndsWord cs) :
    (w ++ cs).takeWhile (!isBlank ·) = w :=
  takeWhile_append_stop (fun c hc => by simp [hw c hc]) (fun c hc => by simp [hcs c hc])

theorem dropWhile_word {w cs : List Char} (hw : ∀ c ∈ w, isBlank c = false) (hcs : EndsWord cs) :
    (w ++ cs).dropWhile (!isBlank ·) = cs :=
  dropWhile_append_stop (fun c hc => by simp [hw c hc]) (fun c hc => by simp [hcs c hc])

@[simp] theorem trimStart_cons {c : Char} {cs : List Char} (hc : isBlank c = false) :
    trimStart (c :: cs) = c :: cs := by
  simp [trimStart, hc]

theorem takeWhile_trimStart (cs : List Char) : cs.takeWhile isBlank ++ trimStart cs = cs :=
  List.takeWhile_append_dropWhile

theorem trimStart_append {g cs : List Char} (hg : IsBlankRun g) :
    trimStart (g ++ cs) = trimStart cs :=
  List.dropWhile_append_of_pos hg

theorem isBlank_head_trimStart {c : Char} {cs ds : List Char} (h : trimStart cs = c :: ds) :
    isBlank c = false := by
  have hhead : c ∈ (cs.dropWhile isBlank).head? := by
    rw [show cs.dropWhile isBlank = c :: ds from h]
    rfl
  exact stops_dropWhile isBlank cs c hhead

theorem trimStart_eq_nil_iff {cs : List Char} : trimStart cs = [] ↔ IsBlankRun cs :=
  List.dropWhile_eq_nil_iff

theorem trimEnd_append {cs g : List Char} (hg : IsBlankRun g) : trimEnd (cs ++ g) = trimEnd cs := by
  unfold trimEnd
  rw [List.reverse_append, List.dropWhile_append_of_pos (fun c hc => hg c (List.mem_reverse.1 hc))]

theorem trimEnd_concat (cs : List Char) {c : Char} (hc : isBlank c = false) :
    trimEnd (cs ++ [c]) = cs ++ [c] :=
  List.rdropWhile_concat_neg _ _ _ (by simp [hc])

theorem EndsWord.append {cs g : List Char} (hcs : EndsWord cs) (hg : IsBlankRun g) :
    EndsWord (cs ++ g) := by
  cases cs with
  | nil => exact fun c hc => hg c (List.mem_of_mem_head? hc)
  | cons d ds => exact hcs

theorem exists_trimEnd_append (cs : List Char) : ∃ g, IsBlankRun g ∧ trimEnd cs ++ g = cs :=
  ⟨cs.rtakeWhile isBlank, fun _ hc => List.mem_rtakeWhile_imp hc, List.rdropWhile_append_rtakeWhile⟩

theorem isBlank_getLast_trimEnd (cs : List Char) : ∀ c ∈ (trimEnd cs).getLast?, isBlank c = false := by
  rw [trimEnd, List.getLast?_reverse]
  exact stops_dropWhile isBlank cs.reverse

theorem trimEnd_eq_nil_iff {cs : List Char} : trimEnd cs = [] ↔ IsBlankRun cs :=
  List.rdropWhile_eq_nil_iff

theorem trimEnd_cons {c : Char} (cs : List Char) (hc : isBlank c = false) :
    trimEnd (c :: cs) = c :: trimEnd cs := by
  obtain ⟨g, hg, hcs⟩ := exists_trimEnd_append cs
  conv_lhs => rw [← hcs, ← List.cons_append, trimEnd_append hg]
  rcases List.eq_nil_or_concat' (trimEnd cs) with hnil | ⟨ds, d, hd⟩
  · rw [hnil]
    exact trimEnd_concat [] hc
  · have hd' : isBlank d = false := isBlank_getLast_trimEnd cs d (by simp [hd])
    rw [hd, ← List.cons_append]
    exact trimEnd_concat _ hd'

theorem trimEnd_word_append {w : List Char} (hw : ∀ c ∈ w, isBlank c = false) (cs : List Char) :
    trimEnd (w ++ cs) = w ++ trimEnd cs := by
  induction w with
  | nil => rfl
  | cons c w ih =>
    have hc := hw c (by simp)
    have hw := fun d hd => hw d (List.mem_cons_of_mem c hd)
    rw [List.cons_append, List.cons_append, trimEnd_cons _ hc, ih hw]

theorem EndsWord.trimEnd {cs : List Char} (hcs : EndsWord cs) : EndsWord (Text.trimEnd cs) := by
  obtain ⟨g, -, h⟩ := exists_trimEnd_append cs
  intro c hc
  apply hcs
  rw [← h, List.head?_append, Option.mem_def.1 hc]
  rfl

theorem trim_append {g cs h : List Char} (hg : IsBlankRun g) (hh : IsBlankRun h) :
    trim (g ++ cs ++ h) = trim cs := by
  unfold trim
  rw [List.append_assoc, trimStart_append hg]
  by_cases hcs : IsBlankRun cs
  · have hch := hcs.append hh
    rw [trimStart_eq_nil_iff.2 hch, trimStart_eq_nil_iff.2 hcs]
  · have hne : trimStart cs ≠ [] := fun h => hcs (trimStart_eq_nil_iff.1 h)
    rw [← takeWhile_trimStart cs, List.append_assoc, trimStart_append (isBlankRun_takeWhile cs),
      trimStart_append (isBlankRun_takeWhile cs)]
    cases hts : trimStart cs with
    | nil => exact absurd hts hne
    | cons c ds =>
      have hc := isBlank_head_trimStart hts
      rw [List.cons_append, trimStart_cons hc, trimStart_cons hc, ← List.cons_append,
        trimEnd_append hh]

theorem trim_append_right {cs g : List Char} (hg : IsBlankRun g) : trim (cs ++ g) = trim cs :=
  trim_append IsBlankRun.nil hg

theorem trim_cons {c : Char} (cs : List Char) (hc : isBlank c = false) :
    trim (c :: cs) = c :: trimEnd cs := by
  rw [trim, trimStart_cons hc, trimEnd_cons cs hc]

theorem trim_of_word {w : List Char} (hw : ∀ c ∈ w, isBlank c = false) : trim w = w := by
  have hend := trimEnd_word_append hw []
  rw [List.append_nil, show trimEnd [] = [] from rfl, List.append_nil] at hend
  cases w with
  | nil => rfl
  | cons c w => rw [trim, trimStart_cons (hw c (by simp)), hend]

theorem trim_trimEnd (cs : List Char) : trim (trimEnd cs) = trim cs := by
  obtain ⟨g, hg, h⟩ := exists_trimEnd_append cs
  rw [← trim_append_right hg, h]

theorem trim_trim (cs : List Char) : trim (trim cs) = trim cs := by
  have hstart : trim (trimStart cs) = trim cs := by
    have h : trim (cs.takeWhile isBlank ++ trimStart cs ++ []) = trim (trimStart cs) :=
      trim_append (isBlankRun_takeWhile cs) IsBlankRun.nil
    rw [List.append_nil, takeWhile_trimStart] at h
    exact h.symm
  calc trim (trim cs) = trim (trimStart cs) := trim_trimEnd (trimStart cs)
    _ = trim cs := hstart

theorem mem_of_mem_trim {c : Char} {cs : List Char} (h : c ∈ trim cs) : c ∈ cs := by
  rw [trim, trimEnd, List.mem_reverse] at h
  have hstart := List.mem_reverse.1 ((List.dropWhile_suffix _).mem h)
  exact (List.dropWhile_suffix _).mem hstart

theorem trim_eq_nil_iff {cs : List Char} : trim cs = [] ↔ IsBlankRun cs := by
  rw [trim, trimEnd_eq_nil_iff]
  constructor
  · intro h
    rw [← takeWhile_trimStart cs]
    exact (isBlankRun_takeWhile cs).append h
  · intro h
    rw [trimStart_eq_nil_iff.2 h]
    exact IsBlankRun.nil

theorem exists_return_append (cs : List Char) : ∃ g, (g = [] ∨ g = ['\r']) ∧
    cs = withoutReturn cs ++ g ∧ ('\r' ∈ g ↔ cs.getLast? = some '\r') := by
  unfold withoutReturn
  split
  · next h =>
    obtain ⟨ds, rfl⟩ := List.getLast?_eq_some_iff.1 h
    exact ⟨['\r'], .inr rfl, by simp, by simp⟩
  · next h => exact ⟨[], .inl rfl, by simp, by simp [h]⟩

theorem exists_withoutReturn_append (cs : List Char) :
    ∃ g, IsBlankRun g ∧ withoutReturn cs ++ g = cs := by
  obtain ⟨g, hg, hcs, -⟩ := exists_return_append cs
  refine ⟨g, ?_, hcs.symm⟩
  rcases hg with rfl | rfl
  · exact IsBlankRun.nil
  · intro c hc
    obtain rfl := List.mem_singleton.1 hc
    decide

theorem trim_withoutReturn (cs : List Char) : trim (withoutReturn cs) = trim cs := by
  obtain ⟨g, hg, h⟩ := exists_withoutReturn_append cs
  rw [← trim_append_right hg, h]

theorem one_le_byteLength {cs : List Char} (h : cs ≠ []) : 1 ≤ byteLength cs := by
  obtain ⟨c, cs, rfl⟩ := List.exists_cons_of_ne_nil h
  have := c.utf8Size_pos
  rw [byteLength_cons]
  omega

theorem byteLength_trimEnd_le (cs : List Char) : byteLength (trimEnd cs) ≤ byteLength cs := by
  obtain ⟨g, -, hg⟩ := exists_trimEnd_append cs
  have := congrArg byteLength hg
  rw [byteLength_append] at this
  omega

theorem byteLength_trim_le (cs : List Char) : byteLength (trim cs) ≤ byteLength cs := by
  have hend := byteLength_trimEnd_le (trimStart cs)
  have hstart := congrArg byteLength (takeWhile_trimStart cs)
  rw [byteLength_append] at hstart
  unfold trim
  omega

theorem byteLength_withoutReturn_le (cs : List Char) :
    byteLength (withoutReturn cs) ≤ byteLength cs := by
  obtain ⟨g, -, hg⟩ := exists_withoutReturn_append cs
  have := congrArg byteLength hg
  rw [byteLength_append] at this
  omega

theorem withoutReturn_eq_self {cs : List Char} (h : ∀ c ∈ cs.getLast?, isBlank c = false) :
    withoutReturn cs = cs := by
  unfold withoutReturn
  split
  · next hlast => exact absurd (h '\r' hlast) (by decide)
  · rfl

end PlatformRules.Text
