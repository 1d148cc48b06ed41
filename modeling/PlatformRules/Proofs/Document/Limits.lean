import PlatformRules.Proofs.Document.Faults
import PlatformRules.Proofs.Document.Formatting

namespace PlatformRules

open Text

namespace SourceLine

def IsGlued (l : SourceLine) : Prop :=
  Statement.IsGlued (trim l.text)

instance (l : SourceLine) : Decidable l.IsGlued :=
  inferInstanceAs (Decidable (Statement.IsGlued (trim l.text)))

variable [Limits]

/-- A line that would grow, and takes all the bytes a line may have. -/
def IsFull (l : SourceLine) : Prop :=
  l.IsGlued ∧ byteLength (trim l.text) = maxLineLength

instance (l : SourceLine) : Decidable l.IsFull :=
  instDecidableAnd

end SourceLine

theorem Summary.addLine_congr {l k : Line} {source source' : List Char}
    (h : l.tokens.map (·.lexeme source) = k.tokens.map (·.lexeme source')) (s : Summary) :
    s.addLine l = s.addLine k := by
  have hzero : l.kind 0 = k.kind 0 := by
    rw [l.kind_zero source, k.kind_zero source', h]
  simp only [addLine, hzero]

namespace Document

variable {l k : SourceLine} {s : Summary}

theorem byteLength_trim_le_of_formats [Limits] {chunk : List Char} (h : Formats l chunk) :
    byteLength (trim l.text) ≤ maxLineLength := by
  obtain ⟨st, hst, -, hlength⟩ := h
  cases hblank : l.isBlank with
  | true =>
    rw [SourceLine.isBlank_iff_trim.1 hblank]
    exact Nat.zero_le _
  | false =>
    rw [← trim_withoutReturn]
    exact (byteLength_trim_le _).trans (hlength hblank)

theorem byteLength_of_formats [Limits] {chunk : List Char} (h : Formats l chunk) :
    byteLength chunk ≤ byteLength (trim l.text) + if l.IsGlued then 1 else 0 := by
  obtain ⟨st, hst, rfl, -⟩ := h
  split
  · next hglued =>
    rw [Statement.byteLength_formatted_of_isGlued hst (trim_trim l.text) hglued]
  · next hglued => exact Statement.byteLength_formatted_le hst hglued

namespace FormatsTo

variable [Limits]

theorem length_le_iff (h : FormatsTo l k) : k.length ≤ maxLineLength ↔ ¬l.IsFull := by
  obtain ⟨-, hformats⟩ := h
  have htrim := byteLength_trim_le_of_formats hformats
  obtain ⟨st, hst, hk, -⟩ := hformats
  unfold SourceLine.IsFull SourceLine.length
  rw [hk]
  by_cases hglued : l.IsGlued
  · rw [Statement.byteLength_formatted_of_isGlued hst (trim_trim l.text) hglued]
    simp only [hglued, true_and]
    omega
  · have := Statement.byteLength_formatted_le hst hglued
    simp only [hglued, false_and, not_false_iff, iff_true]
    omega

theorem isBlank_eq (h : FormatsTo l k) : k.isBlank = l.isBlank := by
  obtain ⟨-, st, hl, hk, -⟩ := h.saysSame
  rw [Bool.eq_iff_iff, SourceLine.isBlank_iff_trim, SourceLine.isBlank_iff_trim]
  constructor
  · intro hnil
    obtain rfl := hk.eq_blank hnil
    exact hl.eq_nil
  · intro hnil
    obtain rfl := hl.eq_blank hnil
    exact hk.eq_nil

theorem checkLine_eq (h : FormatsTo l k) (hfull : ¬l.IsFull) (s : Summary) :
    checkLine s k = checkLine s l := by
  have hlen := (byteLength_withoutReturn_le k.text).trans (h.length_le_iff.2 hfull)
  obtain ⟨-, st, hl, hk, hlength⟩ := h.saysSame
  cases hblank : l.isBlank with
  | true => simp only [checkLine, h.isBlank_eq, hblank, if_true]
  | false =>
    obtain ⟨r, hr, hsaid⟩ := exists_readLine_of_written (hlength hblank) hl
    obtain ⟨r', hr', hsaid'⟩ := exists_readLine_of_written hlen hk
    simp only [checkLine, h.isBlank_eq, hblank, hr, hr', Bool.false_eq_true, if_false]
    rw [Summary.addLine_congr (hsaid'.line.trans hsaid.line.symm)]

theorem length_le_of_not_refuses (h : FormatsTo l k) (hk : ∀ x, ¬Refuses k x) :
    k.length ≤ maxLineLength := by
  obtain ⟨-, st, hst, htext, -⟩ := h
  -- no return is taken off its end, so that the limit was on all its bytes
  have hkept := withoutReturn_eq_self (Statement.isBlank_getLast_formatted hst)
  rw [← htext] at hkept
  cases hblank : k.isBlank with
  | true =>
    have hwritten := Statement.written_formatted hst
    rw [← htext] at hwritten
    obtain rfl := hwritten.eq_blank (SourceLine.isBlank_iff_trim.1 hblank)
    rw [SourceLine.length, htext]
    exact Nat.zero_le _
  | false =>
    cases hread : readLine k.text with
    | error cause => exact absurd ⟨hblank, cause, hread, rfl⟩ (hk _)
    | ok r =>
      have hlength := length_of_readLine hread
      rwa [hkept] at hlength

end FormatsTo

variable {text f : String}

section

variable [Limits]

theorem not_isFull_of_not_refuses (h : format text = .ok f)
    (hnot : ∀ k ∈ lines f.toList, ∀ x, ¬Refuses k x) : ∀ l ∈ lines text.toList, ¬l.IsFull := by
  have hboth := (List.forall₂_and_left _ _).2 ⟨hnot, (formatsTo_lines h).flip⟩
  have hfull : List.Forall₂ (fun l _ => ¬l.IsFull ∧ True) (lines text.toList) (lines f.toList) := by
    apply (hboth.imp _).flip
    rintro k l ⟨hk, hlk⟩
    exact ⟨(FormatsTo.length_le_iff hlk).1 (FormatsTo.length_le_of_not_refuses hlk hk), trivial⟩
  exact ((List.forall₂_and_left _ _).1 hfull).1

theorem check_eq_of_not_isFull (h : format text = .ok f) (hsize : f.utf8ByteSize ≤ maxDocumentSize)
    (hfull : ∀ l ∈ lines text.toList, ¬l.IsFull) : check f = check text := by
  have hsize' := (format_eq_ok h).1
  have hlines := (List.forall₂_and_left _ _).2 ⟨hfull, formatsTo_lines h⟩
  have hrelated : Except.Related Eq Eq ((lines f.toList).foldlM checkLine {})
      ((lines text.toList).foldlM checkLine {}) := by
    apply foldlM_related _ hlines.flip rfl
    rintro s _ k l rfl ⟨hl, hlk⟩
    rw [hlk.checkLine_eq hl]
    cases checkLine s l with
    | error x => rfl
    | ok t => rfl
  rw [check, check, walk_of_size hsize, walk_of_size hsize']
  exact Except.eq_of_related hrelated

theorem check_eq_ok_of_format (h : format text = .ok f) : ∃ s, check text = .ok s := by
  cases hcheck : check text with
  | ok s => exact ⟨s, rfl⟩
  | error x =>
    rw [check_eq_error_iff, ← format_eq_error_iff, h] at hcheck
    simp at hcheck

theorem check_format_iff (h : format text = .ok f) {s : Summary} (hs : check text = .ok s) :
    check f = .ok s ↔
      f.utf8ByteSize ≤ maxDocumentSize ∧ ∀ l ∈ lines text.toList, ¬l.IsFull := by
  constructor
  · intro hcheck
    obtain ⟨hsize, hnot⟩ := (exists_walk_eq_ok_iff refusesLines_checkLine).1 ⟨s, hcheck⟩
    exact ⟨hsize, not_isFull_of_not_refuses h hnot⟩
  · rintro ⟨hsize, hfull⟩
    rw [check_eq_of_not_isFull h hsize hfull, hs]

theorem byteLength_flatMap_le {ls : List SourceLine} {chunks : List (List Char)}
    (h : List.Forall₂ Formats ls chunks) : byteLength (chunks.flatMap (· ++ ['\n'])) ≤
      (ls.map fun l => l.length + 1).sum + ls.countP fun l => l.IsGlued := by
  induction h with
  | nil => simp
  | @cons l chunk ls chunks hl _ ih =>
    have hchunk := byteLength_of_formats hl
    have htrim : byteLength (trim l.text) ≤ l.length := byteLength_trim_le l.text
    have hfeed : byteLength ['\n'] = 1 := by decide
    rw [List.flatMap_cons, byteLength_append, byteLength_append, List.map_cons, List.sum_cons,
      List.countP_cons]
    simp only [decide_eq_true_eq]
    omega

theorem utf8ByteSize_format_le (h : format text = .ok f) :
    f.utf8ByteSize ≤ text.utf8ByteSize + (lines text.toList).countP (fun l => l.IsGlued) +
      if IsWhole text.toList then 0 else 1 := by
  obtain ⟨-, chunks, hchunks, hf⟩ := format_eq_ok h
  have hlength := byteLength_flatMap_le hchunks
  have hsum := sum_lines_le text.toList
  rw [utf8ByteSize_eq, utf8ByteSize_eq, hf]
  omega

/-- A formatted document is valid like the one it was made of, unless it has become too large or one
of its lines too long. -/
theorem check_format (h : format text = .ok f) :
    ∃ s, check text = .ok s ∧
      (check f = .ok s ↔
        f.utf8ByteSize ≤ maxDocumentSize ∧ ∀ l ∈ lines text.toList, ¬l.IsFull) ∧
      f.utf8ByteSize ≤ text.utf8ByteSize + (lines text.toList).countP (fun l => l.IsGlued) +
        if IsWhole text.toList then 0 else 1 := by
  obtain ⟨s, hs⟩ := check_eq_ok_of_format h
  exact ⟨s, hs, check_format_iff h hs, utf8ByteSize_format_le h⟩

end

theorem check_format_comment :
    ∃ s, check "\t#c" = .ok s ∧ check "# c\n" = .ok s ∧ s.commentLines = 1 := by
  have hformat : format "\t#c" = .ok "# c\n" := by decide
  obtain ⟨s, hs, hvalid, -⟩ := check_format hformat
  have hcount : check "\t#c" = .ok { lines := 1, commentLines := 1 } := by decide
  obtain rfl := Except.ok.inj (hs.symm.trans hcount)
  exact ⟨_, hs, hvalid.2 ⟨by decide, by decide⟩, rfl⟩

theorem exists_format_eq_ok [Limits] (hsize : text.utf8ByteSize ≤ maxDocumentSize)
    (hread : ∀ l ∈ lines text.toList, ∀ x, ¬Refuses l x) : ∃ f, format text = .ok f := by
  obtain ⟨done, hdone⟩ :=
    (exists_walk_eq_ok_iff (s := []) refusesLines_formatLine).2 ⟨hsize, hread⟩
  exact ⟨String.join done.reverse, by rw [format, hdone]; rfl⟩

theorem check_format_word [Limits] {word : List Char} (hne : word ≠ [])
    (hword : ∀ c ∈ '#' :: word, isBlank c = false)
    (hlength : byteLength ('#' :: word) = maxLineLength) :
    ∃ f, format (String.ofList ('#' :: word)) = .ok f ∧
      check f ≠ check (String.ofList ('#' :: word)) := by
  have htrim : trim ('#' :: word) = '#' :: word := trim_of_word hword
  have hkept : withoutReturn ('#' :: word) = '#' :: word :=
    withoutReturn_eq_self fun c hc => hword c (List.mem_of_getLast? hc)
  have hfeed : '\n' ∉ '#' :: word := fun h => absurd (hword _ h) (by decide)
  have hlines : lines (String.ofList ('#' :: word)).toList = [⟨1, 0, '#' :: word⟩] := by
    rw [String.toList_ofList, lines_of_not_mem hfeed (by simp), hkept]
  have hsize : (String.ofList ('#' :: word)).utf8ByteSize ≤ maxDocumentSize := by
    rw [utf8ByteSize_ofList, hlength]
    exact Limits.maxLineLength_lt.le
  have hread : ∀ l ∈ lines (String.ofList ('#' :: word)).toList, ∀ x, ¬Refuses l x := by
    rintro l hl x ⟨-, cause, hread, -⟩
    rw [hlines, List.mem_singleton] at hl
    subst hl
    have hwritten : Written (.comment (trim word)) (trim ('#' :: word)) := by
      rw [htrim]
      exact .comment word
    obtain ⟨r, hr, -⟩ := exists_readLine_of_written (by rw [hkept, hlength]) hwritten
    simp [hr] at hread
  have hfull : SourceLine.IsFull ⟨1, 0, '#' :: word⟩ := by
    obtain ⟨c, rest, rfl⟩ := List.exists_cons_of_ne_nil hne
    have hends : ¬EndsWord (c :: rest) := by simp [EndsWord, hword c (by simp)]
    unfold SourceLine.IsFull SourceLine.IsGlued
    simp only [htrim]
    exact ⟨⟨c :: rest, rfl, hends⟩, hlength⟩
  obtain ⟨f, hformat⟩ := exists_format_eq_ok hsize hread
  obtain ⟨s, hs⟩ := check_eq_ok_of_format hformat
  refine ⟨f, hformat, ?_⟩
  rw [hs]
  intro hcheck
  have hnot := ((check_format_iff hformat hs).1 hcheck).2
  rw [hlines] at hnot
  exact hnot _ (by simp) hfull

theorem exists_format_check_ne :
    ∃ f, format (String.ofList ('#' :: List.replicate 65535 'x')) = .ok f ∧
      check f ≠ check (String.ofList ('#' :: List.replicate 65535 'x')) := by
  have hword : ∀ c ∈ '#' :: List.replicate 65535 'x', isBlank c = false := by
    intro c hc
    rcases List.mem_cons.1 hc with rfl | hc
    · decide
    · obtain rfl := List.eq_of_mem_replicate hc
      decide
  have hlength : byteLength ('#' :: List.replicate 65535 'x') = maxLineLength := by
    rw [byteLength_cons, byteLength_replicate]
    decide
  have hne : List.replicate 65535 'x' ≠ [] := List.replicate_succ_ne_nil
  exact check_format_word hne hword hlength

end Document

end PlatformRules
