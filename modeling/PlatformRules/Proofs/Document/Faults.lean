import PlatformRules.Document.Check
import PlatformRules.Document.Format
import PlatformRules.Proofs.Folds
import PlatformRules.Proofs.Text.Lines

namespace PlatformRules

open Text

namespace Document

variable [Limits]

def Refuses (l : SourceLine) (x : DocumentError) : Prop :=
  l.isBlank = false ∧ ∃ cause, readLine l.text = .error cause ∧ x = .syntaxError l.number cause

def FirstRefusal (ls : List SourceLine) (x : DocumentError) : Prop :=
  ∃ before l after, ls = before ++ l :: after ∧ (∀ k ∈ before, ∀ y, ¬Refuses k y) ∧ Refuses l x

def RefusesLines {σ : Type} (visit : σ → SourceLine → Except DocumentError σ) : Prop :=
  ∀ s l x, visit s l = .error x ↔ Refuses l x

variable {σ : Type} {visit : σ → SourceLine → Except DocumentError σ} {ls : List SourceLine} {s : σ}
  {x : DocumentError}

theorem Refuses.number_eq {l : SourceLine} {n : Nat} {cause : LineError}
    (h : Refuses l (.syntaxError n cause)) : n = l.number := by
  obtain ⟨-, e, -, he⟩ := h
  exact (DocumentError.syntaxError.inj he).1

theorem exists_foldlM_eq_ok_iff (hvisit : RefusesLines visit) :
    (∃ t, ls.foldlM visit s = .ok t) ↔ ∀ l ∈ ls, ∀ y, ¬Refuses l y := by
  induction ls generalizing s with
  | nil => exact ⟨fun _ => by simp, fun _ => ⟨s, rfl⟩⟩
  | cons l ls ih =>
    rw [List.foldlM_cons, List.forall_mem_cons]
    cases hl : visit s l with
    | error y =>
      have hy := (hvisit s l y).1 hl
      exact ⟨fun ⟨t, ht⟩ => by simp [bind, Except.bind] at ht, fun h => absurd hy (h.1 y)⟩
    | ok t =>
      have hnot (y : DocumentError) : ¬Refuses l y := by
        intro hy
        rw [(hvisit s l y).2 hy] at hl
        simp at hl
      exact ih.trans ⟨fun h => ⟨hnot, h⟩, fun h => h.2⟩

theorem foldlM_eq_error_iff_firstRefusal (hvisit : RefusesLines visit) :
    ls.foldlM visit s = .error x ↔ FirstRefusal ls x := by
  rw [foldlM_eq_error_iff]
  constructor
  · rintro ⟨before, l, after, t, rfl, hbefore, hl⟩
    have hnone := (exists_foldlM_eq_ok_iff hvisit).1 ⟨t, hbefore⟩
    exact ⟨before, l, after, rfl, hnone, (hvisit t l x).1 hl⟩
  · rintro ⟨before, l, after, rfl, hbefore, hl⟩
    obtain ⟨t, ht⟩ := (exists_foldlM_eq_ok_iff (s := s) hvisit).2 hbefore
    exact ⟨before, l, after, t, rfl, ht, (hvisit t l x).2 hl⟩

def HasFault (text : String) (x : DocumentError) : Prop :=
  maxDocumentSize < text.utf8ByteSize ∧ x = .tooLarge text.utf8ByteSize ∨
    text.utf8ByteSize ≤ maxDocumentSize ∧ FirstRefusal (lines text.toList) x

theorem walk_of_size {text : String} (hsize : text.utf8ByteSize ≤ maxDocumentSize) :
    walk visit text s = (lines text.toList).foldlM visit s := by
  rw [walk, if_neg (Nat.not_lt.2 hsize), foldLines_eq_foldlM]

theorem walk_eq_ok_iff {text : String} {t : σ} : walk visit text s = .ok t ↔
    text.utf8ByteSize ≤ maxDocumentSize ∧ (lines text.toList).foldlM visit s = .ok t := by
  by_cases hsize : text.utf8ByteSize ≤ maxDocumentSize
  · simp [walk_of_size, hsize]
  · simp [walk, Nat.not_le.1 hsize, hsize]

theorem walk_eq_error_iff (hvisit : RefusesLines visit) {text : String} :
    walk visit text s = .error x ↔ HasFault text x := by
  unfold HasFault
  by_cases hsize : text.utf8ByteSize ≤ maxDocumentSize
  · rw [walk_of_size hsize, foldlM_eq_error_iff_firstRefusal hvisit]
    simp [hsize, Nat.not_lt.2 hsize]
  · simp [walk, Nat.not_le.1 hsize, hsize, eq_comm]

theorem exists_walk_eq_ok_iff (hvisit : RefusesLines visit) {text : String} :
    (∃ t, walk visit text s = .ok t) ↔
      text.utf8ByteSize ≤ maxDocumentSize ∧ ∀ l ∈ lines text.toList, ∀ y, ¬Refuses l y := by
  simp only [walk_eq_ok_iff, exists_and_left, exists_foldlM_eq_ok_iff hvisit]

theorem refuses_iff_of_readLine {l : SourceLine} (hblank : l.isBlank = false) {cause : LineError}
    (hread : readLine l.text = .error cause) : Refuses l x ↔ .syntaxError l.number cause = x := by
  simp [Refuses, hblank, hread, eq_comm]

theorem refusesLines_checkLine : RefusesLines checkLine := by
  intro s l x
  unfold checkLine
  split
  · next hblank => simp [Refuses, hblank]
  · next hblank =>
    rw [Bool.not_eq_true] at hblank
    split
    · next cause hread => rw [refuses_iff_of_readLine hblank hread, Except.error.injEq]
    · next r hread => simp [Refuses, hread]

theorem refusesLines_formatLine : RefusesLines formatLine := by
  intro done l x
  unfold formatLine
  split
  · next hblank => simp [Refuses, hblank]
  · next hblank =>
    rw [Bool.not_eq_true] at hblank
    split
    · next cause hread => rw [refuses_iff_of_readLine hblank hread, Except.error.injEq]
    · next r hread => simp [Refuses, hread]

theorem check_eq_error_iff {text : String} : check text = .error x ↔ HasFault text x :=
  walk_eq_error_iff refusesLines_checkLine

theorem format_eq_error_iff {text : String} : format text = .error x ↔ HasFault text x := by
  rw [← walk_eq_error_iff (s := []) refusesLines_formatLine, format]
  cases walk formatLine text [] with
  | error y => simp [Except.map]
  | ok done => simp [Except.map]

end Document

end PlatformRules
