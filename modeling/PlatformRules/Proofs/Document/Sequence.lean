import PlatformRules.Document.Check
import PlatformRules.Proofs.Document.Faults
import PlatformRules.Proofs.Folds
import PlatformRules.Proofs.Line.Sequence
import PlatformRules.Proofs.Line.Staged
import PlatformRules.Proofs.Line.Verdicts

namespace PlatformRules

open Text

namespace Buffer

variable [Limits]

/-- The lines that the scanner gives until it stands at the end of the text. -/
inductive ScansTo : Buffer → List Line → Prop
  | atEnd {b : Buffer} (hend : b.atEnd = true) : ScansTo b []
  | line {b : Buffer} {l : Line} {ls : List Line} (hend : b.atEnd = false)
      (hscan : b.scanLine.1 = .ok l) (hrest : ScansTo b.scanLine.2 ls) : ScansTo b (l :: ls)

structure Holds (source : List Char) (l : Line) (k : SourceLine) : Prop where
  lexemes : l.tokens.map (·.lexeme source) = Lexeme.ofLine k.text
  length_le : k.length ≤ maxLineLength

variable {b : Buffer} {ls : List Line}

theorem holds_lineRest {l : Line} (hscan : b.scanLine.1 = .ok l) (number offset : Nat) :
    Holds b.text l ⟨number, offset, b.lineRest⟩ := by
  rw [scanLine_fst] at hscan
  obtain ⟨hlength, htokens⟩ := Line.scan_eq_ok_iff.1 hscan
  refine ⟨?_, hlength⟩
  rw [htokens, List.map_map, ← Scan.lexemes_line (standsAt_lineRest b)]
  rfl

theorem ScansTo.holds (h : ScansTo b ls) (number : Nat) :
    List.Forall₂ (Holds b.text) ls (linesFrom number b.position b.rest []) := by
  induction h generalizing number with
  | @atEnd b hend =>
    have hrest : b.rest = [] := by simpa [Buffer.atEnd] using hend
    rw [hrest, linesFrom, if_pos rfl]
    exact .nil
  | @line b l ls hend hscan hrest ih =>
    have hne : b.rest ≠ [] := by simpa [Buffer.atEnd] using hend
    have hafter : b.scanLine.2 = b.readLine?.2 := by
      rw [readLine?_snd]
      exact eq_advance_of_scanLine (Prod.ext hscan rfl : b.scanLine = (.ok l, b.scanLine.2))
    have htext : b.readLine?.2.text = b.text := by rw [readLine?_snd, text_advance]
    have hlines := ih (number + 1)
    rw [hafter, htext] at hlines
    rw [linesFrom_eq_cons number hne]
    exact .cons (holds_lineRest hscan ..) hlines

theorem Holds.isClosed {source : List Char} {l : Line} {k : SourceLine} (h : Holds source l k) :
    Grammar.IsClosed l.tokens := by
  obtain ⟨us, e, htokens, hscanned, hkind⟩ := Token.exists_concat_of_lexemes h.lexemes
  refine ⟨us, e, htokens, hkind, ?_⟩
  intro t ht
  have hmem := List.mem_map_of_mem (f := (·.lexeme source)) ht
  rw [hscanned] at hmem
  exact (Lexeme.isPlaced_of_mem_ofBody hmem).2

end Buffer

namespace Document

open Grammar (countSegment checkSegment checkSequence)

variable {source : List Char} {l : Line} {k : SourceLine} {ls : List Line} {ks : List SourceLine}

theorem checkSegment_tokens (source : List Char) (l : Line) :
    checkSegment source l.tokens = l.check source := by
  rw [checkSegment, Line.ofList?, dif_pos l.length_le]

section

variable [Limits]

theorem isOk_readLine_iff (h : k.length ≤ maxLineLength) :
    (∃ r, readLine k.text = .ok r) ↔ ∃ st, Written st (trim k.text) :=
  readLine_isOk_iff ((byteLength_withoutReturn_le k.text).trans h)

def CountsTo (n : Nat) : Except SequenceError Nat → Except DocumentError Summary → Prop :=
  Except.Related (fun e x => ∃ cause, x = .syntaxError (e.line + 1) cause)
    fun m s => m = n ∧ s.lines = n

theorem countsTo_step (h : Buffer.Holds source l k) {n : Nat} {s : Summary} (hs : s.lines = n)
    (hnumber : k.number = n + 1) :
    CountsTo (n + 1) (countSegment source n l.tokens) (checkLine s k) := by
  have hcheck := Line.check_eq_ok_iff h.lexemes
  rw [countSegment, checkSegment_tokens, checkLine]
  by_cases hblank : k.isBlank = true
  · -- a blank line has only its end, which keeps the grammar
    have hwritten : Written .blank (trim k.text) := by
      rw [SourceLine.isBlank_iff_trim.1 hblank]
      exact .blank
    rw [if_pos hblank, hcheck.2 ⟨_, hwritten⟩]
    exact ⟨rfl, congrArg (· + 1) hs⟩
  · rw [if_neg hblank]
    rw [← isOk_readLine_iff h.length_le] at hcheck
    cases hread : readLine k.text with
    | ok r =>
      rw [hcheck.2 ⟨r, hread⟩]
      exact ⟨rfl, (s.lines_addLine r.line).trans (congrArg (· + 1) hs)⟩
    | error cause =>
      cases hl : l.check source with
      | ok u =>
        obtain ⟨r, hr⟩ := hcheck.1 hl
        simp [hread] at hr
      | error e => exact ⟨cause, by rw [hnumber]⟩

theorem countsTo_foldlM (h : List.Forall₂ (Buffer.Holds source) ls ks) {n : Nat} {s : Summary}
    (hs : s.lines = n) (hnumbered : NumberedFrom (n + 1) ks) :
    CountsTo (n + ks.length) ((ls.map (·.tokens)).foldlM (countSegment source) n)
      (ks.foldlM checkLine s) := by
  -- the count so far fixes the number of the line that comes next
  induction h generalizing n s with
  | nil => exact ⟨rfl, hs⟩
  | @cons l k ls ks hl _ ih =>
    obtain ⟨hnumber, hrest⟩ := hnumbered
    rw [List.map_cons, List.foldlM_cons, List.foldlM_cons]
    refine (countsTo_step hl hs hnumber).bind ?_
    rintro m t ⟨rfl, ht⟩
    have hlength : n + (k :: ks).length = n + 1 + ks.length := by
      rw [List.length_cons]
      omega
    rw [hlength]
    exact ih ht hrest

theorem countsTo_check {text : String} (hsize : text.utf8ByteSize ≤ maxDocumentSize)
    (hscan : Buffer.ScansTo (Buffer.ofText text.toList) ls) :
    CountsTo (lines text.toList).length
      (checkSequence text.toList (ls.flatMap (·.tokens))) (check text) := by
  have hholds : List.Forall₂ (Buffer.Holds text.toList) ls (lines text.toList) := hscan.holds 1
  have hclosed : ∀ ts ∈ ls.map (·.tokens), Grammar.IsClosed ts := by
    intro ts hts
    obtain ⟨l, hl, rfl⟩ := List.mem_map.1 hts
    obtain ⟨⟨i, hi⟩, rfl⟩ := List.get_of_mem hl
    exact (hholds.get hi (hholds.length_eq ▸ hi)).isClosed
  rw [List.flatMap_def, Grammar.checkSequence_flatten hclosed, check,
    walk_of_size hsize]
  have hcounts := countsTo_foldlM hholds (n := 0) (s := {}) rfl (numberedFrom_linesFrom ..)
  rwa [Nat.zero_add] at hcounts

/-- The tokens of a text are counted as lines, or refused, as the document is. -/
theorem checkSequence_iff_check {text : String} (hsize : text.utf8ByteSize ≤ maxDocumentSize)
    (hscan : Buffer.ScansTo (Buffer.ofText text.toList) ls) :
    let counted := checkSequence text.toList (ls.flatMap (·.tokens))
    (∀ n, counted = .ok n ↔
      n = (lines text.toList).length ∧ ∃ s, check text = .ok s ∧ s.lines = n) ∧
    ∀ k, (∃ e, counted = .error ⟨k, e⟩) ↔
      ∃ cause, check text = .error (.syntaxError (k + 1) cause) := by
  intro counted
  have hcounts : CountsTo _ counted (check text) := countsTo_check hsize hscan
  cases hcounted : counted with
  | ok m =>
    rw [hcounted] at hcounts
    cases hcheck : check text with
    | ok s =>
      rw [hcheck] at hcounts
      obtain ⟨rfl, hs⟩ := hcounts
      refine ⟨fun n => ?_, by simp⟩
      simp only [Except.ok.injEq, exists_eq_left', hs]
      exact ⟨fun h => ⟨h.symm, h⟩, fun h => h.2⟩
    | error x =>
      rw [hcheck] at hcounts
      exact hcounts.elim
  | error e =>
    rw [hcounted] at hcounts
    cases hcheck : check text with
    | ok s =>
      rw [hcheck] at hcounts
      exact hcounts.elim
    | error x =>
      rw [hcheck] at hcounts
      obtain ⟨cause, rfl⟩ := hcounts
      obtain ⟨line, error⟩ := e
      simp

end

theorem checkSequence_iff_check_nameless : ∃ ls e,
    Buffer.ScansTo (Buffer.ofText "#a\r\n\n@".toList) ls ∧
      checkSequence "#a\r\n\n@".toList (ls.flatMap (·.tokens)) = .error ⟨2, e⟩ := by
  have hscan : ∃ ls, Buffer.ScansTo (Buffer.ofText "#a\r\n\n@".toList) ls :=
    ⟨_, .line rfl rfl (.line rfl rfl (.line rfl rfl (.atEnd rfl)))⟩
  obtain ⟨ls, hls⟩ := hscan
  have hsize : "#a\r\n\n@".utf8ByteSize ≤ maxDocumentSize := by decide
  obtain ⟨-, herror⟩ := checkSequence_iff_check hsize hls
  obtain ⟨e, he⟩ := (herror 2).2 ⟨.grammar (.invalidActionName ""), by decide +kernel⟩
  exact ⟨ls, e, hls, he⟩

end Document

end PlatformRules
