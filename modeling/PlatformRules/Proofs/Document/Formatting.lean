import Mathlib.Data.List.Forall2
import PlatformRules.Document.Format
import PlatformRules.Proofs.Document.Acceptance
import PlatformRules.Proofs.Document.Faults
import PlatformRules.Proofs.Line.Rebuilding
import PlatformRules.Proofs.Text.Lines

namespace PlatformRules

open Text

theorem Line.source_of_lexemes {source cs : List Char} {st : Statement} {l : Line}
    (h : l.tokens.map (·.lexeme source) = st.scanned ++ [.synthetic .lineEnd])
    (hst : Written st cs) : l.source source = st.formatted ++ ['\n'] := by
  rw [source_eq_rebuilt h, Lexeme.rebuilt, Statement.filterMap_part?_scanned hst]
  rfl

namespace Document

variable [Limits]

def Formats (l : SourceLine) (chunk : List Char) : Prop :=
  ∃ st, Written st (trim l.text) ∧ chunk = st.formatted ∧
    (l.isBlank = false → byteLength (withoutReturn l.text) ≤ maxLineLength)

theorem formatLine_eq_ok {done out : List String} {l : SourceLine}
    (h : formatLine done l = .ok out) :
    ∃ chunk, Formats l chunk ∧ out = String.ofList (chunk ++ ['\n']) :: done := by
  cases hblank : l.isBlank with
  | true =>
    obtain rfl : "\n" :: done = out := by simpa [formatLine, hblank] using h
    refine ⟨[], ⟨.blank, ?_, rfl, by simp [hblank]⟩, rfl⟩
    rw [SourceLine.isBlank_iff_trim.1 hblank]
    exact .blank
  | false =>
    cases hread : readLine l.text with
    | error e => simp [formatLine, hblank, hread] at h
    | ok r =>
      obtain ⟨st, hst⟩ := exists_written hread
      have hsource := Line.source_of_lexemes (saying_of_readLine hread hst).raw hst
      obtain rfl : String.ofList (r.raw.source l.text) :: done = out := by
        simpa [formatLine, hblank, hread] using h
      refine ⟨st.formatted, ⟨st, hst, rfl, fun _ => length_of_readLine hread⟩, ?_⟩
      rw [hsource]

theorem foldlM_formatLine {ls : List SourceLine} {done out : List String}
    (h : ls.foldlM formatLine done = .ok out) : ∃ chunks, List.Forall₂ Formats ls chunks ∧
      out.reverse = done.reverse ++ chunks.map fun c => String.ofList (c ++ ['\n']) := by
  induction ls generalizing done with
  | nil =>
    obtain rfl := Except.ok.inj h
    exact ⟨[], .nil, by simp⟩
  | cons l ls ih =>
    rw [List.foldlM_cons] at h
    obtain ⟨next, hl, h⟩ := exists_of_bind_eq_ok h
    obtain ⟨chunk, hchunk, rfl⟩ := formatLine_eq_ok hl
    obtain ⟨chunks, hchunks, hout⟩ := ih h
    refine ⟨chunk :: chunks, .cons hchunk hchunks, ?_⟩
    rw [hout, List.reverse_cons, List.append_assoc]
    rfl

theorem format_eq_ok {text f : String} (h : format text = .ok f) :
    text.utf8ByteSize ≤ maxDocumentSize ∧ ∃ chunks,
      List.Forall₂ Formats (lines text.toList) chunks ∧
        f.toList = chunks.flatMap (· ++ ['\n']) := by
  unfold format at h
  cases hrun : walk formatLine text [] with
  | error e => simp [hrun, Except.map] at h
  | ok out =>
    obtain rfl : String.join out.reverse = f := by simpa [hrun, Except.map] using h
    obtain ⟨hsize, hfold⟩ := walk_eq_ok_iff.1 hrun
    obtain ⟨chunks, hchunks, hout⟩ := foldlM_formatLine hfold
    refine ⟨hsize, chunks, hchunks, ?_⟩
    rw [String.toList_join, hout, List.reverse_nil, List.nil_append, List.flatMap_map]
    simp only [String.toList_ofList]

def FormatsTo (l k : SourceLine) : Prop :=
  k.number = l.number ∧ Formats l k.text

theorem formatsTo_linesFrom {ls : List SourceLine} {chunks : List (List Char)}
    (h : List.Forall₂ Formats ls chunks) (number offset : Nat) (hnumber : NumberedFrom number ls)
    (hls : ∀ l ∈ ls, '\n' ∉ l.text) :
    List.Forall₂ FormatsTo ls (linesFrom number offset (chunks.flatMap (· ++ ['\n'])) []) := by
  induction h generalizing number offset with
  | nil => exact .nil
  | @cons l chunk ls chunks hl _ ih =>
    have hformats := hl
    obtain ⟨st, hst, rfl, -⟩ := hl
    obtain ⟨hn, hnumber⟩ := hnumber
    have htrim : '\n' ∉ trim l.text := fun hm => hls l (by simp) (mem_of_mem_trim hm)
    have hchunk := Statement.not_mem_formatted hst htrim
    have hkept := withoutReturn_eq_self (Statement.isBlank_getLast_formatted hst)
    have hrest := ih (number + 1) (offset + byteLength st.formatted + 1) hnumber
      fun k hk => hls k (List.mem_cons_of_mem l hk)
    rw [List.flatMap_cons, List.append_assoc, List.singleton_append,
      linesFrom_line number offset hchunk, hkept]
    exact .cons ⟨hn.symm, hformats⟩ hrest

theorem formatsTo_lines {text f : String} (h : format text = .ok f) :
    List.Forall₂ FormatsTo (lines text.toList) (lines f.toList) := by
  obtain ⟨-, chunks, hchunks, hf⟩ := format_eq_ok h
  rw [hf]
  exact formatsTo_linesFrom hchunks 1 0 (numberedFrom_linesFrom ..) (not_mem_lines text.toList)

def SaysSame (l k : SourceLine) : Prop :=
  k.number = l.number ∧ ∃ st, Written st (trim l.text) ∧ Written st (trim k.text) ∧
    (l.isBlank = false → byteLength (withoutReturn l.text) ≤ maxLineLength)

theorem FormatsTo.saysSame {l k : SourceLine} (h : FormatsTo l k) : SaysSame l k := by
  obtain ⟨hn, st, hst, hk, hlength⟩ := h
  refine ⟨hn, st, hst, ?_, hlength⟩
  rw [hk]
  exact Statement.written_formatted hst

theorem saysSame_lines {text f : String} (h : format text = .ok f) :
    List.Forall₂ SaysSame (lines text.toList) (lines f.toList) :=
  (formatsTo_lines h).imp fun _ _ hl => hl.saysSame

end Document

end PlatformRules
