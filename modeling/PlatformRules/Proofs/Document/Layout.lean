import PlatformRules.Proofs.Document.Formatting

namespace PlatformRules

open Text

namespace Text

theorem trim_of_ends {cs : List Char} (hhead : ∀ c ∈ cs.head?, isBlank c = false)
    (hlast : ∀ c ∈ cs.getLast?, isBlank c = false) : trim cs = cs := by
  rcases List.eq_nil_or_concat' cs with rfl | ⟨ds, d, rfl⟩
  · rfl
  · have hstart : trimStart (ds ++ [d]) = ds ++ [d] := by
      cases ds with
      | nil => exact trimStart_cons (hhead d rfl)
      | cons c ds => exact trimStart_cons (hhead c rfl)
    rw [trim, hstart, trimEnd_concat ds (hlast d (by simp))]

theorem map_text_linesFrom (number offset : Nat) {chunks : List (List Char)}
    (h : ∀ chunk ∈ chunks, '\n' ∉ chunk ∧ withoutReturn chunk = chunk) :
    (linesFrom number offset (chunks.flatMap (· ++ ['\n'])) []).map (·.text) = chunks := by
  induction chunks generalizing number offset with
  | nil => rfl
  | cons chunk chunks ih =>
    obtain ⟨hfeed, hkept⟩ := h chunk (by simp)
    rw [List.flatMap_cons, List.append_assoc, List.singleton_append,
      linesFrom_line number offset hfeed, List.map_cons, hkept,
      ih _ _ fun c hc => h c (List.mem_cons_of_mem chunk hc)]

end Text

/-- A token as it is laid out, with the space in front of it. A sign or an operator, with which a
line begins, has none, nor has the name of an action, which is joined to its sign. A value stands
between quotes, and an empty text is left out. -/
def Lexeme.laid (x : Lexeme) : List Char :=
  match x.kind, x.text.getD [] with
  | .commentSign, text | .actionSign, text | .actionName, text | .operator _, text => text
  | .value, text => ' ' :: '"' :: text ++ ['"']
  | _, text => if text = [] then [] else ' ' :: text

theorem Lexeme.laid_word {w : List Char} (hw : w ≠ []) : (word w).laid = ' ' :: w := by
  have hreads := Token.Kind.reads_ofWord w
  unfold laid word
  cases hk : Token.Kind.ofWord w <;> rw [hk] at hreads <;> simp_all [Token.Kind.Reads]

def Scan.lexemes (cs : List Char) : List Lexeme :=
  (line 0 cs).map (·.lexeme cs)

theorem Scan.lexemes_eq (cs : List Char) : lexemes cs = Lexeme.ofLine cs := by
  have hwhole : StandsAt cs 0 cs := ⟨[], [], by simp, rfl⟩
  exact lexemes_line hwhole

namespace Statement

variable {st : Statement} {cs : List Char}

theorem flatMap_laid_words {words : List (List Char)} (h : ∀ w ∈ words, w ≠ []) :
    (words.map Lexeme.word).flatMap (·.laid) = spaced words := by
  rw [List.flatMap_map]
  exact List.flatMap_congr fun w hw => Lexeme.laid_word (h w hw)

theorem flatMap_laid_scanned (h : Written st cs) :
    st.scanned.flatMap (·.laid) = st.formatted := by
  have hoptional (text : List Char) :
      (if text = [] then [] else ' ' :: text) = spaced (optional text) := by
    split
    · next hnil => rw [hnil, spaced_optional_nil]
    · next hne => rw [spaced_optional_of_ne_nil hne]
  cases h with
  | blank => rfl
  | comment text =>
    rw [formatted_comment, ← hoptional]
    simp [scanned, Lexeme.laid]
  | action hname hword htext =>
    rw [formatted_action, ← hoptional]
    simp [scanned, Lexeme.laid]
  | @path o f value text gap hf htext hgap =>
    have hwords : ∀ w ∈ f.words, w ≠ [] := fun w hw => (PathFields.isFieldWord_of_mem hf w hw).1.1
    rw [formatted_path, scanned, List.flatMap_cons, List.flatMap_append,
      flatMap_laid_words hwords]
    simp [Lexeme.laid]

theorem trim_formatted (h : Written st cs) : trim st.formatted = st.formatted := by
  refine trim_of_ends ?_ (isBlank_getLast_formatted h)
  intro c hc
  cases h with
  | blank => simp [formatted, parts] at hc
  | comment text =>
    obtain rfl : '#' = c := by simpa [formatted_comment] using hc
    decide
  | action hname hword htext =>
    obtain rfl : '@' = c := by simpa [formatted_action] using hc
    decide
  | @path o f value text gap hf htext hgap =>
    rw [formatted_path] at hc
    cases o with
    | returns =>
      obtain rfl : '-' = c := by simpa [Operator.symbol] using hc
      decide
    | throws =>
      obtain rfl : '!' = c := by simpa [Operator.symbol] using hc
      decide

theorem lexemes_formatted (h : Written st cs) :
    Scan.lexemes st.formatted = st.scanned ++ [.synthetic .lineEnd] := by
  rw [Scan.lexemes_eq, (written_formatted h).ofLine_eq]

end Statement

namespace Document

variable {text f : String} {l k : SourceLine} {chunk : List Char}

/-- `chunk` is the line `l` in canonical layout, which depends on the tokens only. -/
structure LaysOut (l : SourceLine) (chunk : List Char) : Prop where
  not_mem : '\n' ∉ chunk
  eq_nil_iff : chunk = [] ↔ l.isBlank = true
  trim_eq : trim chunk = chunk
  lexemes_eq : Scan.lexemes chunk = Scan.lexemes (withoutReturn l.text)
  eq_laid : chunk = (Scan.lexemes chunk).flatMap (·.laid)

section

variable [Limits]

theorem Formats.laysOut (h : Formats l chunk) (hl : '\n' ∉ l.text) : LaysOut l chunk := by
  obtain ⟨st, hst, rfl, -⟩ := h
  have hlexemes := Statement.lexemes_formatted hst
  refine ⟨Statement.not_mem_formatted hst fun hm => hl (mem_of_mem_trim hm), ?_,
    Statement.trim_formatted hst, ?_, ?_⟩
  · rw [SourceLine.isBlank_iff_trim]
    constructor
    · intro hnil
      have hformatted := Statement.written_formatted hst
      rw [hnil] at hformatted
      obtain rfl := hformatted.eq_blank rfl
      exact hst.eq_nil
    · intro hnil
      obtain rfl := hst.eq_blank hnil
      rfl
  · rw [hlexemes, Scan.lexemes_eq, Written.ofLine_eq (trim_withoutReturn l.text ▸ hst)]
  · rw [hlexemes, List.flatMap_append, Statement.flatMap_laid_scanned hst]
    simp [Lexeme.laid, Lexeme.synthetic]

theorem Formats.formatLine_eq (h : Formats l chunk) (hk : k.text = chunk)
    (hlength : k.length ≤ maxLineLength) (done : List String) :
    formatLine done k = .ok (String.ofList (k.text ++ ['\n']) :: done) := by
  obtain ⟨st, hst, rfl, -⟩ := h
  have hwritten : Written st (trim k.text) := hk ▸ Statement.written_formatted hst
  cases hblank : k.isBlank with
  | true =>
    obtain rfl := hwritten.eq_blank (SourceLine.isBlank_iff_trim.1 hblank)
    rw [formatLine, if_pos hblank, hk]
    rfl
  | false =>
    obtain ⟨r, hr, hsays⟩ :=
      exists_readLine_of_written ((byteLength_withoutReturn_le k.text).trans hlength) hwritten
    have hsource := Line.source_of_lexemes hsays.raw hwritten
    simp only [formatLine, hblank, hr, hsource, Bool.false_eq_true, if_false]
    rw [← hk]

theorem foldlM_formatLine_of_fixed {ks : List SourceLine}
    (h : ∀ k ∈ ks, ∀ done, formatLine done k = .ok (String.ofList (k.text ++ ['\n']) :: done))
    (done : List String) : ks.foldlM formatLine done =
      .ok ((ks.map fun k => String.ofList (k.text ++ ['\n'])).reverse ++ done) := by
  induction ks generalizing done with
  | nil => rfl
  | cons k ks ih =>
    rw [List.foldlM_cons, h k (by simp)]
    refine (ih (fun i hi => h i (List.mem_cons_of_mem k hi)) _).trans ?_
    simp

theorem format_eq_self (hsize : f.utf8ByteSize ≤ maxDocumentSize)
    (hlines : f.toList = ((lines f.toList).map (·.text)).flatMap (· ++ ['\n']))
    (hfixed : ∀ k ∈ lines f.toList, ∀ done,
      formatLine done k = .ok (String.ofList (k.text ++ ['\n']) :: done)) : format f = .ok f := by
  rw [format, walk_of_size hsize, foldlM_formatLine_of_fixed hfixed, Except.map, List.append_nil,
    List.reverse_reverse]
  refine congrArg Except.ok (String.toList_inj.1 ?_)
  rw [List.flatMap_map] at hlines
  refine Eq.trans ?_ hlines.symm
  rw [String.toList_join, List.flatMap_map]
  simp only [String.toList_ofList]

theorem exists_laysOut (h : format text = .ok f) : ∃ chunks,
    List.Forall₂ Formats (lines text.toList) chunks ∧
      List.Forall₂ LaysOut (lines text.toList) chunks ∧
        f.toList = chunks.flatMap (· ++ ['\n']) ∧ (lines f.toList).map (·.text) = chunks := by
  obtain ⟨-, chunks, hformats, hf⟩ := format_eq_ok h
  have hlaid := ((List.forall₂_and_left _ _).2 ⟨not_mem_lines text.toList, hformats⟩).imp
    fun l chunk hl => And.intro (Formats.laysOut hl.2 hl.1) hl.2
  have hkept : ∀ chunk ∈ chunks, '\n' ∉ chunk ∧ withoutReturn chunk = chunk := by
    intro chunk hchunk
    obtain ⟨i, hi, rfl⟩ := List.getElem_of_mem hchunk
    have hi' : i < (lines text.toList).length := hlaid.length_eq ▸ hi
    obtain ⟨hlays, st, hst, heq, -⟩ := hlaid.get hi' hi
    refine ⟨hlays.not_mem, ?_⟩
    rw [List.get_eq_getElem] at heq
    rw [heq]
    exact withoutReturn_eq_self (Statement.isBlank_getLast_formatted hst)
  refine ⟨chunks, hformats, hlaid.imp fun _ _ hl => hl.1, hf, ?_⟩
  rw [hf]
  exact map_text_linesFrom 1 0 hkept

/-- A formatted document has a line for each line of the document it was made of, which is laid out
from the same tokens, and unless it has become too large it is formatted to itself. -/
theorem format_fixpoint (h : format text = .ok f) :
    (∃ chunks, f.toList = chunks.flatMap (· ++ ['\n']) ∧
      (lines f.toList).map (·.text) = chunks ∧
        List.Forall₂ LaysOut (lines text.toList) chunks) ∧
    (f.utf8ByteSize ≤ maxDocumentSize → (∀ k ∈ lines f.toList, k.length ≤ maxLineLength) →
      format f = .ok f) := by
  obtain ⟨chunks, hformats, hlaid, hf, htexts⟩ := exists_laysOut h
  refine ⟨⟨chunks, hf, htexts, hlaid⟩, fun hsize hlength => format_eq_self hsize ?_ ?_⟩
  · rwa [htexts]
  · intro k hk done
    have hmem : k.text ∈ chunks := htexts ▸ List.mem_map_of_mem hk
    obtain ⟨i, hi, htext⟩ := List.getElem_of_mem hmem
    have hi' : i < (lines text.toList).length := hformats.length_eq ▸ hi
    exact Formats.formatLine_eq (hformats.get hi' hi) htext.symm (hlength k hk) done

end

theorem format_fixpoint_action :
    let text := "\t@A  b c \r\n \n->  osx\t\"x  y\" "
    let f := "@A b c\n\n-> osx \"x  y\"\n"
    format text = .ok f ∧ format f = .ok f ∧
      ∃ chunks, List.Forall₂ LaysOut (lines text.toList) chunks ∧
        f.toList = chunks.flatMap (· ++ ['\n']) := by
  intro text f
  have hformat : format text = .ok f := by decide +kernel
  obtain ⟨⟨chunks, hf, -, hlaid⟩, hfixed⟩ := format_fixpoint hformat
  exact ⟨hformat, hfixed (by decide) (by decide), chunks, hlaid, hf⟩

end Document

end PlatformRules
