import PlatformRules.Document.Check
import PlatformRules.Document.Tokens
import PlatformRules.Proofs.Document.Acceptance
import PlatformRules.Proofs.Document.Faults
import PlatformRules.Proofs.Folds
import PlatformRules.Proofs.Text.Lines

namespace PlatformRules

open Text

theorem Statement.head?_lexemes (st : Statement) : st.lexemes.head? = st.scanned.head? := by
  cases st <;> rfl

theorem Written.kind_ne_undefined {st : Statement} {cs : List Char} (h : Written st cs) :
    ∀ x ∈ st.scanned, x.kind ≠ .undefined := by
  intro x hx
  cases h with
  | blank => simp [Statement.scanned] at hx
  | comment text =>
    simp only [Statement.scanned, List.mem_cons, List.not_mem_nil, or_false] at hx
    rcases hx with rfl | rfl <;> simp
  | action hname hword htext =>
    simp only [Statement.scanned, List.mem_cons, List.not_mem_nil, or_false] at hx
    rcases hx with rfl | rfl | rfl <;> simp
  | path hf htext hgap =>
    simp only [Statement.scanned, List.mem_cons, List.mem_append, List.mem_map, List.not_mem_nil,
      or_false] at hx
    rcases hx with rfl | ⟨w, hw, rfl⟩ | rfl
    · simp
    · exact PathFields.ofWord_ne_undefined_of_mem hf w hw
    · simp

section

variable [Limits]

structure TokenLine.IsOf (l : TokenLine) (k : SourceLine) : Prop where
  number_eq : l.number = k.number
  text_eq : l.text = k.text
  scanned : Line.ofText k.text = .ok l.line

end

def TokenLine.length (l : TokenLine) : Nat :=
  byteLength (withoutReturn l.text)

namespace Document

section

variable [Limits] {text : List Char} {r : ReadLine} {l : SourceLine}

theorem countKind_undefined_of_readLine (h : readLine text = .ok r) :
    r.raw.countKind .undefined = 0 := by
  obtain ⟨st, hst⟩ := exists_written h
  rw [Line.countKind_eq text, (saying_of_readLine h hst).raw, List.countP_eq_zero]
  intro x hx
  rw [beq_iff_eq]
  rcases List.mem_append.1 hx with hx | hx
  · exact hst.kind_ne_undefined x hx
  · rw [List.mem_singleton] at hx
    simp [hx, Lexeme.synthetic]

theorem kind_of_readLine (h : readLine text = .ok r) (hblank : trim text ≠ []) :
    r.raw.kind 0 = r.line.kind 0 ∧ (r.line.kind 0 = .commentSign ∨ r.line.kind 0 = .actionSign ∨
      ∃ o, r.line.kind 0 = .operator o) := by
  obtain ⟨st, hst⟩ := exists_written h
  have hsaid := saying_of_readLine h hst
  rw [r.raw.kind_zero text, r.line.kind_zero text, hsaid.raw, hsaid.line, st.head?_lexemes]
  cases st with
  | blank => exact absurd hst.eq_nil hblank
  | comment text => exact ⟨rfl, .inl rfl⟩
  | action name argument => exact ⟨rfl, .inr (.inl rfl)⟩
  | path o f value => exact ⟨rfl, .inr (.inr ⟨o, rfl⟩)⟩

structure Agrees (ls : List SourceLine) (s : Summary) (t : List TokenLine × LineCounts) :
    Prop where
  shown : List.Forall₂ TokenLine.IsOf t.1.reverse (ls.filter (!·.isBlank))
  counts : t.2 = {
    lines := s.lines - s.blankLines
    blankLines := 0
    commentLines := s.commentLines
    actionLines := s.actionLines
    pathLines := s.pathLines
    undefinedTokens := 0
    totalTokens := (t.1.reverse.map (·.line.length)).sum
    maxLineLength := (t.1.reverse.map (·.length)).foldl max 0 }
  lines_eq : s.lines = ls.length
  total : s.lines = s.blankLines + s.commentLines + s.actionLines + s.pathLines

variable {ls : List SourceLine} {s s' : Summary} {t : List TokenLine × LineCounts}

theorem agrees_blank (h : Agrees ls s t) (hblank : l.isBlank = true) :
    Agrees (ls ++ [l]) s.addBlank t := by
  obtain ⟨hshown, hcounts, hlines, htotal⟩ := h
  constructor
  · rw [List.filter_append, List.filter_cons_of_neg (by simp [hblank])]
    simpa using hshown
  · rw [hcounts]
    simp [Summary.addBlank]
  · simp [Summary.addBlank, hlines]
  · simp only [Summary.addBlank]
    omega

theorem agrees_read (h : Agrees ls s t) (hblank : l.isBlank = false)
    (hread : readLine l.text = .ok r) (hraw : Line.ofText l.text = .ok r.raw) :
    Agrees (ls ++ [l]) (s.addLine r.line) (⟨l.number, l.text, r.raw⟩ :: t.1,
      t.2.add r.raw (byteLength (withoutReturn l.text))) := by
  obtain ⟨hshown, hcounts, hlines, htotal⟩ := h
  obtain ⟨hsame, hkind⟩ := kind_of_readLine hread (SourceLine.trim_ne_nil hblank)
  have hundefined := countKind_undefined_of_readLine hread
  constructor
  · rw [List.filter_append, List.filter_cons_of_pos (by simp [hblank]), List.reverse_cons]
    exact List.rel_append hshown (.cons ⟨rfl, rfl, hraw⟩ .nil)
  · have hlt : s.lines + 1 - s.blankLines = s.lines - s.blankLines + 1 := by omega
    rcases hkind with hkind | hkind | ⟨o, hkind⟩ <;>
      simp [LineCounts.add, Summary.addLine, hsame, hkind, hundefined, hcounts, hlt,
        TokenLine.length]
  · simp [hlines]
  · rcases hkind with hkind | hkind | ⟨o, hkind⟩ <;>
      simp only [Summary.addLine, hkind] <;> omega

theorem agrees_step (h : Agrees ls s t) (hcheck : checkLine s l = .ok s') :
    ∃ t', tokensLine t l = .ok t' ∧ Agrees (ls ++ [l]) s' t' := by
  unfold checkLine at hcheck
  unfold tokensLine
  split at hcheck
  · next hblank =>
    obtain rfl := Except.ok.inj hcheck
    exact ⟨t, if_pos hblank, agrees_blank h hblank⟩
  · next hblank =>
    split at hcheck
    · simp at hcheck
    · next r hread =>
      obtain rfl := Except.ok.inj hcheck
      obtain ⟨-, hraw, -⟩ := readLine_eq_ok_iff.1 hread
      rw [if_neg hblank, hraw]
      exact ⟨_, rfl, agrees_read h (Bool.not_eq_true _ ▸ hblank) hread hraw⟩

theorem exists_agrees (h : ls.foldlM checkLine {} = .ok s) :
    ∃ t, ls.foldlM tokensLine ([], {}) = .ok t ∧ Agrees ls s t := by
  refine foldlM_induction (P := fun ls s => ∃ t, ls.foldlM tokensLine ([], {}) = .ok t ∧ Agrees ls s t)
    ⟨_, rfl, .nil, rfl, rfl, rfl⟩ ?_ h
  rintro before l after s s' - - ⟨t, ht, hagrees⟩ hcheck
  obtain ⟨t', ht', hagrees'⟩ := agrees_step hagrees hcheck
  refine ⟨t', ?_, hagrees'⟩
  rw [List.foldlM_append, ht]
  exact (bind_pure _).trans ht'

/-- A document that passes its check can be shown token by token, and both count alike. -/
theorem tokens_of_check {text : String} {s : Summary} (h : check text = .ok s) :
    (∃ t, tokens text = .ok t ∧
      List.Forall₂ TokenLine.IsOf t.lines ((lines text.toList).filter (!·.isBlank)) ∧
      (t.lines.map (·.number)).Pairwise (· < ·) ∧
      t.counts = {
        lines := s.lines - s.blankLines
        blankLines := 0
        commentLines := s.commentLines
        actionLines := s.actionLines
        pathLines := s.pathLines
        undefinedTokens := 0
        totalTokens := (t.lines.map (·.line.length)).sum
        maxLineLength := (t.lines.map (·.length)).foldl max 0 }) ∧
    (lines text.toList).map (·.number) = List.range' 1 s.lines ∧
    s.lines = s.blankLines + s.commentLines + s.actionLines + s.pathLines := by
  obtain ⟨hsize, hfold⟩ := walk_eq_ok_iff.1 h
  obtain ⟨t, ht, hshown, hcounts, hlines, htotal⟩ := exists_agrees hfold
  have hnumbers := map_number_lines text.toList
  have htokens : tokens text = .ok ⟨t.1.reverse, t.2⟩ := by
    rw [tokens, walk_of_size hsize, ht]
    rfl
  refine ⟨⟨_, htokens, hshown, ?_, hcounts⟩, hlines ▸ hnumbers, htotal⟩
  have hsame : t.1.reverse.map (·.number) =
      ((lines text.toList).filter (!·.isBlank)).map (·.number) :=
    map_eq_map_iff_forall₂.2 (hshown.imp fun _ _ hl => hl.number_eq)
  -- the numbers of all lines increase, and those of some lines do so too
  rw [hsame]
  apply List.Pairwise.sublist (List.filter_sublist.map _)
  rw [hnumbers]
  exact List.pairwise_lt_range'

end

theorem tokens_of_check_action :
    check "#a\n \r\n@hi there\r" = .ok ⟨3, 1, 1, 1, 0⟩ ∧
      ∃ t, tokens "#a\n \r\n@hi there\r" = .ok t ∧ t.counts.lines = 2 ∧
        t.counts.commentLines = 1 ∧ t.counts.actionLines = 1 := by
  have hcheck : check "#a\n \r\n@hi there\r" = .ok ⟨3, 1, 1, 1, 0⟩ := by decide +kernel
  obtain ⟨⟨t, ht, -, -, hcounts⟩, -⟩ := tokens_of_check hcheck
  refine ⟨hcheck, t, ht, ?_⟩
  rw [hcounts]
  exact ⟨rfl, rfl, rfl⟩

end Document

end PlatformRules
