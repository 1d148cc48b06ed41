import PlatformRules.Proofs.Line.Rebuilding
import PlatformRules.Proofs.Line.Tiling
import PlatformRules.Proofs.Text.Cursor

namespace PlatformRules

open Text

inductive IsPathEnd : List Char → Nat → Prop
  | blank {g : List Char} (hg : IsBlankRun g) : IsPathEnd g 0
  | value {gap inside after : List Char} (hgap : IsGap gap) (hafter : IsBlankRun after) :
      IsPathEnd (gap ++ '"' :: (inside ++ '"' :: after)) 1
  | followed {gap inside after : List Char} (hgap : IsGap gap) (hafter : ¬IsBlankRun after)
      (hquote : '"' ∉ after) : IsPathEnd (gap ++ '"' :: (inside ++ '"' :: after)) 2
  | unclosed {gap rest : List Char} (hgap : IsGap gap) (hquote : '"' ∉ rest) :
      IsPathEnd (gap ++ '"' :: rest) 1

inductive IsPathLine : List Char → Nat → Prop
  | words {g first text tail : List Char} {words : List (List Char)} {n : Nat}
      (hg : IsBlankRun g) (hfirst : IsWord first) (hcomment : first.head? ≠ some '#')
      (haction : first.head? ≠ some '@') (htext : Spaced words text)
      (hwords : ∀ w ∈ words, IsFieldWord w) (htail : IsPathEnd tail n) :
      IsPathLine (g ++ (first ++ (text ++ tail))) (1 + words.length + n)

namespace IsPathEnd

variable {tail : List Char} {n : Nat}

theorem endsWord (h : IsPathEnd tail n) : EndsWord tail := by
  cases h with
  | blank hg => exact fun c hc => hg c (List.mem_of_mem_head? hc)
  | value hgap hafter => exact hgap.endsWord
  | followed hgap hafter hquote => exact hgap.endsWord
  | unclosed hgap hquote => exact hgap.endsWord

theorem length_ofFields (h : IsPathEnd tail n) : (Lexeme.ofFields tail).length = n := by
  have opened {gap rest : List Char} (hgap : IsGap gap) :
      Lexeme.ofFields (gap ++ '"' :: rest) = Lexeme.ofValue rest := by
    apply Lexeme.ofFields_of_quote
    rw [trimStart_append hgap.2, trimStart_cons (by decide)]
  cases h with
  | blank hg => rw [Lexeme.ofFields_of_blank (trimStart_eq_nil_iff.2 hg), List.length_nil]
  | @value gap inside after hgap hafter =>
    have hquote : '"' ∉ after := fun hm => absurd (hafter _ hm) (by decide)
    rw [opened hgap, Lexeme.ofValue_closed hquote, if_pos (trimStart_eq_nil_iff.2 hafter)]
    rfl
  | followed hgap hafter hquote =>
    rw [opened hgap, Lexeme.ofValue_closed hquote, if_neg (mt trimStart_eq_nil_iff.1 hafter)]
    rfl
  | unclosed hgap hquote =>
    rw [opened hgap, Lexeme.ofValue_open hquote]
    rfl

theorem exists_of_quote {gap : List Char} (hgap : IsGap gap) (rest : List Char) :
    ∃ n, IsPathEnd (gap ++ '"' :: rest) n := by
  rcases Scan.not_mem_or_eq_append_quote rest with hquote | ⟨inside, after, rfl, hquote⟩
  · exact ⟨1, .unclosed hgap hquote⟩
  · by_cases hafter : IsBlankRun after
    · exact ⟨1, .value hgap hafter⟩
    · exact ⟨2, .followed hgap hafter hquote⟩

end IsPathEnd

theorem exists_spaced_append {cs : List Char} (hends : EndsWord cs) : ∃ words text tail n,
    cs = text ++ tail ∧ Spaced words text ∧ (∀ w ∈ words, IsFieldWord w) ∧ IsPathEnd tail n := by
  -- the scanner finds the words and the end of the path in the same order
  fun_induction Lexeme.ofFields cs with
  | case1 cs h => exact ⟨[], [], cs, 0, rfl, .nil, by simp, .blank (trimStart_eq_nil_iff.1 h)⟩
  | case2 cs rest h =>
    obtain ⟨n, hn⟩ := IsPathEnd.exists_of_quote (Lexeme.isGap_takeWhile hends h) rest
    rw [← h, takeWhile_trimStart] at hn
    exact ⟨[], [], cs, n, rfl, .nil, by simp, hn⟩
  | case3 cs c rest h hc ih =>
    let word := c :: rest.takeWhile (!isBlank ·)
    obtain ⟨words, text, tail, n, hback, htext, hwords, htail⟩ := ih (endsWord_dropWhile rest)
    have hword : IsFieldWord word := by
      refine ⟨⟨List.cons_ne_nil _ _, ?_⟩, by simpa [word] using hc⟩
      exact List.forall_mem_cons.2 ⟨isBlank_head_trimStart h, not_blank_takeWhile rest⟩
    have hcs : cs.takeWhile isBlank ++ (word ++ text) ++ tail = cs := by
      rw [List.append_assoc, List.append_assoc, ← hback, List.cons_append,
        List.takeWhile_append_dropWhile, ← h, takeWhile_trimStart]
    refine ⟨word :: words, _, tail, n, hcs.symm, .cons (Lexeme.isGap_takeWhile hends h) htext, ?_,
      htail⟩
    exact List.forall_mem_cons.2 ⟨hword, hwords⟩

namespace IsPathLine

variable {cs rest : List Char} {c : Char} {n : Nat}

theorem length_ofLine (h : IsPathLine cs n) : (Lexeme.ofLine cs).length = n + 1 := by
  cases h with
  | @words g first text tail words n hg hfirst hcomment haction htext hwords htail =>
    obtain ⟨hne, hblank⟩ := hfirst
    obtain ⟨c, w, rfl⟩ := List.exists_cons_of_ne_nil hne
    have hstart : trimStart (g ++ ((c :: w) ++ (text ++ tail))) = c :: (w ++ (text ++ tail)) := by
      rw [trimStart_append hg, List.cons_append, trimStart_cons (hblank c (by simp))]
    have hw : ∀ d ∈ w, isBlank d = false := fun d hd => hblank d (List.mem_cons_of_mem c hd)
    have hends : EndsWord (text ++ tail) := htext.endsWord htail.endsWord
    have hc : c ≠ '#' := by simpa using hcomment
    have hc' : c ≠ '@' := by simpa using haction
    rw [Lexeme.ofLine, hstart, Lexeme.ofBody, if_neg hc, if_neg hc', dropWhile_word hw hends,
      Lexeme.ofFields_spaced_append htext hwords htail.endsWord]
    simp only [List.length_append, List.length_cons, List.length_map, htail.length_ofFields,
      List.length_nil]
    omega

theorem exists_of_trimStart (h : trimStart cs = c :: rest) (hcomment : c ≠ '#')
    (haction : c ≠ '@') : ∃ n, IsPathLine cs n := by
  obtain ⟨words, text, tail, n, hback, htext, hwords, htail⟩ :=
    exists_spaced_append (endsWord_dropWhile rest)
  have hword : IsWord (c :: rest.takeWhile (!isBlank ·)) :=
    ⟨List.cons_ne_nil _ _,
      List.forall_mem_cons.2 ⟨isBlank_head_trimStart h, not_blank_takeWhile rest⟩⟩
  have hline := IsPathLine.words (isBlankRun_takeWhile cs) hword (by simpa using hcomment)
    (by simpa using haction) htext hwords htail
  rw [← hback, List.cons_append, List.takeWhile_append_dropWhile, ← h, takeWhile_trimStart] at hline
  exact ⟨_, hline⟩

theorem lt_length_ofLine_iff (cs : List Char) :
    lineCapacity < (Lexeme.ofLine cs).length ↔ ∃ n, IsPathLine cs n ∧ 7 < n := by
  constructor
  · intro hmany
    cases hcs : trimStart cs with
    | nil => simp [Lexeme.ofLine, Lexeme.ofBody, hcs, lineCapacity] at hmany
    | cons c rest =>
      have hcomment : c ≠ '#' := by
        rintro rfl
        simp [Lexeme.ofLine, Lexeme.ofBody, hcs, lineCapacity] at hmany
      have haction : c ≠ '@' := by
        rintro rfl
        simp [Lexeme.ofLine, Lexeme.ofBody, hcs, lineCapacity] at hmany
      obtain ⟨n, hn⟩ := exists_of_trimStart hcs hcomment haction
      rw [hn.length_ofLine, lineCapacity] at hmany
      exact ⟨n, hn, by omega⟩
  · rintro ⟨n, hn, hmany⟩
    rw [hn.length_ofLine, lineCapacity]
    omega

end IsPathLine

namespace Lexeme

theorem countP_value_ofFields_le (cs : List Char) :
    (ofFields cs).countP (fun x => x.kind == .value) ≤ 1 := by
  fun_induction ofFields cs with
  | case1 cs h => simp
  | case2 cs rest h =>
    rcases Scan.not_mem_or_eq_append_quote rest with hq | ⟨inside, after, rfl, hq⟩
    · simp [ofValue_open hq]
    · rw [ofValue_closed hq]
      split <;> simp
  | case3 cs c rest h hc ih =>
    rw [List.countP_cons_of_neg (by simpa [word] using Token.Kind.ofWord_ne_value)]
    exact ih

theorem countP_value_ofLine_le (cs : List Char) :
    (ofLine cs).countP (fun x => x.kind == .value) ≤ 1 := by
  rw [ofLine, List.countP_append]
  cases trimStart cs with
  | nil => simp [ofBody, synthetic]
  | cons c rest =>
    rw [ofBody]
    split
    · simp [synthetic]
    split
    · simp [synthetic]
    · have hfirst : Token.Kind.ofOperatorWord (c :: rest.takeWhile (!isBlank ·)) ≠ .value := by
        unfold Token.Kind.ofOperatorWord
        split <;> simp
      rw [List.countP_cons_of_neg (by simpa using hfirst)]
      exact countP_value_ofFields_le _

end Lexeme

namespace Line

variable [Limits] {start n : Nat} {cs : List Char}

theorem scan_eq_lineTooLong_iff : scan start cs = .error (.lineTooLong n) ↔
    maxLineLength < byteLength cs ∧ n = byteLength cs := by
  unfold scan
  split
  · simp [*, eq_comm]
  · split <;> simp [*]

theorem scan_eq_tooManyTokens_iff : scan start cs = .error .tooManyTokens ↔
    byteLength cs ≤ maxLineLength ∧ lineCapacity < (Scan.line start cs).length := by
  constructor
  · intro h
    have hlength : byteLength cs ≤ maxLineLength := by
      by_contra hlong
      have hrefused : scan start cs = .error (.lineTooLong (byteLength cs)) :=
        scan_eq_lineTooLong_iff.2 ⟨Nat.not_le.1 hlong, rfl⟩
      simp [h] at hrefused
    exact ⟨hlength, (scan_eq_tooManyTokens hlength h).2⟩
  · rintro ⟨hlength, hmany⟩
    cases h : scan start cs with
    | ok l =>
      have hcapacity := l.length_le
      rw [(scan_eq_ok_iff.1 h).2, List.length_map] at hcapacity
      exact absurd hcapacity (Nat.not_le.2 hmany)
    | error e => rw [(scan_eq_tooManyTokens hlength h).1]

end Line

namespace Buffer

def IsBehindLine (b c : Buffer) : Prop :=
  ∃ back, b.rest = b.lineRest ++ (back ++ c.rest) ∧
    c.before = (b.lineRest ++ back).reverse ++ b.before ∧ EndsLine b.lineRest back c.atEnd

theorem isBehindLine_advance (b : Buffer) : b.IsBehindLine (b.advance (b.rawLine.length + 1)) := by
  obtain ⟨back, hback, hends⟩ := Marked.endsLine_lineRest b
  refine ⟨back, ?_, ?_, hends⟩
  · rw [rest_advance, ← List.append_assoc, ← hback, List.take_append_drop]
  · rw [← hback]
    rfl

variable {b c : Buffer} {l : Line}

theorem length_line_lineRest (b : Buffer) :
    (Scan.line b.position b.lineRest).length = (Lexeme.ofLine b.lineRest).length := by
  rw [← Scan.lexemes_line (standsAt_lineRest b), List.length_map]

/-- What is left of the rest of the line by the tokens `ts`, which stand in it one behind the other:
blanks, and the quotes around the value. -/
structure IsCovered (b : Buffer) (ts : List Token) : Prop where
  not_isTerminator : ∀ t ∈ ts, t.kind.isTerminator = false
  isPartOf : ∀ t ∈ ts, t.IsPartOf b.position b.lineRest
  pairwise_endsBefore : ts.Pairwise Token.EndsBefore
  explains : ∀ k c, StandsAt b.lineRest k [c] → Tiles.Explains ts (b.position + k) c
  countP_value_le : ts.countP (fun t => t.kind == .value) ≤ 1

theorem isCovered_of_scanLine [Limits] (h : b.scanLine.1 = .ok l) :
    ∃ ts, l.tokens = ts ++ [.synthetic .lineEnd] ∧ b.IsCovered ts := by
  have hlexemes := lexemes_of_scanLine h
  rw [scanLine_fst] at h
  obtain ⟨ts, hts, htiles⟩ := Scan.exists_tiles_line b.position b.lineRest
  have htokens : l.tokens = ts ++ [.synthetic .lineEnd] := (Line.scan_eq_ok_iff.1 h).2.trans hts
  have hscanned : ts.map (·.lexeme b.text) = Lexeme.ofBody (trimStart b.lineRest) := by
    rw [htokens, List.map_append] at hlexemes
    exact List.append_cancel_right hlexemes
  refine ⟨ts, htokens, ?_, htiles.isPartOf, htiles.pairwise_endsBefore,
    fun k c => htiles.explains, ?_⟩
  · intro t ht
    have hmem := List.mem_map_of_mem (f := (·.lexeme b.text)) ht
    rw [hscanned] at hmem
    exact (Lexeme.isPlaced_of_mem_ofBody hmem).2
  · have hcount := Lexeme.countP_value_ofLine_le b.lineRest
    rw [← hlexemes, ← Line.countKind_eq, Line.countKind, htokens, List.countP_append] at hcount
    exact Nat.le_trans (Nat.le_add_right ..) hcount

/-- Scanning passes the line and its end, and loses nothing but the blanks between the tokens. It is
refused for the length of the line, and then nothing is passed, or because a logic path needs more
than seven tokens. -/
theorem scanLine_covers [Limits] (b : Buffer) :
    (∀ l c, b.scanLine = (.ok l, c) → b.IsBehindLine c ∧
      ∃ ts, l.tokens = ts ++ [.synthetic .lineEnd] ∧ b.IsCovered ts) ∧
    (∀ n, b.scanLine.1 = .error (.lineTooLong n) ↔
      maxLineLength < byteLength b.lineRest ∧ n = byteLength b.lineRest) ∧
    (maxLineLength < byteLength b.lineRest → b.scanLine.2 = b) ∧
    (b.scanLine.1 = .error .tooManyTokens ↔
      byteLength b.lineRest ≤ maxLineLength ∧ ∃ n, IsPathLine b.lineRest n ∧ 7 < n) := by
  refine ⟨?covered, ?length, ?unmoved, ?count⟩
  case covered =>
    intro l c h
    obtain rfl := eq_advance_of_scanLine h
    exact ⟨isBehindLine_advance b, isCovered_of_scanLine (congrArg Prod.fst h)⟩
  case length =>
    intro n
    rw [scanLine_fst, Line.scan_eq_lineTooLong_iff]
  case unmoved =>
    intro hlong
    have hrefused : Line.scan b.position b.lineRest =
        .error (.lineTooLong (byteLength b.lineRest)) :=
      Line.scan_eq_lineTooLong_iff.2 ⟨hlong, rfl⟩
    simp [scanLine, hrefused]
  case count =>
    rw [scanLine_fst, Line.scan_eq_tooManyTokens_iff, length_line_lineRest,
      IsPathLine.lt_length_ofLine_iff]

theorem scanLine_covers_value :
    let b := ofText " -> osx \"é\" x \r\n!".toList
    let many := ofText "-> a b c d e f \"v\"".toList
    (∃ l c, b.scanLine = (.ok l, c) ∧ l.length = 5 ∧ c.position = 17 ∧ b.IsBehindLine c ∧
      ∃ ts, l.tokens = ts ++ [.synthetic .lineEnd] ∧ b.IsCovered ts) ∧
    many.scanLine.1 = .error .tooManyTokens ∧ ∃ n, IsPathLine many.lineRest n ∧ 7 < n := by
  intro b many
  let l : Line := ⟨[⟨.operator .returns, some ⟨1, 3⟩⟩, ⟨.system, some ⟨4, 7⟩⟩,
    ⟨.value, some ⟨9, 11⟩⟩, ⟨.undefined, some ⟨13, 14⟩⟩, .synthetic .lineEnd], by decide⟩
  have hline : b.scanLine.1 = .ok l := by decide +kernel
  have hposition : b.scanLine.2.position = 17 := by decide +kernel
  have hscan : b.scanLine = (.ok l, b.scanLine.2) := Prod.ext hline rfl
  have hmany : many.scanLine.1 = .error .tooManyTokens := by decide +kernel
  refine ⟨⟨l, _, hscan, rfl, hposition, (scanLine_covers b).1 l _ hscan⟩, hmany, ?_⟩
  exact ((scanLine_covers many).2.2.2.1 hmany).2

end Buffer

end PlatformRules
