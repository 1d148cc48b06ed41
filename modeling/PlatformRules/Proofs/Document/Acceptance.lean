import PlatformRules.Proofs.Document.Reading

namespace PlatformRules

open Text

theorem PathFields.length_words_le (f : PathFields) : f.words.length ≤ 4 := by
  cases f <;> simp [words]

theorem Statement.length_scanned_lt (st : Statement) : st.scanned.length < lineCapacity := by
  cases st with
  | blank => decide
  | comment text => simp [scanned, lineCapacity]
  | action name argument => simp [scanned, lineCapacity]
  | path o f value =>
    have := f.length_words_le
    simp only [scanned, List.length_cons, List.length_append, List.length_map, List.length_nil,
      lineCapacity]
    omega

theorem Statement.scanned_eq_nil_iff (st : Statement) : st.scanned = [] ↔ st = .blank := by
  cases st <;> simp [scanned]

theorem Lexeme.exists_ofBody_cons (c : Char) (rest : List Char) :
    ∃ x xs, ofBody (c :: rest) = x :: xs ∧ x.kind.isTerminator = false := by
  have hcons : ∃ x xs, ofBody (c :: rest) = x :: xs := by
    rw [ofBody]
    split
    · exact ⟨_, _, rfl⟩
    · split <;> exact ⟨_, _, rfl⟩
  obtain ⟨x, xs, hx⟩ := hcons
  have hmem : x ∈ ofBody (c :: rest) := hx ▸ List.mem_cons_self
  exact ⟨x, xs, hx, (isPlaced_of_mem_ofBody hmem).2⟩

theorem Line.exists_tokens_of_lexemes {source cs rest : List Char} {c : Char} {tokens : List Token}
    (hlex : tokens.map (·.lexeme source) = Lexeme.ofLine cs) (hbody : trimStart cs = c :: rest) :
    ∃ first ts e, tokens = first :: (ts ++ [e]) ∧ e.kind = .lineEnd ∧
      first.kind.isTerminator = false ∧
        (first :: ts).map (·.lexeme source) = Lexeme.ofBody (c :: rest) := by
  rw [Lexeme.ofLine, hbody] at hlex
  obtain ⟨front, e, rfl, hscanned, hkind⟩ := Token.exists_concat_of_lexemes hlex
  obtain ⟨x, xs, hx, hnot⟩ := Lexeme.exists_ofBody_cons c rest
  obtain ⟨first, ts, rfl, hfirst, -⟩ := List.map_eq_cons_iff.1 (hscanned.trans hx)
  rw [← hfirst] at hnot
  exact ⟨first, ts, e, rfl, hkind, hnot, hscanned⟩

namespace Written

variable {source cs : List Char} {st : Statement} {t : Token} {ts : List Token}

theorem exists_isLegalForm (h : Written st cs)
    (hlex : (t :: ts).map (·.lexeme source) = st.scanned) :
    ∃ us, IsLegalForm source t ts us ∧ us.map (·.lexeme source) = st.lexemes := by
  cases h with
  | blank => simp [Statement.scanned] at hlex
  | comment text =>
    simp only [Statement.scanned, List.map_cons, List.cons.injEq, List.map_eq_cons_iff,
      List.map_eq_nil_iff] at hlex
    obtain ⟨ht, n, _, rfl, hn, rfl⟩ := hlex
    refine ⟨[t, n], ?_, ?_⟩
    · exact (IsLegalForm.comment_iff (congrArg Lexeme.kind ht) (congrArg Lexeme.kind hn)).2 rfl
    · rw [List.map_cons, List.map_cons, ht, hn]
      rfl
  | @action name text hname hword htext =>
    simp only [Statement.scanned, List.map_cons, List.cons.injEq, List.map_eq_cons_iff,
      List.map_eq_nil_iff] at hlex
    obtain ⟨ht, n, _, rfl, hn, a, _, rfl, ha, rfl⟩ := hlex
    refine ⟨[t, n, a], ?_, ?_⟩
    · exact (IsLegalForm.action_iff (congrArg Lexeme.kind ht) hn (congrArg Lexeme.kind ha)).2
        ⟨rfl, hname⟩
    · rw [List.map_cons, List.map_cons, List.map_cons, ht, hn, ha]
      rfl
  | @path o f value text gap hf htext hgap =>
    obtain ⟨ht, hts⟩ := List.cons.inj hlex
    have hscan : ∀ u ∈ ts, (u.lexeme source).IsScanned := by
      intro u hu
      have hmem := List.mem_map_of_mem (f := (·.lexeme source)) hu
      rw [hts, List.mem_append, List.mem_map, List.mem_singleton] at hmem
      rcases hmem with ⟨w, -, hw⟩ | hv
      · exact hw ▸ .word w
      · exact hv ▸ .value value
    obtain ⟨vs, hpath, hcheck⟩ :=
      (Grammar.checkFields_path_iff (o := t) hscan).2 ⟨f, hf, value, hts⟩
    refine ⟨t :: vs, (IsLegalForm.path_iff ht).2 ⟨hpath, vs, rfl, hcheck⟩, ?_⟩
    rw [Canonical.lexemes_of_path? hts hpath]
    exact congrArg (· :: _) ht

section

variable {c : Char} {rest : List Char} {us : List Token}

theorem exists_of_action (hlex : (t :: ts).map (·.lexeme source) = Lexeme.ofBody ('@' :: rest))
    (h : IsLegalForm source t ts us) : ∃ st, Written st (trimEnd ('@' :: rest)) := by
  rw [Lexeme.ofBody, if_neg (by decide), if_pos rfl] at hlex
  simp only [List.map_cons, List.cons.injEq, List.map_eq_cons_iff, List.map_eq_nil_iff] at hlex
  obtain ⟨ht, n, _, rfl, hn, a, _, rfl, ha, rfl⟩ := hlex
  obtain ⟨-, hname⟩ :=
    (IsLegalForm.action_iff (congrArg Lexeme.kind ht) hn (congrArg Lexeme.kind ha)).1 h
  have hword := not_blank_takeWhile rest
  have hends := (endsWord_dropWhile rest).trimEnd
  have hrest := trimEnd_word_append hword (rest.dropWhile (!isBlank ·))
  rw [List.takeWhile_append_dropWhile] at hrest
  rw [trimEnd_cons rest (by decide), hrest]
  exact ⟨_, .action hname hword hends⟩

theorem exists_of_operator (hcomment : c ≠ '#') (haction : c ≠ '@')
    (hlex : (t :: ts).map (·.lexeme source) = Lexeme.ofBody (c :: rest))
    (h : IsLegalForm source t ts us) : ∃ st, Written st (trimEnd (c :: rest)) := by
  rw [Lexeme.ofBody, if_neg hcomment, if_neg haction] at hlex
  obtain ⟨ht, hts⟩ := List.cons.inj hlex
  have hends := endsWord_dropWhile rest
  have hrest : c :: rest = (c :: rest.takeWhile (!isBlank ·)) ++ rest.dropWhile (!isBlank ·) := by
    rw [List.cons_append, List.takeWhile_append_dropWhile]
  generalize c :: rest.takeWhile (!isBlank ·) = word at ht hrest
  rcases Token.Kind.ofOperatorWord_cases word with ⟨o, rfl⟩ | hundefined
  · rw [Token.Kind.ofOperatorWord_symbol] at ht
    obtain ⟨hpath, vs, rfl, hcheck⟩ := (IsLegalForm.path_iff ht).1 h
    have hscan : ∀ u ∈ ts, (u.lexeme source).IsScanned := by
      intro u hu
      apply Lexeme.isScanned_ofFields (rest.dropWhile (!isBlank ·))
      rw [← hts]
      exact List.mem_map_of_mem hu
    obtain ⟨f, hf, value, hfields⟩ := (Grammar.checkFields_path_iff hscan).1 ⟨vs, hpath, hcheck⟩
    obtain ⟨text, gap, tail, htext, hgap, htail, hafter⟩ :=
      Lexeme.spaced_of_ofFields hends (hts.symm.trans hfields)
    refine ⟨.path o f value, ?_⟩
    have hline : c :: rest =
        (o.symbol.toList ++ (text ++ (gap ++ '"' :: value))) ++ ['"'] ++ tail := by
      rw [hrest, hafter]
      simp
    rw [hline, trimEnd_append htail, trimEnd_concat _ (by decide)]
    simpa using Written.path hf htext hgap
  · exact absurd h (IsLegalForm.not_undefined ((congrArg Lexeme.kind ht).trans hundefined))

theorem exists_of_isLegalForm (hc : isBlank c = false)
    (hlex : (t :: ts).map (·.lexeme source) = Lexeme.ofBody (c :: rest))
    (h : IsLegalForm source t ts us) : ∃ st, Written st (trimEnd (c :: rest)) := by
  by_cases hcomment : c = '#'
  · subst hcomment
    rw [trimEnd_cons rest hc]
    exact ⟨_, .comment (trimEnd rest)⟩
  · by_cases haction : c = '@'
    · subst haction
      exact exists_of_action hlex h
    · exact exists_of_operator hcomment haction hlex h

end

end Written

namespace Document

section

variable [Limits] {text : List Char} {st : Statement}

theorem exists_readLine_of_written (hlen : byteLength (withoutReturn text) ≤ maxLineLength)
    (h : Written st (trim text)) : ∃ r, readLine text = .ok r ∧ Says text r st := by
  have hline : Lexeme.ofLine (withoutReturn text) = st.scanned ++ [.synthetic .lineEnd] :=
    Written.ofLine_eq (trim_withoutReturn text ▸ h)
  have hcount : (Lexeme.ofLine (withoutReturn text)).length ≤ lineCapacity := by
    rw [hline, List.length_append]
    exact st.length_scanned_lt
  obtain ⟨raw, hraw⟩ := Line.exists_ofText hlen hcount
  have hlex := (Line.lexemes_of_ofText hraw).trans hline
  obtain ⟨tokens, e, htokens, hscanned, hkind⟩ := Token.exists_concat_of_lexemes hlex
  cases tokens with
  | nil =>
    obtain rfl : st = .blank := st.scanned_eq_nil_iff.1 hscanned.symm
    refine ⟨⟨raw, raw.pop⟩, readLine_blank hraw htokens hkind, hlex, ?_⟩
    simp [Line.pop, htokens, Statement.lexemes, Statement.scanned]
  | cons first ts =>
    obtain ⟨us, hform, hus⟩ := h.exists_isLegalForm hscanned
    have hnot := hform.isTerminator_eq_false
    exact ⟨⟨raw, ⟨us, hform.length_le⟩⟩,
      (readLine_iff_isLegalForm hraw htokens hkind hnot _).2 hform, hlex, hus⟩

theorem exists_written {r : ReadLine} (h : readLine text = .ok r) :
    ∃ st, Written st (trim text) := by
  obtain ⟨line, hraw, -⟩ := readLine_eq_ok_iff.1 h
  rw [← trim_withoutReturn, trim]
  cases hbody : trimStart (withoutReturn text) with
  | nil => exact ⟨.blank, .blank⟩
  | cons c rest =>
    have hc := isBlank_head_trimStart hbody
    obtain ⟨first, ts, e, htokens, hkind, hnot, hlex⟩ :=
      Line.exists_tokens_of_lexemes (Line.lexemes_of_ofText hraw) hbody
    have hform := (readLine_iff_isLegalForm hraw htokens hkind hnot r.line).1 h
    exact Written.exists_of_isLegalForm hc hlex hform

theorem length_of_readLine {r : ReadLine} (h : readLine text = .ok r) :
    byteLength (withoutReturn text) ≤ maxLineLength := by
  obtain ⟨line, hraw, -⟩ := readLine_eq_ok_iff.1 h
  exact (Line.ofText_eq_ok_iff.1 hraw).1

theorem saying_of_readLine {r : ReadLine} (h : readLine text = .ok r) (hst : Written st (trim text)) :
    Says text r st := by
  obtain ⟨r', hr', hsaid⟩ := exists_readLine_of_written (length_of_readLine h) hst
  obtain rfl := Except.ok.inj (hr'.symm.trans h)
  exact hsaid

/-- A line is read just if it is written in the language. -/
theorem readLine_isOk_iff (hlen : byteLength (withoutReturn text) ≤ maxLineLength) :
    (∃ r, readLine text = .ok r) ↔ ∃ st, Written st (trim text) := by
  constructor
  · rintro ⟨r, hr⟩
    exact exists_written hr
  · rintro ⟨st, hst⟩
    obtain ⟨r, hr, -⟩ := exists_readLine_of_written hlen hst
    exact ⟨r, hr⟩

end

theorem exists_readLine_quoted : ∃ r, readLine " ->\tLinux  \"a\"b\" \r".toList = .ok r := by
  refine (readLine_isOk_iff (by decide)).2
    ⟨.path .returns (.system (.word "Linux".toList)) "a\"b".toList, ?_⟩
  have htrim : trim " ->\tLinux  \"a\"b\" \r".toList = Operator.returns.symbol.toList ++
      ((['\t'] ++ ("Linux".toList ++ [])) ++
        ([' ', ' '] ++ '"' :: ("a\"b".toList ++ ['"']))) := by decide
  rw [htrim]
  exact .path ⟨"linux", by decide, by decide⟩ (.cons (by decide) .nil) (by decide)

end Document

end PlatformRules
