import PlatformRules.Proofs.Line.Layout
import PlatformRules.Proofs.Line.Staged

namespace PlatformRules

open Text

namespace Lexeme

open Statement

def rebuilt (xs : List Lexeme) : List Char :=
  List.intercalate [' '] (xs.filterMap (·.part?))

variable {cs inside after : List Char}

theorem ofValue_quoted (h : '"' ∉ after) : ofValue (inside ++ '"' :: after) =
    ⟨.value, some inside⟩ ::
      (Statement.optional (trim after)).map fun w => ⟨.undefined, some w⟩ := by
  have hnil : trimStart after = [] ↔ trim after = [] := by
    rw [trimStart_eq_nil_iff, trim_eq_nil_iff]
  rw [ofValue_closed h]
  by_cases htext : trim after = []
  · rw [if_pos (hnil.2 htext), htext]
    rfl
  · rw [if_neg (mt hnil.1 htext), Statement.optional, if_neg htext]
    rfl

theorem filterMap_part?_optional (text : List Char) :
    ((Statement.optional text).map fun w => (⟨.undefined, some w⟩ : Lexeme)).filterMap (·.part?) =
      Statement.optional text := by
  unfold Statement.optional
  split <;> simp [part?, *]

theorem ofValue_rebuilt (cs : List Char) : ∃ back,
    rebuilt (ofValue cs) = '"' :: back ∧ ofValue back = ofValue cs := by
  rcases Scan.not_mem_or_eq_append_quote cs with hq | ⟨inside, after, rfl, hq⟩
  · have htrim : trimEnd ('"' :: cs) = '"' :: trimEnd cs := trimEnd_cons cs (by decide)
    obtain ⟨g, hg, hcs⟩ := exists_trimEnd_append cs
    have hq' : '"' ∉ trimEnd cs := fun hm => hq (hcs ▸ List.mem_append_left g hm)
    have hagain : trimEnd ('"' :: trimEnd cs) = trimEnd ('"' :: cs) := by
      rw [← trimEnd_append hg, List.cons_append, hcs]
    refine ⟨trimEnd cs, ?_, ?_⟩
    · rw [ofValue_open hq, htrim]
      simp [rebuilt, part?]
    · rw [ofValue_open hq', ofValue_open hq, hagain]
  · have hq' : '"' ∉ spaced (Statement.optional (trim after)) :=
      not_mem_spaced_optional (by decide) fun hm => hq (mem_of_mem_trim hm)
    have hvalue : (⟨.value, some inside⟩ : Lexeme).part? = some ('"' :: inside ++ ['"']) := rfl
    refine ⟨inside ++ '"' :: spaced (Statement.optional (trim after)), ?_, ?_⟩
    · rw [ofValue_quoted hq, rebuilt, List.filterMap_cons_some hvalue, filterMap_part?_optional,
        intercalate_cons]
      simp
    · rw [ofValue_quoted hq', ofValue_quoted hq, trim_spaced_optional]

theorem ofFields_spaced (cs : List Char) :
    ofFields (spaced ((ofFields cs).filterMap (·.part?))) = ofFields cs := by
  fun_induction ofFields cs with
  | case1 cs h => exact ofFields_of_blank rfl
  | case2 cs rest h =>
    obtain ⟨back, hback, hagain⟩ := ofValue_rebuilt rest
    have hspaced : spaced ((ofValue rest).filterMap (·.part?)) = ' ' :: '"' :: back := by
      rw [rebuilt] at hback
      cases hparts : (ofValue rest).filterMap (·.part?) with
      | nil => simp [hparts] at hback
      | cons p ps =>
        rw [hparts, intercalate_cons] at hback
        rw [← hback]
        rfl
    have hquote : trimStart (' ' :: '"' :: back) = '"' :: back := rfl
    rw [hspaced, ofFields_of_quote hquote, hagain]
  | case3 cs c rest h hc ih =>
    have hhead := isBlank_head_trimStart h
    have hword := part?_word (List.cons_ne_nil c (rest.takeWhile (!isBlank ·)))
    rw [List.filterMap_cons_some hword]
    generalize ((ofFields (rest.dropWhile (!isBlank ·))).filterMap (·.part?)) = ps at ih
    have hstart : trimStart (spaced ((c :: rest.takeWhile (!isBlank ·)) :: ps)) =
        c :: (rest.takeWhile (!isBlank ·) ++ spaced ps) := by
      have hspaced : spaced ((c :: rest.takeWhile (!isBlank ·)) :: ps) =
          [' '] ++ c :: (rest.takeWhile (!isBlank ·) ++ spaced ps) := by
        simp [spaced]
      rw [hspaced, trimStart_append (by decide), trimStart_cons hhead]
    rw [ofFields_of_word hstart hc, takeWhile_word (not_blank_takeWhile rest) (endsWord_spaced ps),
      dropWhile_word (not_blank_takeWhile rest) (endsWord_spaced ps), ih]

theorem ofBody_rebuilt (c : Char) (rest : List Char) : ∃ back,
    rebuilt (ofBody (c :: rest)) = c :: back ∧ ofBody (c :: back) = ofBody (c :: rest) := by
  by_cases hcomment : c = '#'
  · subst hcomment
    refine ⟨spaced (Statement.optional (trim rest)), ?_, ?_⟩
    · rw [ofBody, if_pos rfl, rebuilt, ← formatted_comment, formatted]
      by_cases ht : trim rest = [] <;> simp [Statement.parts, Statement.optional, part?, ht]
    · rw [ofBody, ofBody, if_pos rfl, if_pos rfl, trim_spaced_optional]
  · by_cases haction : c = '@'
    · subst haction
      let name := rest.takeWhile (!isBlank ·)
      let argument := trim (rest.dropWhile (!isBlank ·))
      have hends := endsWord_spaced (Statement.optional argument)
      have hname := not_blank_takeWhile rest
      refine ⟨name ++ spaced (Statement.optional argument), ?_, ?_⟩
      · rw [ofBody, if_neg hcomment, if_pos rfl, rebuilt, ← formatted_action,
          formatted]
        by_cases ht : argument = [] <;>
          simp [Statement.parts, Statement.optional, part?, name, argument, ht]
      · rw [ofBody, ofBody, if_neg hcomment, if_pos rfl, if_neg hcomment, if_pos rfl,
          takeWhile_word hname hends, dropWhile_word hname hends, trim_spaced_optional]
    · let word := c :: rest.takeWhile (!isBlank ·)
      let ps := (ofFields (rest.dropWhile (!isBlank ·))).filterMap (·.part?)
      have hends := endsWord_spaced ps
      have hname := not_blank_takeWhile rest
      have hfirst : (⟨.ofOperatorWord word, some word⟩ : Lexeme).part? = some word := by
        rcases Token.Kind.ofOperatorWord_cases word with ⟨o, ho⟩ | hundefined
        · rw [ho, Token.Kind.ofOperatorWord_symbol, ← ho]
          simp [part?, word]
        · rw [hundefined]
          simp [part?, word]
      refine ⟨rest.takeWhile (!isBlank ·) ++ spaced ps, ?_, ?_⟩
      · rw [ofBody, if_neg hcomment, if_neg haction, rebuilt, List.filterMap_cons_some hfirst,
          intercalate_cons]
        rfl
      · rw [ofBody, ofBody, if_neg hcomment, if_neg haction, if_neg hcomment, if_neg haction,
          takeWhile_word hname hends, dropWhile_word hname hends]
        exact congrArg (_ :: ·) (ofFields_spaced _)

theorem rebuilt_ofLine (cs : List Char) :
    rebuilt (ofLine cs) = rebuilt (ofBody (trimStart cs)) := by
  have hend : (synthetic .lineEnd).part? = none := rfl
  rw [ofLine, rebuilt, List.filterMap_append, List.filterMap_cons_none hend, List.filterMap_nil,
    List.append_nil, rebuilt]

theorem ofLine_rebuilt (cs : List Char) : ofLine (rebuilt (ofLine cs)) = ofLine cs := by
  rw [rebuilt_ofLine]
  cases hcs : trimStart cs with
  | nil => rw [ofLine, ofLine, hcs]; rfl
  | cons c rest =>
    obtain ⟨back, hback, hagain⟩ := ofBody_rebuilt c rest
    rw [ofLine, ofLine, hback, trimStart_cons (isBlank_head_trimStart hcs), hagain, hcs]

theorem subset_ofValue (cs : List Char) : ∀ x ∈ ofValue cs, x.text.getD [] ⊆ '"' :: cs := by
  intro x hx
  rcases Scan.not_mem_or_eq_append_quote cs with hq | ⟨inside, after, rfl, hq⟩
  · obtain rfl := List.mem_singleton.1 (ofValue_open hq ▸ hx)
    obtain ⟨g, -, hg⟩ := exists_trimEnd_append ('"' :: cs)
    exact fun c hc => hg ▸ List.mem_append_left g hc
  · rw [ofValue_quoted hq, List.mem_cons, List.mem_map] at hx
    rcases hx with rfl | ⟨w, hw, rfl⟩
    · exact fun c hc => List.mem_cons_of_mem _ (List.mem_append_left _ hc)
    · intro c hc
      have hafter : c ∈ after := by
        unfold Statement.optional at hw
        split at hw
        · simp at hw
        · obtain rfl := List.mem_singleton.1 hw
          exact mem_of_mem_trim hc
      exact List.mem_cons_of_mem _ (List.mem_append_right _ (List.mem_cons_of_mem _ hafter))

theorem trimStart_subset (cs : List Char) : trimStart cs ⊆ cs :=
  (List.dropWhile_suffix _).subset

theorem subset_ofFields (cs : List Char) : ∀ x ∈ ofFields cs, x.text.getD [] ⊆ cs := by
  fun_induction ofFields cs with
  | case1 cs h => simp
  | case2 cs rest h =>
    intro x hx
    exact List.Subset.trans (subset_ofValue rest x hx) (h ▸ trimStart_subset cs)
  | case3 cs c rest h hc ih =>
    have hrest : c :: rest ⊆ cs := h ▸ trimStart_subset cs
    intro x hx
    rcases List.mem_cons.1 hx with rfl | hx
    · exact List.Subset.trans (List.cons_subset_cons c (List.takeWhile_prefix _).subset) hrest
    · have hback := List.Subset.trans (ih x hx) (List.dropWhile_suffix _).subset
      exact List.Subset.trans hback (List.Subset.trans (List.subset_cons_self c rest) hrest)

theorem subset_ofBody (cs : List Char) : ∀ x ∈ ofBody cs, x.text.getD [] ⊆ cs := by
  cases cs with
  | nil => simp [ofBody]
  | cons c rest =>
    have hfront (p : Char → Bool) : rest.takeWhile p ⊆ c :: rest :=
      List.Subset.trans (List.takeWhile_prefix p).subset (List.subset_cons_self c rest)
    have hback (p : Char → Bool) : rest.dropWhile p ⊆ c :: rest :=
      List.Subset.trans (List.dropWhile_suffix p).subset (List.subset_cons_self c rest)
    have htrim (ds : List Char) : trim ds ⊆ ds := fun _ => mem_of_mem_trim
    rw [ofBody]
    split
    · intro x hx
      rcases List.mem_cons.1 hx with rfl | hx
      · simp
      · obtain rfl := List.mem_singleton.1 hx
        exact List.Subset.trans (htrim rest) (List.subset_cons_self c rest)
    · split
      · intro x hx
        simp only [List.mem_cons, List.not_mem_nil, or_false] at hx
        rcases hx with rfl | rfl | rfl
        · simp
        · exact hfront _
        · exact List.Subset.trans (htrim _) (hback _)
      · intro x hx
        rcases List.mem_cons.1 hx with rfl | hx
        · exact List.cons_subset_cons c (List.takeWhile_prefix _).subset
        · exact List.Subset.trans (subset_ofFields _ x hx) (hback _)

theorem subset_of_part? {x : Lexeme} {p : List Char} (hx : x.text.isSome) (h : x.part? = some p) :
    p ⊆ ['#', '@', '"'] ++ x.text.getD [] := by
  obtain ⟨w, hw⟩ := Option.isSome_iff_exists.1 hx
  rw [hw, Option.getD_some]
  unfold part? at h
  split at h
  · simp at h
  · simp at h
  · simp at h
  · obtain rfl := Option.some.inj h
    simp
  · obtain rfl : '@' :: w = p := by simpa [hw] using h
    exact List.cons_subset.2 ⟨by simp, List.subset_append_right _ _⟩
  · obtain rfl : '"' :: w ++ ['"'] = p := by simpa [hw] using h
    rw [List.cons_append, List.cons_subset, List.append_subset]
    exact ⟨by simp, List.subset_append_right _ _, by simp⟩
  · obtain ⟨-, rfl⟩ : w ≠ [] ∧ w = p := by simpa [hw] using h
    exact List.subset_append_right _ _

theorem mem_rebuilt {c : Char} {xs : List Lexeme} (hxs : ∀ x ∈ xs, x.text.isSome)
    (h : c ∈ rebuilt xs) : c ∈ [' ', '#', '@', '"'] ∨ ∃ x ∈ xs, c ∈ x.text.getD [] := by
  have hpart : c = ' ' ∨ ∃ p ∈ xs.filterMap (·.part?), c ∈ p := by
    unfold rebuilt at h
    cases hps : xs.filterMap (·.part?) with
    | nil => simp [hps] at h
    | cons p ps =>
      rw [hps, intercalate_cons] at h
      rcases List.mem_append.1 h with hc | hc
      · exact .inr ⟨p, by simp, hc⟩
      · rcases mem_spaced hc with rfl | ⟨q, hq, hc⟩
        · exact .inl rfl
        · exact .inr ⟨q, by simp [hq], hc⟩
  rcases hpart with rfl | ⟨p, hp, hc⟩
  · simp
  · obtain ⟨x, hx, hp⟩ := List.mem_filterMap.1 hp
    rcases List.mem_append.1 (subset_of_part? (hxs x hx) hp hc) with hc | hc
    · exact .inl (List.mem_cons_of_mem _ hc)
    · exact .inr ⟨x, hx, hc⟩

theorem not_mem_rebuilt {cs : List Char} (h : '\n' ∉ cs) : '\n' ∉ rebuilt (ofLine cs) := by
  rw [rebuilt_ofLine]
  intro hm
  have hplaced : ∀ x ∈ ofBody (trimStart cs), x.text.isSome := fun x hx =>
    (isPlaced_of_mem_ofBody hx).1
  rcases mem_rebuilt hplaced hm with hc | ⟨x, hx, hc⟩
  · simp at hc
  · exact h (trimStart_subset cs (subset_ofBody _ x hx hc))

end Lexeme

theorem Line.source_eq_rebuilt {source : List Char} {l : Line} {xs : List Lexeme}
    (h : l.tokens.map (·.lexeme source) = xs ++ [.synthetic .lineEnd]) :
    l.source source = Lexeme.rebuilt xs ++ ['\n'] := by
  have hparts : l.tokens.filterMap (·.part? source) = xs.filterMap (·.part?) := by
    have hpart : (fun t : Token => t.part? source) = (·.part?) ∘ (·.lexeme source) :=
      funext fun t => Token.part?_eq source t
    have hend : (Lexeme.synthetic .lineEnd).part? = none := rfl
    rw [hpart, ← List.filterMap_map, h, List.filterMap_append, List.filterMap_cons_none hend,
      List.filterMap_nil, List.append_nil]
  have hends : l.endsLine = true := by
    obtain ⟨ts, e, htokens, -, he⟩ := Token.exists_concat_of_lexemes h
    exact endsLine_of_concat htokens he
  rw [Line.source, hparts, if_pos hends]
  rfl

namespace Buffer

section

variable [Limits] {b : Buffer} {l : Line}

theorem lexemes_of_scanLine (h : b.scanLine.1 = .ok l) :
    l.tokens.map (·.lexeme b.text) = Lexeme.ofLine b.lineRest := by
  rw [scanLine_fst] at h
  rw [(Line.scan_eq_ok_iff.1 h).2, ← Scan.lexemes_line (standsAt_lineRest b), List.map_map]
  rfl

theorem exists_scanLine (hlength : byteLength b.lineRest ≤ maxLineLength)
    (hcount : (Lexeme.ofLine b.lineRest).length ≤ lineCapacity) : ∃ l, b.scanLine.1 = .ok l := by
  rw [← Scan.lexemes_line (standsAt_lineRest b), List.length_map,
    ← List.length_map (f := (·.token))] at hcount
  rw [scanLine_fst]
  exact ⟨⟨_, hcount⟩, Line.scan_eq_ok_iff.2 ⟨hlength, rfl⟩⟩

theorem source_of_scanLine (h : b.scanLine.1 = .ok l) :
    l.source b.text = Lexeme.rebuilt (Lexeme.ofLine b.lineRest) ++ ['\n'] := by
  rw [Lexeme.rebuilt_ofLine]
  exact Line.source_eq_rebuilt (lexemes_of_scanLine h)

omit [Limits] in
theorem lineRest_of_line {body : List Char} (hbody : '\n' ∉ body) :
    ∀ text ∈ [body, body ++ ['\n']], (ofText text).lineRest = withoutReturn body := by
  have hline : ∀ c ∈ body, decide (c ≠ '\n') := by
    intro c hc
    have : c ≠ '\n' := fun he => hbody (he ▸ hc)
    simpa using this
  have hraw : (ofText (body ++ ['\n'])).rawLine = body := takeWhile_append_stop hline (by simp)
  intro text htext
  simp only [List.mem_cons, List.not_mem_nil, or_false] at htext
  rcases htext with rfl | rfl
  · exact lineRest_ofText hbody
  · rw [lineRest, hraw]

/-- Rebuilding a line undoes scanning it: whatever the line says, the text made of its tokens, with
its line feed or without, is scanned to the same kinds and texts. -/
theorem scanLine_rebuilt (b : Buffer) (l : Line) (h : b.scanLine.1 = .ok l) :
    ∃ body, l.source b.text = body ++ ['\n'] ∧ '\n' ∉ body ∧
      (byteLength body ≤ maxLineLength → ∀ text ∈ [body, body ++ ['\n']], ∃ k,
        (ofText text).scanLine.1 = .ok k ∧
          k.tokens.map (·.lexeme text) = l.tokens.map (·.lexeme b.text)) := by
  have hlexemes := lexemes_of_scanLine h
  have hfeed := Lexeme.not_mem_rebuilt (not_mem_lineRest b)
  have hagain := Lexeme.ofLine_rebuilt b.lineRest
  refine ⟨Lexeme.rebuilt (Lexeme.ofLine b.lineRest), source_of_scanLine h, hfeed, ?_⟩
  generalize Lexeme.rebuilt (Lexeme.ofLine b.lineRest) = body at hfeed hagain
  intro hlength text htext
  have hrest := lineRest_of_line hfeed text htext
  have hsame : Lexeme.ofLine (ofText text).lineRest = Lexeme.ofLine b.lineRest := by
    obtain ⟨g, hg, hbody⟩ := exists_withoutReturn_append body
    rw [hrest, ← Lexeme.ofLine_append hg, hbody, hagain]
  have hcount : (Lexeme.ofLine (ofText text).lineRest).length ≤ lineCapacity := by
    rw [hsame, ← hlexemes, List.length_map]
    exact l.length_le
  have hlength' : byteLength (ofText text).lineRest ≤ maxLineLength := by
    rw [hrest]
    exact (byteLength_withoutReturn_le body).trans hlength
  obtain ⟨k, hk⟩ := exists_scanLine hlength' hcount
  have htext : (ofText text).text = text := rfl
  refine ⟨k, hk, ?_⟩
  rw [hlexemes, ← hsame, ← lexemes_of_scanLine hk, htext]

end

theorem scanLine_rebuilt_quotes :
    let b := ofText "? a\"b  \"v\" \"w\"  x".toList
    let body := "? a\"b \"v\" \"w\" x".toList
    ∃ l, b.scanLine.1 = .ok l ∧ l.source b.text = body ++ ['\n'] ∧
      ∃ k, (ofText (body ++ ['\n'])).scanLine.1 = .ok k ∧
        k.tokens.map (·.lexeme (body ++ ['\n'])) = l.tokens.map (·.lexeme b.text) := by
  intro b body
  let l : Line := ⟨[⟨.undefined, some ⟨0, 1⟩⟩, ⟨.undefined, some ⟨2, 5⟩⟩, ⟨.value, some ⟨8, 13⟩⟩,
    ⟨.undefined, some ⟨16, 17⟩⟩, .synthetic .lineEnd], by decide⟩
  have hscan : b.scanLine.1 = .ok l := by decide +kernel
  have hsource : l.source b.text = body ++ ['\n'] := by decide +kernel
  obtain ⟨body', hbody, -, hagain⟩ := scanLine_rebuilt b l hscan
  obtain rfl : body = body' := List.append_cancel_right (hsource.symm.trans hbody)
  exact ⟨l, hscan, hsource, hagain (by decide) _ (by simp)⟩

end Buffer

end PlatformRules
