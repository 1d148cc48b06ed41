import PlatformRules.Proofs.Document.Acceptance
import PlatformRules.Proofs.Line.Canonical
import PlatformRules.Proofs.Line.Rebuilding

/-!
Judging a line before and after it is brought to canonical form. What is put in to complete a line
passes, so that both verdicts are the same. Only a comment without a text and an action without an
argument are refused as they stand and may pass when they are completed; the scanner gives neither.
-/

namespace PlatformRules

open Text

namespace Grammar

variable {source : List Char} {o t : Token}

section

variable (p q : Nat)

theorem checkArchitecture_congr :
    checkArchitecture source p t = .ok () ↔ checkArchitecture source q t = .ok () := by
  unfold checkArchitecture
  split <;> simp

theorem checkValue_congr : checkValue p t = .ok () ↔ checkValue q t = .ok () := by
  unfold checkValue
  split <;> simp

theorem checkSystem_wildcard : checkSystem source p Canonical.wildcard = .ok () := rfl

theorem checkVersion_wildcard : checkVersion source p Canonical.wildcard = .ok () := rfl

theorem checkArchitecture_wildcard : checkArchitecture source p Canonical.wildcard = .ok () := rfl

end

theorem checkFields_completed_iff (fs : List Token) :
    (∃ us, Canonical.path? (o :: fs) = some (o :: us) ∧ checkFields source us = .ok ()) ↔
      checkFields source fs = .ok () := by
  rcases fs with _ | ⟨a, _ | ⟨b, _ | ⟨c, _ | ⟨d, _ | ⟨e, _ | ⟨g, fs⟩⟩⟩⟩⟩⟩ <;>
    simp only [Canonical.path?, Option.some.injEq, List.cons.injEq, true_and, exists_eq_left',
      reduceCtorEq, false_and, exists_false, checkFields, bind_eq_ok_iff, checkSystem_wildcard,
      checkVersion_wildcard, checkArchitecture_wildcard]
  · exact checkValue_congr 4 1
  · rw [checkValue_congr 4 2]
  · rw [checkArchitecture_congr 3 2, checkValue_congr 4 3]

end Grammar

/-- Content that is completed, though the grammar refuses it as it stands: a comment sign alone, or
an action sign with one token behind it. -/
inductive Canonical.IsAbridged : List Token → Prop
  | comment {sign : Token} (h : sign.kind = .commentSign) : IsAbridged [sign]
  | action {sign name : Token} (h : sign.kind = .actionSign) : IsAbridged [sign, name]

namespace IsLegalForm

open Canonical Grammar

variable {source rest : List Char} {c : Char} {t : Token} {ts : List Token}
  {f : List Token → Option (List Token)}

theorem exists_iff_of_complete (hrule : rule? t.kind = some f) (hf : f (t :: ts) = some (t :: ts)) :
    (∃ us, IsLegalForm source t ts us) ↔ checkTokens source (t :: ts) = .ok () := by
  constructor
  · rintro ⟨us, f', hrule', hf', hok⟩
    obtain rfl := Option.some.inj (hrule.symm.trans hrule')
    obtain rfl := Option.some.inj (hf.symm.trans hf')
    exact hok
  · exact fun hok => ⟨_, f, hrule, hf, hok⟩

theorem not_exists_of_none (hrule : rule? t.kind = some f) (hf : f (t :: ts) = none) :
    ¬∃ us, IsLegalForm source t ts us := by
  rintro ⟨us, f', hrule', hf', -⟩
  obtain rfl := Option.some.inj (hrule.symm.trans hrule')
  simp [hf] at hf'

theorem exists_comment_iff (ht : t.kind = .commentSign) :
    (∃ us, IsLegalForm source t ts us) ∧ ¬IsAbridged (t :: ts) ↔
      checkTokens source (t :: ts) = .ok () := by
  have hrule : rule? t.kind = some comment? := by rw [ht, rule?]
  have hchecked : checkTokens source (t :: ts) = checkComment (t :: ts) := by
    simp only [checkTokens, ht]
  rcases ts with _ | ⟨text, _ | ⟨more, ts⟩⟩
  case nil =>
    rw [hchecked]
    exact iff_of_false (fun h => h.2 (.comment ht)) (by simp [checkComment])
  case cons.nil =>
    rw [exists_iff_of_complete hrule rfl, and_iff_left]
    rintro ⟨⟩
    simp_all
  case cons.cons =>
    rw [hchecked]
    exact iff_of_false (fun h => not_exists_of_none hrule rfl h.1) (by simp [checkComment])

theorem exists_action_iff (ht : t.kind = .actionSign) :
    (∃ us, IsLegalForm source t ts us) ∧ ¬IsAbridged (t :: ts) ↔
      checkTokens source (t :: ts) = .ok () := by
  have hrule : rule? t.kind = some action? := by rw [ht, rule?]
  have hchecked : checkTokens source (t :: ts) = checkAction source (t :: ts) := by
    simp only [checkTokens, ht]
  rcases ts with _ | ⟨name, _ | ⟨argument, _ | ⟨more, ts⟩⟩⟩
  case nil =>
    rw [hchecked]
    exact iff_of_false (fun h => not_exists_of_none hrule rfl h.1) (by simp [checkAction])
  case cons.nil =>
    rw [hchecked]
    exact iff_of_false (fun h => h.2 (.action ht)) (by simp [checkAction])
  case cons.cons.nil =>
    rw [exists_iff_of_complete hrule rfl, and_iff_left]
    rintro ⟨⟩
  case cons.cons.cons =>
    rw [hchecked]
    exact iff_of_false (fun h => not_exists_of_none hrule rfl h.1) (by simp [checkAction])

theorem exists_path_iff {o : Operator} (ht : t.kind = .operator o) :
    (∃ us, IsLegalForm source t ts us) ∧ ¬IsAbridged (t :: ts) ↔
      checkTokens source (t :: ts) = .ok () := by
  have hnot : ¬IsAbridged (t :: ts) := by
    rintro ⟨⟩ <;> simp_all
  have hchecked (us : List Token) : checkTokens source (t :: us) = .ok () ↔
      checkOperator source t = .ok () ∧ checkFields source us = .ok () := by
    rw [← bind_eq_ok_iff]
    simp only [checkTokens, ht]
  rw [and_iff_left hnot, hchecked, ← checkFields_completed_iff (o := t)]
  simp only [IsLegalForm, ht, rule?, Option.some.injEq, exists_eq_left']
  constructor
  · rintro ⟨us, hpath, hok⟩
    obtain ⟨vs, rfl⟩ := exists_of_path? hpath
    obtain ⟨hoperator, hfields⟩ := (hchecked vs).1 hok
    exact ⟨hoperator, vs, hpath, hfields⟩
  · rintro ⟨hoperator, vs, hpath, hfields⟩
    exact ⟨t :: vs, hpath, (hchecked vs).2 ⟨hoperator, hfields⟩⟩

theorem exists_and_not_isAbridged_iff (ht : t.kind.isTerminator = false) :
    (∃ us, IsLegalForm source t ts us) ∧ ¬IsAbridged (t :: ts) ↔
      checkTokens source (t :: ts) = .ok () := by
  cases hkind : t.kind with
  | commentSign => exact exists_comment_iff hkind
  | actionSign => exact exists_action_iff hkind
  | operator o => exact exists_path_iff hkind
  | lineEnd | textEnd => simp [hkind, Token.Kind.isTerminator] at ht
  | _ =>
    refine iff_of_false ?_ (by simp [checkTokens, hkind])
    rintro ⟨⟨us, f, hrule, -⟩, -⟩
    simp [hkind, rule?] at hrule

theorem not_isAbridged_of_ofBody (hlex : ts.map (·.lexeme source) = Lexeme.ofBody (c :: rest)) :
    ¬IsAbridged ts := by
  by_cases hcomment : c = '#'
  · rw [Lexeme.ofBody, if_pos hcomment] at hlex
    rintro ⟨hkind⟩
    · simp at hlex
    · simp [Token.lexeme, *] at hlex
  · by_cases haction : c = '@'
    · rw [Lexeme.ofBody, if_neg hcomment, if_pos haction] at hlex
      rintro ⟨⟩ <;> simp at hlex
    · rw [Lexeme.ofBody, if_neg hcomment, if_neg haction] at hlex
      have hword := Token.Kind.ofOperatorWord_cases (c :: rest.takeWhile (!isBlank ·))
      generalize c :: rest.takeWhile (!isBlank ·) = word at hlex hword
      have hoperator : ∀ t ∈ ts.head?, (∃ o, t.kind = .operator o) ∨ t.kind = .undefined := by
        obtain ⟨t, us, rfl, ht, -⟩ := List.map_eq_cons_iff.1 hlex
        have hkind : t.kind = .ofOperatorWord word := congrArg Lexeme.kind ht
        rintro t ⟨⟩
        rw [hkind]
        rcases hword with ⟨o, rfl⟩ | hundefined
        · exact .inl ⟨o, Token.Kind.ofOperatorWord_symbol o⟩
        · exact .inr hundefined
      rintro ⟨hkind⟩ <;> simp_all

theorem exists_iff_checkTokens (ht : t.kind.isTerminator = false)
    (hlex : (t :: ts).map (·.lexeme source) = Lexeme.ofBody (c :: rest)) :
    (∃ us, IsLegalForm source t ts us) ↔ checkTokens source (t :: ts) = .ok () := by
  rw [← exists_and_not_isAbridged_iff ht, and_iff_left (not_isAbridged_of_ofBody hlex)]

end IsLegalForm

namespace Line

variable {source cs : List Char} {l : Line}

theorem check_eq_ok_iff (hlex : l.tokens.map (·.lexeme source) = Lexeme.ofLine cs) :
    l.check source = .ok () ↔ ∃ st, Written st (trim cs) := by
  cases hbody : trimStart cs with
  | nil =>
    rw [Lexeme.ofLine, hbody] at hlex
    obtain ⟨e, _, htokens, he, hnil⟩ := List.map_eq_cons_iff.1 hlex
    obtain rfl := List.map_eq_nil_iff.1 hnil
    have hkind : e.kind = .lineEnd := congrArg Lexeme.kind he
    have hok : l.check source = .ok () := by
      simp [check, Grammar.checkTokens, length, htokens, hkind]
    rw [trim, hbody]
    exact iff_of_true hok ⟨.blank, .blank⟩
  | cons c rest =>
    obtain ⟨first, ts, e, htokens, he, hfirst, hscanned⟩ := exists_tokens_of_lexemes hlex hbody
    have hconcat : l.tokens = (first :: ts) ++ [e] := htokens
    rw [check_of_concat hconcat he (List.cons_ne_nil _ _),
      ← IsLegalForm.exists_iff_checkTokens hfirst hscanned, trim, hbody]
    constructor
    · rintro ⟨us, hform⟩
      exact Written.exists_of_isLegalForm (isBlank_head_trimStart hbody) hscanned hform
    · rintro ⟨st, hst⟩
      have hline : Lexeme.ofLine cs = st.scanned ++ [.synthetic .lineEnd] := by
        apply Written.ofLine_eq
        rw [trim, hbody]
        exact hst
      rw [Lexeme.ofLine, hbody, ← hscanned] at hline
      obtain ⟨us, hform, -⟩ := hst.exists_isLegalForm (List.append_cancel_right hline)
      exact ⟨us, hform⟩

variable {first : Token} (hhead : l.tokens.head? = some first)
  (hfirst : first.kind.isTerminator = false)

section

include hhead hfirst

theorem check_eq_checkTokens_content : l.check source = Grammar.checkTokens source l.content := by
  obtain ⟨rest, htokens⟩ := List.head?_eq_some_iff.1 hhead
  unfold check content
  by_cases hends : l.endsLine = true
  · have hlong : 1 < l.length := by
      by_contra hshort
      obtain rfl : rest = [] := by
        simpa [length, htokens, List.length_eq_zero_iff] using hshort
      have hkind : first.kind = .lineEnd := by
        simpa [endsLine, last?, htokens] using hends
      simp [hkind, Token.Kind.isTerminator] at hfirst
    rw [if_pos (by simp [hlong, hends]), if_pos hends]
  · rw [if_neg (by simp [hends]), if_neg hends]

theorem exists_canonical_check_iff {ts : List Token} (hcontent : l.content = first :: ts) :
    (∃ c, l.canonical = .ok c ∧ c.check source = .ok ()) ↔
      ∃ us, IsLegalForm source first ts us := by
  constructor
  · rintro ⟨c, hc, hcheck⟩
    cases isCanonicalOf_iff.1 hc with
    | ended hhead' hfirst' heq =>
      obtain rfl := Option.some.inj (hhead'.symm.trans hhead)
      simp [hfirst] at hfirst'
    | completed hhead' hfirst' hrule hf heq =>
      obtain rfl := Option.some.inj (hhead'.symm.trans hhead)
      rw [check_of_concat heq rfl (Canonical.ne_nil_of_rule? hrule hf)] at hcheck
      exact ⟨_, _, hrule, hcontent ▸ hf, hcheck⟩
  · rintro ⟨us, f, hrule, hf, hcheck⟩
    have hroom : (us ++ [Token.synthetic .lineEnd]).length ≤ lineCapacity := by
      rw [List.length_append]
      exact Canonical.length_of_rule? hrule hf
    refine ⟨⟨_, hroom⟩, isCanonicalOf_iff.2 ?_, ?_⟩
    · exact .completed hhead hfirst hrule (hcontent.symm ▸ hf) rfl
    · rw [check_of_concat rfl rfl (Canonical.ne_nil_of_rule? hrule hf)]
      exact hcheck

end

theorem not_isAbridged_of_isTerminator (hhead : l.tokens.head? = some first)
    (hfirst : first.kind.isTerminator = true) : ¬Canonical.IsAbridged l.content := by
  have hprefix : l.content <+: l.tokens := by
    unfold content
    split
    · exact List.dropLast_prefix _
    · exact List.prefix_rfl
  have habsurd {t : Token} {ts : List Token} (hcontent : t :: ts = l.content) : t = first := by
    obtain ⟨more, hmore⟩ := hcontent ▸ hprefix
    rw [← hmore] at hhead
    exact Option.some.inj hhead
  generalize hcontent : l.content = ts at habsurd
  rintro ⟨hkind⟩
  · obtain rfl := habsurd rfl
    simp_all [Token.Kind.isTerminator]
  · obtain rfl := habsurd rfl
    simp_all [Token.Kind.isTerminator]

theorem check_iff (source : List Char) (l : Line) : l.check source = .ok () ↔
    (∃ c, l.canonical = .ok c ∧ c.check source = .ok ()) ∧ ¬Canonical.IsAbridged l.content := by
  cases hhead : l.tokens.head? with
  | none =>
    have hnil : l.tokens = [] := List.head?_eq_none_iff.1 hhead
    have hrefused : l.canonical = .error .emptyLine := canonical_eq_emptyLine_iff.2 hnil
    refine iff_of_false ?_ (by simp [hrefused])
    simp [check, length, hnil, Grammar.checkTokens]
  | some first =>
    cases hfirst : first.kind.isTerminator with
    | true =>
      have hkept : l.canonical = .ok l := isCanonicalOf_iff.2 (.ended hhead hfirst rfl)
      have hnot := not_isAbridged_of_isTerminator hhead hfirst
      simp [hkept, hnot]
    | false =>
      obtain ⟨ts, hcontent⟩ := List.head?_eq_some_iff.1 (head?_content hhead hfirst)
      rw [exists_canonical_check_iff hhead hfirst hcontent,
        check_eq_checkTokens_content hhead hfirst, hcontent,
        IsLegalForm.exists_and_not_isAbridged_iff hfirst]

end Line

theorem Buffer.not_isAbridged_of_scanLine [Limits] {b : Buffer} {l : Line}
    (h : b.scanLine.1 = .ok l) : ¬Canonical.IsAbridged l.content := by
  have hlexemes := lexemes_of_scanLine h
  cases hbody : trimStart b.lineRest with
  | nil =>
    rw [Lexeme.ofLine, hbody] at hlexemes
    obtain ⟨e, _, htokens, he, hnil⟩ := List.map_eq_cons_iff.1 hlexemes
    obtain rfl := List.map_eq_nil_iff.1 hnil
    have hend : e.kind.isTerminator = true := by
      rw [show e.kind = .lineEnd from congrArg Lexeme.kind he]
      rfl
    exact Line.not_isAbridged_of_isTerminator (by rw [htokens, List.head?_cons]) hend
  | cons c rest =>
    obtain ⟨first, ts, e, htokens, he, -, hscanned⟩ :=
      Line.exists_tokens_of_lexemes hlexemes hbody
    rw [Line.content_of_concat htokens he]
    exact IsLegalForm.not_isAbridged_of_ofBody hscanned

/-- A line that is accepted has a canonical form that is accepted; and if the canonical form is, so
is the line, unless it is abridged. No line that the scanner gives is. -/
theorem Line.check_before_and_after [Limits] (source : List Char) (l : Line) :
    (l.check source = .ok () ↔
      (∃ c, l.canonical = .ok c ∧ c.check source = .ok ()) ∧ ¬Canonical.IsAbridged l.content) ∧
    ∀ b : Buffer, b.scanLine.1 = .ok l →
      (l.check source = .ok () ↔ ∃ c, l.canonical = .ok c ∧ c.check source = .ok ()) := by
  have hiff := check_iff source l
  refine ⟨hiff, fun b hscan => ?_⟩
  rw [hiff, and_iff_left (Buffer.not_isAbridged_of_scanLine hscan)]

theorem Line.check_before_and_after_machine :
    let b := Buffer.ofText "!> osx any  \"v\"".toList
    ∃ l, b.scanLine.1 = .ok l ∧ l.check b.text = .ok () ∧
      ∃ c, l.canonical = .ok c ∧ c.length = 6 ∧ c.check b.text = .ok () := by
  intro b
  let l : Line := ⟨[⟨.operator .throws, some ⟨0, 2⟩⟩, ⟨.system, some ⟨3, 6⟩⟩,
    ⟨.wildcard, some ⟨7, 10⟩⟩, ⟨.value, some ⟨13, 14⟩⟩, .synthetic .lineEnd], by decide⟩
  let c : Line := ⟨[⟨.operator .throws, some ⟨0, 2⟩⟩, ⟨.system, some ⟨3, 6⟩⟩, .synthetic .wildcard,
    ⟨.wildcard, some ⟨7, 10⟩⟩, ⟨.value, some ⟨13, 14⟩⟩, .synthetic .lineEnd], by decide⟩
  have hscan : b.scanLine.1 = .ok l := by decide +kernel
  have hcanonical : l.canonical = .ok c := by rfl
  have hcheck : c.check b.text = .ok () := by decide +kernel
  have hline := ((Line.check_before_and_after b.text l).2 b hscan).2 ⟨c, hcanonical, hcheck⟩
  exact ⟨l, hscan, hline, c, hcanonical, rfl, hcheck⟩

example :
    let l : Line := ⟨[.synthetic .commentSign], by decide⟩
    let c : Line := ⟨[.synthetic .commentSign, .synthetic .commentText, .synthetic .lineEnd],
      by decide⟩
    l.canonical = .ok c ∧ c.check [] = .ok () ∧ l.check [] = .error (.invalidComment 1) :=
  ⟨rfl, rfl, rfl⟩

end PlatformRules
