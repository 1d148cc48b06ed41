import PlatformRules.Proofs.Document.Acceptance

namespace PlatformRules

open Text

inductive GrammarError.IsFieldError : GrammarError → Prop
  | mismatch (position : Nat) (expected : String) (found : Token.Kind) :
      IsFieldError (.mismatch position expected found)
  | comparator (text : String) : IsFieldError (.invalidComparator text)
  | comparedVersion (found : Token.Kind) : IsFieldError (.comparatorNeedsVersion found)
  | missing : IsFieldError (.unrecognizedOverload 1)

namespace LineError

inductive IsCause : LineError → Prop
  | lineTooLong (length : Nat) : IsCause (.scan (.lineTooLong length))
  | tooManyTokens : IsCause (.scan .tooManyTokens)
  | unexpectedLeading : IsCause (.shape (.unexpectedLeading .undefined))
  | malformed (o : Operator) : IsCause (.shape (.malformed (.operator o) 8))
  | actionName (name : String) : IsCause (.grammar (.invalidActionName name))
  | fields {e : GrammarError} (h : e.IsFieldError) : IsCause (.grammar e)

/-- Errors that only lines put together in another way can give. -/
def foreignNames : List String :=
  ["UnexpectedShape", "EmptyLine", "EmptySequence", "UnrecognizedStart", "InvalidComment",
    "InvalidSpecialAction", "InvalidOperator", "KeywordTextMismatch", "InvalidSystemName",
    "InvalidArchitecture", "InvalidMajorVersion"]

theorem IsCause.not_foreign {cause : LineError} (h : cause.IsCause) :
    cause.name ∉ foreignNames := by
  cases h with
  | lineTooLong length => simp [name, ScanError.name, foreignNames]
  | tooManyTokens => simp [name, ScanError.name, foreignNames]
  | unexpectedLeading => simp [name, ShapeError.name, foreignNames]
  | malformed o => simp [name, ShapeError.name, foreignNames]
  | actionName text => simp [name, GrammarError.name, foreignNames]
  | fields h => cases h <;> simp [name, GrammarError.name, foreignNames]

end LineError

def Lexeme.IsField (x : Lexeme) : Prop :=
  x.IsScanned ∨ x = .synthetic .wildcard

namespace Grammar

def ChecksFields (a : Except GrammarError Unit) : Prop :=
  ∀ e, a = .error e → e.IsFieldError

theorem ChecksFields.bind {a b : Except GrammarError Unit} (ha : ChecksFields a)
    (hb : ChecksFields b) : ChecksFields (a >>= fun _ => b) := by
  intro e he
  cases a with
  | error d =>
    obtain rfl := Except.error.inj he
    exact ha d rfl
  | ok u => exact hb e he

variable {source : List Char} {t : Token} {position : Nat} (h : (t.lexeme source).IsField)

section

include h

theorem checkPlaceholder_of_isField (hkind : t.kind.isPlaceholder) :
    checkPlaceholder source t = .ok () := by
  rcases h with h | h
  · generalize hx : t.lexeme source = x at h
    have hk : t.kind = x.kind := congrArg Lexeme.kind hx
    rw [hk] at hkind
    cases h with
    | word w => exact checkPlaceholder_of_word hx (Token.Kind.isPlaceholder_ofWord_iff.1 hkind)
    | value v => simp [Token.Kind.isPlaceholder] at hkind
    | undefined text => simp [Token.Kind.isPlaceholder] at hkind
  · have hsynthetic : t.isSynthetic = true := by
      rw [Token.isSynthetic_eq source, h]
      rfl
    simp [checkPlaceholder, hsynthetic]

theorem checkClass_error {class' : Token.Kind} {holds : List Char → Bool} {other e : GrammarError}
    {mismatch : Token.Kind → GrammarError}
    (hclass : ∀ w, holds w = true ↔ Token.Kind.ofWord w = class')
    (hvalue : class' ≠ .value) (hundefined : class' ≠ .undefined) (hwildcard : class' ≠ .wildcard)
    (he : checkClass source class' holds other mismatch t = .error e) : e = mismatch t.kind := by
  -- a kind was read off its word, so that looking at the word once more finds nothing new
  have hholds : t.kind = class' → holds (t.text source) = true := by
    intro hkind
    rcases h with h | h
    · generalize hx : t.lexeme source = x at h
      have hk : x.kind = class' := (congrArg Lexeme.kind hx).symm.trans hkind
      cases h with
      | word w =>
        rw [Token.text_of_word hx]
        exact (hclass w).2 hk
      | value v => exact absurd hk.symm hvalue
      | undefined text => exact absurd hk.symm hundefined
    · exact absurd (hkind.symm.trans (congrArg Lexeme.kind h)) hwildcard
  unfold checkClass at he
  split at he
  · next hkind => simp [hholds hkind] at he
  · split at he
    · next hplaceholder => simp [checkPlaceholder_of_isField h hplaceholder] at he
    · exact (Except.error.inj he).symm

theorem checksFields_checkSystem : ChecksFields (checkSystem source position t) := by
  intro e he
  rw [checkSystem_eq] at he
  rw [checkClass_error h (fun _ => Token.Kind.isSystem_iff_ofWord) (by decide) (by decide)
    (by decide) he]
  exact .mismatch ..

theorem checksFields_checkArchitecture : ChecksFields (checkArchitecture source position t) := by
  intro e he
  rw [checkArchitecture_eq] at he
  rw [checkClass_error h (fun _ => Token.Kind.isArchitecture_iff_ofWord) (by decide) (by decide)
    (by decide) he]
  exact .mismatch ..

theorem checksFields_checkVersion : ChecksFields (checkVersion source position t) := by
  intro e he
  rw [checkVersion_eq] at he
  rw [checkClass_error h (fun _ => Token.Kind.isSome_version?_iff_ofWord) (by decide) (by decide)
    (by decide) he]
  exact .mismatch ..

theorem checksFields_checkComparedVersion : ChecksFields (checkComparedVersion source t) := by
  intro e he
  unfold checkComparedVersion at he
  split at he
  · exact checksFields_checkVersion h e he
  · obtain rfl := Except.error.inj he
    exact .comparedVersion ..

end

theorem checksFields_checkComparator : ChecksFields (checkComparator source t) := by
  intro e he
  unfold checkComparator at he
  split at he
  · split at he
    · simp at he
    · obtain rfl := Except.error.inj he
      exact .comparator ..
  · obtain rfl := Except.error.inj he
    exact .comparator ..

theorem checksFields_checkValue : ChecksFields (checkValue position t) := by
  intro e he
  unfold checkValue at he
  split at he
  · simp at he
  · obtain rfl := Except.error.inj he
    exact .mismatch ..

theorem checksFields_checkFields {ts : List Token} (hts : ∀ t ∈ ts, (t.lexeme source).IsField)
    (hlength : ts.length ≤ 5) : ChecksFields (checkFields source ts) := by
  rcases ts with _ | ⟨a, _ | ⟨b, _ | ⟨c, _ | ⟨d, _ | ⟨f, _ | ⟨g, ts⟩⟩⟩⟩⟩⟩
  · intro e he
    obtain rfl := Except.error.inj he
    exact .missing
  · exact checksFields_checkValue
  · have hsystem := hts a (by simp)
    exact (checksFields_checkSystem hsystem).bind checksFields_checkValue
  · have hsystem := hts a (by simp)
    have harch := hts b (by simp)
    exact (checksFields_checkSystem hsystem).bind
      ((checksFields_checkArchitecture harch).bind checksFields_checkValue)
  · have hsystem := hts a (by simp)
    have hversion := hts b (by simp)
    have harch := hts c (by simp)
    exact (checksFields_checkSystem hsystem).bind ((checksFields_checkVersion hversion).bind
      ((checksFields_checkArchitecture harch).bind checksFields_checkValue))
  · have hsystem := hts a (by simp)
    have hversion := hts c (by simp)
    have harch := hts d (by simp)
    exact (checksFields_checkSystem hsystem).bind (checksFields_checkComparator.bind
      ((checksFields_checkComparedVersion hversion).bind
        ((checksFields_checkArchitecture harch).bind checksFields_checkValue)))
  · simp only [List.length_cons] at hlength
    omega

theorem invalidActionName_of_checkTokens {n a : Token} {e : GrammarError}
    (ht : t.kind = .actionSign) (hn : n.kind = .actionName) (ha : a.kind = .actionArgument)
    (he : checkTokens source [t, n, a] = .error e) : e = .invalidActionName (quoted source n) := by
  simp only [checkTokens, checkAction, ht, hn, ha, and_self, if_true] at he
  split at he
  · simp at he
  · exact (Except.error.inj he).symm

end Grammar

namespace Canonical

variable {o : Token} {fs vs : List Token}

theorem mem_of_path? (h : path? (o :: fs) = some (o :: vs)) :
    ∀ t ∈ vs, t ∈ fs ∨ t = wildcard := by
  rcases fs with _ | ⟨a, _ | ⟨b, _ | ⟨c, _ | ⟨d, _ | ⟨e, _ | ⟨g, fs⟩⟩⟩⟩⟩⟩ <;>
    simp only [path?, Option.some.injEq, List.cons.injEq, true_and, reduceCtorEq] at h <;>
    subst h <;> simp

theorem length_of_path?_eq_none (h : path? (o :: fs) = none) : 6 ≤ fs.length := by
  rcases fs with _ | ⟨a, _ | ⟨b, _ | ⟨c, _ | ⟨d, _ | ⟨e, _ | ⟨g, fs⟩⟩⟩⟩⟩⟩ <;>
    simp [path?] at h ⊢

theorem length_fields_of_path? (h : path? (o :: fs) = some (o :: vs)) : vs.length ≤ 5 := by
  have hlength := length_of_path? h
  rw [List.length_cons] at hlength
  unfold pathLength comparedPathLength at hlength
  omega

end Canonical

inductive IsRefused (source : List Char) (first : Token) (ts : List Token) (n : Nat) :
    LineError → Prop
  | unexpectedLeading (hrule : Canonical.rule? first.kind = none) :
      IsRefused source first ts n (.shape (.unexpectedLeading first.kind))
  | malformed {f : List Token → Option (List Token)} (hrule : Canonical.rule? first.kind = some f)
      (hf : f (first :: ts) = none) :
      IsRefused source first ts n (.shape (.malformed first.kind n))
  | grammar {f : List Token → Option (List Token)} {us : List Token} {e : GrammarError}
      (hrule : Canonical.rule? first.kind = some f) (hf : f (first :: ts) = some us)
      (hcheck : Grammar.checkTokens source us = .error e) : IsRefused source first ts n (.grammar e)

namespace IsRefused

variable {source rest : List Char} {c : Char} {first : Token} {ts : List Token} {n : Nat}
  {cause : LineError}

theorem isCause_of_action (h : IsRefused source first ts n cause)
    (hlex : (first :: ts).map (·.lexeme source) = Lexeme.ofBody ('@' :: rest)) :
    cause.IsCause := by
  rw [Lexeme.ofBody, if_neg (by decide), if_pos rfl] at hlex
  simp only [List.map_cons, List.cons.injEq, List.map_eq_cons_iff, List.map_eq_nil_iff] at hlex
  obtain ⟨ht, name, _, rfl, hn, argument, _, rfl, ha, rfl⟩ := hlex
  have hkind : first.kind = .actionSign := congrArg Lexeme.kind ht
  have hrule' : Canonical.rule? first.kind = some Canonical.action? := by rw [hkind]; rfl
  cases h with
  | unexpectedLeading hrule => simp [hrule'] at hrule
  | malformed hrule hf =>
    obtain rfl := Option.some.inj (hrule'.symm.trans hrule)
    simp [Canonical.action?] at hf
  | grammar hrule hf hcheck =>
    obtain rfl := Option.some.inj (hrule'.symm.trans hrule)
    obtain rfl := Option.some.inj hf
    rw [Grammar.invalidActionName_of_checkTokens hkind (congrArg Lexeme.kind hn)
      (congrArg Lexeme.kind ha) hcheck]
    exact .actionName _

theorem isCause_of_path {o : Operator} (h : IsRefused source first ts n cause)
    (hn : n = ts.length + 2) (hcapacity : n ≤ lineCapacity)
    (hfirst : first.lexeme source = ⟨.operator o, some o.symbol.toList⟩)
    (hscan : ∀ t ∈ ts, (t.lexeme source).IsScanned) : cause.IsCause := by
  have hkind : first.kind = .operator o := congrArg Lexeme.kind hfirst
  have hrule' : Canonical.rule? first.kind = some Canonical.path? := by rw [hkind]; rfl
  cases h with
  | unexpectedLeading hrule => simp [hrule'] at hrule
  | malformed hrule hf =>
    obtain rfl := Option.some.inj (hrule'.symm.trans hrule)
    have hlong := Canonical.length_of_path?_eq_none hf
    obtain rfl : n = 8 := by
      unfold lineCapacity at hcapacity
      omega
    rw [hkind]
    exact .malformed o
  | grammar hrule hf hcheck =>
    obtain rfl := Option.some.inj (hrule'.symm.trans hrule)
    obtain ⟨vs, rfl⟩ := Canonical.exists_of_path? hf
    rw [Grammar.checkTokens_of_operator hfirst] at hcheck
    have hfields : ∀ t ∈ vs, (t.lexeme source).IsField := by
      intro t ht
      rcases Canonical.mem_of_path? hf t ht with ht | rfl
      · exact .inl (hscan t ht)
      · exact .inr rfl
    exact .fields (Grammar.checksFields_checkFields hfields
      (Canonical.length_fields_of_path? hf) _ hcheck)

theorem isCause_of_operator (h : IsRefused source first ts n cause) (hn : n = ts.length + 2)
    (hcapacity : n ≤ lineCapacity) (hcomment : c ≠ '#') (haction : c ≠ '@')
    (hlex : (first :: ts).map (·.lexeme source) = Lexeme.ofBody (c :: rest)) :
    cause.IsCause := by
  rw [Lexeme.ofBody, if_neg hcomment, if_neg haction] at hlex
  obtain ⟨ht, hts⟩ := List.cons.inj hlex
  generalize c :: rest.takeWhile (!isBlank ·) = word at ht
  rcases Token.Kind.ofOperatorWord_cases word with ⟨o, rfl⟩ | hundefined
  · rw [Token.Kind.ofOperatorWord_symbol] at ht
    have hscan : ∀ u ∈ ts, (u.lexeme source).IsScanned := by
      intro u hu
      apply Lexeme.isScanned_ofFields (rest.dropWhile (!isBlank ·))
      rw [← hts]
      exact List.mem_map_of_mem hu
    exact h.isCause_of_path hn hcapacity ht hscan
  · have hkind : first.kind = .undefined := (congrArg Lexeme.kind ht).trans hundefined
    have hrule' : Canonical.rule? first.kind = none := by rw [hkind]; rfl
    cases h with
    | unexpectedLeading hrule =>
      rw [hkind]
      exact .unexpectedLeading
    | malformed hrule hf => simp [hrule'] at hrule
    | grammar hrule hf hcheck => simp [hrule'] at hrule

end IsRefused

namespace Document

variable [Limits] {text : List Char} {cause : LineError}

theorem isRefused_of_readLine {raw : Line} {first e : Token} {ts : List Token}
    (hraw : Line.ofText text = .ok raw) (htokens : raw.tokens = first :: (ts ++ [e]))
    (he : e.kind = .lineEnd) (hfirst : first.kind.isTerminator = false)
    (h : readLine text = .error cause) : IsRefused text first ts raw.length cause := by
  rcases readLine_eq_error h with ⟨e, he, -⟩ | ⟨raw', hraw', hlater⟩
  · simp [hraw] at he
  · obtain rfl := Except.ok.inj (hraw.symm.trans hraw')
    rcases hlater with ⟨e, hshape, rfl⟩ | ⟨line, e, hline, hcheck, rfl⟩
    · rcases Line.canonical_eq_error htokens he hfirst hshape with ⟨hrule, rfl⟩ | ⟨f, hrule, hf, rfl⟩
      · exact .unexpectedLeading hrule
      · exact .malformed hrule hf
    · obtain ⟨f, us, hrule, hf, hclosed⟩ := (Line.canonical_eq_ok_iff htokens he hfirst).1 hline
      rw [Line.check_of_concat hclosed rfl (Canonical.ne_nil_of_rule? hrule hf)] at hcheck
      exact .grammar hrule hf hcheck

theorem isCause_of_readLine (hblank : trim text ≠ []) (h : readLine text = .error cause) :
    cause.IsCause := by
  cases hraw : Line.ofText text with
  | error e =>
    obtain rfl : .scan e = cause := by simpa [readLine, hraw] using h
    cases e with
    | lineTooLong length => exact .lineTooLong length
    | tooManyTokens => exact .tooManyTokens
  | ok raw =>
    cases hbody : trimStart (withoutReturn text) with
    | nil =>
      rw [← trim_withoutReturn, trim, hbody] at hblank
      exact absurd rfl hblank
    | cons c rest =>
      obtain ⟨first, ts, e, htokens, he, hfirst, hlex⟩ :=
        Line.exists_tokens_of_lexemes (Line.lexemes_of_ofText hraw) hbody
      have hrefused := isRefused_of_readLine hraw htokens he hfirst h
      by_cases hcomment : c = '#'
      · subst hcomment
        have htrim : trim text = '#' :: trimEnd rest := by
          rw [← trim_withoutReturn, trim, hbody, trimEnd_cons rest (by decide)]
        have hwritten := Written.comment (trimEnd rest)
        rw [← htrim] at hwritten
        obtain ⟨r, hr, -⟩ := exists_readLine_of_written (Line.ofText_eq_ok_iff.1 hraw).1 hwritten
        simp [h] at hr
      · by_cases haction : c = '@'
        · subst haction
          exact hrefused.isCause_of_action hlex
        · have hlength : raw.length = ts.length + 2 := by simp [Line.length, htokens]
          exact hrefused.isCause_of_operator hlength raw.length_le hcomment haction hlex

theorem length_of_readLine_eq_ok {r : ReadLine} (hblank : trim text ≠ [])
    (h : readLine text = .ok r) : r.line.length ∈ [2, 3, 5, 6] := by
  obtain ⟨st, hst⟩ := exists_written h
  have hlength : r.line.length = st.lexemes.length := by
    rw [← (saying_of_readLine h hst).line, List.length_map]
    rfl
  rw [hlength]
  cases st with
  | blank => exact absurd hst.eq_nil hblank
  | comment text => simp [Statement.lexemes, Statement.scanned]
  | action name argument => simp [Statement.lexemes, Statement.scanned]
  | path o f value =>
    have hpath := Statement.length_lexemes_path o f value
    simp only [List.mem_cons, List.not_mem_nil]
    omega

end Document

end PlatformRules
