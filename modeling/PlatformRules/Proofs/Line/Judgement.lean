import PlatformRules.Line.Canonical
import PlatformRules.Line.Grammar
import PlatformRules.Proofs.Line.Sentences

namespace PlatformRules

open Text

namespace Token

variable {source w : List Char} {t : Token}

theorem text_eq (source : List Char) (t : Token) :
    t.text source = (t.lexeme source).text.getD [] := by
  cases h : t.range <;> simp [text, lexeme, h]

theorem isSynthetic_eq (source : List Char) (t : Token) :
    t.isSynthetic = (t.lexeme source).text.isNone := by
  cases h : t.range <;> simp [isSynthetic, lexeme, h]

theorem kind_of_word (h : t.lexeme source = .word w) : t.kind = .ofWord w :=
  congrArg Lexeme.kind h

theorem text_of_word (h : t.lexeme source = .word w) : t.text source = w := by
  rw [text_eq, h]; rfl

end Token

theorem Vocabulary.isActionName_iff {name : List Char} :
    isActionName name = true ↔ IsActionName name := by
  simp [isActionName, IsActionName]

theorem Vocabulary.isLegalActionName_iff {name : List Char} :
    (isBuiltIn name || isActionName name) = true ↔ IsActionName name := by
  have hbuiltIn : isBuiltIn name = true → isActionName name = true := by
    have hall : ∀ w ∈ builtInActions, isActionName w.toList = true := by decide
    intro h
    obtain ⟨w, hw, heq⟩ := List.any_eq_true.1 h
    rw [← eq_of_beq heq]
    exact hall w hw
  rw [Bool.or_eq_true, ← isActionName_iff]
  constructor
  · rintro (h | h)
    · exact hbuiltIn h
    · exact h
  · exact .inr

namespace Grammar

variable {source w : List Char} {t : Token} {position : Nat}

theorem bind_eq_ok_iff {a b : Except GrammarError Unit} :
    (a >>= fun _ => b) = .ok () ↔ a = .ok () ∧ b = .ok () := by
  cases a with
  | error e => simp [bind, Except.bind]
  | ok u => simp [bind, Except.bind]

def checkClass (source : List Char) (class' : Token.Kind) (holds : List Char → Bool)
    (other : GrammarError) (mismatch : Token.Kind → GrammarError) (t : Token) :
    Except GrammarError Unit :=
  if t.kind = class' then if holds (t.text source) then .ok () else .error other
  else if t.kind.isPlaceholder then checkPlaceholder source t
  else .error (mismatch t.kind)

theorem checkSystem_eq (source : List Char) (position : Nat) (t : Token) :
    checkSystem source position t = checkClass source .system Vocabulary.isSystem
      (.invalidSystem (quoted source t)) (.mismatch position "system name, any or defined") t := by
  unfold checkSystem checkClass
  cases h : t.kind <;> simp [Token.Kind.isPlaceholder]

theorem checkArchitecture_eq (source : List Char) (position : Nat) (t : Token) :
    checkArchitecture source position t =
      checkClass source .architecture Vocabulary.isArchitecture
        (.invalidArchitecture (quoted source t))
        (.mismatch position "architecture, any or defined") t := by
  unfold checkArchitecture checkClass
  cases h : t.kind <;> simp [Token.Kind.isPlaceholder]

theorem checkVersion_eq (source : List Char) (position : Nat) (t : Token) :
    checkVersion source position t =
      checkClass source .version (fun w => (Vocabulary.version? w).isSome)
        (.invalidVersion (quoted source t))
        (.mismatch position "major version, any or defined") t := by
  unfold checkVersion checkClass
  cases h : t.kind <;> simp [Token.Kind.isPlaceholder]

theorem checkPlaceholder_of_word (h : t.lexeme source = .word w)
    (hw : w = Vocabulary.wildcardWord.toList ∨ w = Vocabulary.definedWord.toList) :
    checkPlaceholder source t = .ok () := by
  have hkind := Token.kind_of_word h
  have htext := Token.text_of_word h
  unfold checkPlaceholder
  rcases hw with rfl | rfl
  · rw [Token.Kind.ofWord_wildcardWord] at hkind
    simp [hkind, htext]
  · rw [Token.Kind.ofWord_definedWord] at hkind
    simp [hkind, htext]

theorem checkClass_word_iff {class' : Token.Kind} {holds : List Char → Bool} {other : GrammarError}
    {mismatch : Token.Kind → GrammarError}
    (hclass : ∀ w, holds w = true ↔ Token.Kind.ofWord w = class')
    (hplaceholder : class'.isPlaceholder = false) (h : t.lexeme source = .word w) :
    checkClass source class' holds other mismatch t = .ok () ↔
      ∃ p : Pattern, p.Allows (fun v => holds v = true) ∧ w = p.spelling := by
  have hkind := Token.kind_of_word h
  have htext := Token.text_of_word h
  unfold checkClass
  rw [hkind, htext]
  constructor
  · intro hok
    split at hok
    · next hc => exact ⟨.word w, (hclass w).2 hc, rfl⟩
    · split at hok
      · next hp =>
        rcases Token.Kind.isPlaceholder_ofWord_iff.1 hp with rfl | rfl
        · exact ⟨.any, trivial, rfl⟩
        · exact ⟨.defined, trivial, rfl⟩
      · simp at hok
  · rintro ⟨p, hp, rfl⟩
    have placeholder (hw : (Token.Kind.ofWord p.spelling).isPlaceholder) :
        Token.Kind.ofWord p.spelling ≠ class' := by
      rintro rfl
      simp [hw] at hplaceholder
    cases p with
    | any =>
      have hp : (Token.Kind.ofWord (Pattern.spelling .any)).isPlaceholder := by decide
      rw [if_neg (placeholder hp), if_pos hp]
      exact checkPlaceholder_of_word h (.inl rfl)
    | defined =>
      have hp : (Token.Kind.ofWord (Pattern.spelling .defined)).isPlaceholder := by decide
      rw [if_neg (placeholder hp), if_pos hp]
      exact checkPlaceholder_of_word h (.inr rfl)
    | word v =>
      have hv : holds v = true := hp
      simp only [Pattern.spelling, (hclass v).1 hv, hv, if_true]

theorem checkClass_scanned_iff {class' : Token.Kind} {holds : List Char → Bool}
    {other : GrammarError} {mismatch : Token.Kind → GrammarError}
    (hclass : ∀ w, holds w = true ↔ Token.Kind.ofWord w = class')
    (hplaceholder : class'.isPlaceholder = false)
    (hvalue : class' ≠ .value) (hundefined : class' ≠ .undefined)
    (h : (t.lexeme source).IsScanned) :
    checkClass source class' holds other mismatch t = .ok () ↔
      ∃ p : Pattern, p.Allows (fun v => holds v = true) ∧ t.lexeme source = .word p.spelling := by
  constructor
  · intro hok
    generalize hx : t.lexeme source = x at h
    have hkind : t.kind = x.kind := congrArg Lexeme.kind hx
    cases h with
    | word w =>
      obtain ⟨p, hp, rfl⟩ := (checkClass_word_iff hclass hplaceholder hx).1 hok
      exact ⟨p, hp, rfl⟩
    | value v => simp [checkClass, hkind, hvalue.symm, Token.Kind.isPlaceholder] at hok
    | undefined text => simp [checkClass, hkind, hundefined.symm, Token.Kind.isPlaceholder] at hok
  · rintro ⟨p, hp, hword⟩
    exact (checkClass_word_iff hclass hplaceholder hword).2 ⟨p, hp, rfl⟩

open PathFields

section

variable (h : (t.lexeme source).IsScanned)
include h

theorem checkSystem_iff : checkSystem source position t = .ok () ↔
    ∃ p, IsSystemField p ∧ t.lexeme source = .word p.spelling := by
  rw [checkSystem_eq, checkClass_scanned_iff (fun _ => Token.Kind.isSystem_iff_ofWord) rfl
    (by decide) (by decide) h]
  simp only [IsSystemField, Pattern.allows_congr (fun _ => Vocabulary.isSystem_iff)]

theorem checkArchitecture_iff : checkArchitecture source position t = .ok () ↔
    ∃ p, IsArchitectureField p ∧ t.lexeme source = .word p.spelling := by
  rw [checkArchitecture_eq, checkClass_scanned_iff
    (fun _ => Token.Kind.isArchitecture_iff_ofWord) rfl (by decide) (by decide) h]
  simp only [IsArchitectureField, Pattern.allows_congr (fun _ => Vocabulary.isArchitecture_iff)]

theorem checkVersion_iff : checkVersion source position t = .ok () ↔
    ∃ p, IsVersionField p ∧ t.lexeme source = .word p.spelling := by
  rw [checkVersion_eq, checkClass_scanned_iff
    (fun _ => Token.Kind.isSome_version?_iff_ofWord) rfl (by decide) (by decide) h]
  simp only [IsVersionField, Pattern.allows_congr (fun _ => Vocabulary.isSome_version?_iff)]

theorem checkComparator_iff : checkComparator source t = .ok () ↔
    ∃ c : Comparator, t.lexeme source = .word c.symbol.toList := by
  constructor
  · intro hok
    generalize hx : t.lexeme source = x at h
    have hkind : t.kind = x.kind := congrArg Lexeme.kind hx
    unfold checkComparator at hok
    split at hok
    · next c hc =>
      cases h with
      | word w =>
        have hw := Token.Kind.reads_of_ofWord_eq (hkind.symm.trans hc)
        exact ⟨c, congrArg Lexeme.word hw⟩
      | value v => exact absurd (hkind.symm.trans hc) (by simp)
      | undefined text => exact absurd (hkind.symm.trans hc) (by simp)
    · simp at hok
  · rintro ⟨c, hword⟩
    have hkind := (Token.kind_of_word hword).trans (Token.Kind.ofWord_symbol c)
    have hc : Comparator.ofText? c.symbol.toList = some c := Comparator.ofText?_eq_some_iff.2 rfl
    simp [checkComparator, hkind, Token.text_of_word hword, hc]

theorem checkComparedVersion_iff : checkComparedVersion source t = .ok () ↔
    ∃ n, IsInteger n ∧ t.lexeme source = .word n := by
  unfold checkComparedVersion
  split
  · next hkind =>
    rw [checkVersion_iff h]
    constructor
    · rintro ⟨p, hp, hword⟩
      refine ⟨p.spelling, ?_, hword⟩
      rw [← Vocabulary.isSome_version?_iff, Token.Kind.isSome_version?_iff_ofWord,
        ← Token.kind_of_word hword, hkind]
    · rintro ⟨n, hn, hword⟩
      exact ⟨.word n, hn, hword⟩
  · next hkind =>
    constructor
    · intro hok
      simp at hok
    · rintro ⟨n, hn, hword⟩
      rw [← Vocabulary.isSome_version?_iff, Token.Kind.isSome_version?_iff_ofWord] at hn
      exact absurd ((Token.kind_of_word hword).trans hn) hkind

theorem checkValue_iff : checkValue position t = .ok () ↔
    ∃ v, t.lexeme source = ⟨.value, some v⟩ := by
  generalize hx : t.lexeme source = x at h
  have hkind : t.kind = x.kind := congrArg Lexeme.kind hx
  unfold checkValue
  rw [hkind]
  cases h with
  | word w =>
    have hne : (Lexeme.word w).kind ≠ .value := Token.Kind.ofWord_ne_value
    rw [if_neg hne]
    constructor
    · intro hok
      simp at hok
    · rintro ⟨v, he⟩
      exact absurd (congrArg Lexeme.kind he) hne
  | value v => simp
  | undefined text => simp

end

theorem checkTokens_of_operator {o : Operator}
    (h : t.lexeme source = ⟨.operator o, some o.symbol.toList⟩) (ts : List Token) :
    checkTokens source (t :: ts) = checkFields source ts := by
  have hkind : t.kind = .operator o := congrArg Lexeme.kind h
  have htext : t.text source = o.symbol.toList := by rw [Token.text_eq, h]; rfl
  have hoperator : checkOperator source t = .ok () := by
    have hread : Operator.ofText? o.symbol.toList = some o := Operator.ofText?_eq_some_iff.2 rfl
    simp [checkOperator, hkind, htext, hread]
  simp only [checkTokens, hkind, hoperator]
  rfl

def IsPathForm (xs : List Lexeme) : Prop :=
  ∃ f : PathFields, f.IsValid ∧ ∃ v, xs = f.words.map Lexeme.word ++ [⟨.value, some v⟩]

variable {o : Token} {fs us : List Token} (hscan : ∀ t ∈ fs, (t.lexeme source).IsScanned)
include hscan

theorem isPathForm_of_checkFields (hpath : Canonical.path? (o :: fs) = some (o :: us))
    (hok : checkFields source us = .ok ()) : IsPathForm (fs.map (·.lexeme source)) := by
  -- the forms differ in the number of tokens, which also tells where wildcards are put in
  rcases fs with _ | ⟨a, _ | ⟨b, _ | ⟨c, _ | ⟨d, _ | ⟨e, _ | ⟨g, fs⟩⟩⟩⟩⟩⟩ <;>
    simp only [Canonical.path?, Option.some.injEq, List.cons.injEq, true_and, reduceCtorEq] at hpath <;>
    subst hpath <;> simp only [checkFields, bind_eq_ok_iff, reduceCtorEq] at hok
  · obtain ⟨-, -, -, hvalue⟩ := hok
    obtain ⟨v, hv⟩ := (checkValue_iff (hscan a (by simp))).1 hvalue
    exact ⟨.none, trivial, v, by simp [PathFields.words, hv]⟩
  · obtain ⟨hsystem, -, -, hvalue⟩ := hok
    obtain ⟨s, hs, ha⟩ := (checkSystem_iff (hscan a (by simp))).1 hsystem
    obtain ⟨v, hv⟩ := (checkValue_iff (hscan b (by simp))).1 hvalue
    exact ⟨.system s, hs, v, by simp [PathFields.words, ha, hv]⟩
  · obtain ⟨hsystem, -, harch, hvalue⟩ := hok
    obtain ⟨s, hs, ha⟩ := (checkSystem_iff (hscan a (by simp))).1 hsystem
    obtain ⟨x, hx, hb⟩ := (checkArchitecture_iff (hscan b (by simp))).1 harch
    obtain ⟨v, hv⟩ := (checkValue_iff (hscan c (by simp))).1 hvalue
    exact ⟨.machine s x, ⟨hs, hx⟩, v, by simp [PathFields.words, ha, hb, hv]⟩
  · obtain ⟨hsystem, hversion, harch, hvalue⟩ := hok
    obtain ⟨s, hs, ha⟩ := (checkSystem_iff (hscan a (by simp))).1 hsystem
    obtain ⟨n, hn, hb⟩ := (checkVersion_iff (hscan b (by simp))).1 hversion
    obtain ⟨x, hx, hc⟩ := (checkArchitecture_iff (hscan c (by simp))).1 harch
    obtain ⟨v, hv⟩ := (checkValue_iff (hscan d (by simp))).1 hvalue
    exact ⟨.release s n x, ⟨hs, hn, hx⟩, v, by simp [PathFields.words, ha, hb, hc, hv]⟩
  · obtain ⟨hsystem, hcomparator, hliteral, harch, hvalue⟩ := hok
    obtain ⟨s, hs, ha⟩ := (checkSystem_iff (hscan a (by simp))).1 hsystem
    obtain ⟨k, hb⟩ := (checkComparator_iff (hscan b (by simp))).1 hcomparator
    obtain ⟨n, hn, hc⟩ := (checkComparedVersion_iff (hscan c (by simp))).1 hliteral
    obtain ⟨x, hx, hd⟩ := (checkArchitecture_iff (hscan d (by simp))).1 harch
    obtain ⟨v, hv⟩ := (checkValue_iff (hscan e (by simp))).1 hvalue
    exact ⟨.compared s k n x, ⟨hs, hn, hx⟩, v, by simp [PathFields.words, ha, hb, hc, hd, hv]⟩

theorem exists_checkFields_of_isPathForm (h : IsPathForm (fs.map (·.lexeme source))) :
    ∃ us, Canonical.path? (o :: fs) = some (o :: us) ∧ checkFields source us = .ok () := by
  obtain ⟨f, hf, v, hxs⟩ := h
  cases f <;> simp only [PathFields.words, List.map_cons, List.map_nil, List.cons_append,
    List.nil_append, List.map_eq_cons_iff, List.map_eq_nil_iff] at hxs
  case none =>
    obtain ⟨a, _, rfl, ha, rfl⟩ := hxs
    refine ⟨_, rfl, ?_⟩
    simp only [checkFields, bind_eq_ok_iff]
    exact ⟨rfl, rfl, rfl, (checkValue_iff (hscan a (by simp))).2 ⟨v, ha⟩⟩
  case system s =>
    obtain ⟨a, _, rfl, ha, b, _, rfl, hb, rfl⟩ := hxs
    refine ⟨_, rfl, ?_⟩
    simp only [checkFields, bind_eq_ok_iff]
    exact ⟨(checkSystem_iff (hscan a (by simp))).2 ⟨s, hf, ha⟩, rfl, rfl,
      (checkValue_iff (hscan b (by simp))).2 ⟨v, hb⟩⟩
  case machine s x =>
    obtain ⟨a, _, rfl, ha, b, _, rfl, hb, c, _, rfl, hc, rfl⟩ := hxs
    refine ⟨_, rfl, ?_⟩
    simp only [checkFields, bind_eq_ok_iff]
    exact ⟨(checkSystem_iff (hscan a (by simp))).2 ⟨s, hf.1, ha⟩, rfl,
      (checkArchitecture_iff (hscan b (by simp))).2 ⟨x, hf.2, hb⟩,
      (checkValue_iff (hscan c (by simp))).2 ⟨v, hc⟩⟩
  case release s n x =>
    obtain ⟨a, _, rfl, ha, b, _, rfl, hb, c, _, rfl, hc, d, _, rfl, hd, rfl⟩ := hxs
    refine ⟨_, rfl, ?_⟩
    simp only [checkFields, bind_eq_ok_iff]
    exact ⟨(checkSystem_iff (hscan a (by simp))).2 ⟨s, hf.1, ha⟩,
      (checkVersion_iff (hscan b (by simp))).2 ⟨n, hf.2.1, hb⟩,
      (checkArchitecture_iff (hscan c (by simp))).2 ⟨x, hf.2.2, hc⟩,
      (checkValue_iff (hscan d (by simp))).2 ⟨v, hd⟩⟩
  case compared s k n x =>
    obtain ⟨a, _, rfl, ha, b, _, rfl, hb, c, _, rfl, hc, d, _, rfl, hd, e, _, rfl, he, rfl⟩ := hxs
    refine ⟨_, rfl, ?_⟩
    simp only [checkFields, bind_eq_ok_iff]
    exact ⟨(checkSystem_iff (hscan a (by simp))).2 ⟨s, hf.1, ha⟩,
      (checkComparator_iff (hscan b (by simp))).2 ⟨k, hb⟩,
      (checkComparedVersion_iff (hscan c (by simp))).2 ⟨n, hf.2.1, hc⟩,
      (checkArchitecture_iff (hscan d (by simp))).2 ⟨x, hf.2.2, hd⟩,
      (checkValue_iff (hscan e (by simp))).2 ⟨v, he⟩⟩

theorem checkFields_path_iff :
    (∃ us, Canonical.path? (o :: fs) = some (o :: us) ∧ checkFields source us = .ok ()) ↔
      IsPathForm (fs.map (·.lexeme source)) := by
  constructor
  · rintro ⟨us, hpath, hok⟩
    exact isPathForm_of_checkFields hscan hpath hok
  · exact exists_checkFields_of_isPathForm hscan

end Grammar

namespace Canonical

theorem isTerminator_eq_false_of_rule? {k : Token.Kind} {f : List Token → Option (List Token)}
    (h : rule? k = some f) : k.isTerminator = false := by
  unfold rule? at h
  split at h <;> simp_all [Token.Kind.isTerminator]

theorem ne_nil_of_rule? {k : Token.Kind} {f : List Token → Option (List Token)}
    {ts us : List Token} (hf : rule? k = some f) (h : f ts = some us) : us ≠ [] := by
  have hlength : 0 < us.length := by
    unfold rule? at hf
    split at hf <;> simp at hf <;> subst hf
    · rw [length_of_comment? h]; decide
    · rw [length_of_action? h]; decide
    · rcases length_of_path? h with h | h | h <;> rw [h] <;> decide
  exact List.length_pos_iff.1 hlength

def complete {α : Type} (w : α) : List α → Option (List α)
  | [op] => some [op]
  | [op, value] => some [op, w, w, w, value]
  | [op, system, value] => some [op, system, w, w, value]
  | [op, system, arch, value] => some [op, system, w, arch, value]
  | [op, system, version, arch, value] => some [op, system, version, arch, value]
  | [op, system, comparator, version, arch, value] =>
    some [op, system, comparator, version, arch, value]
  | _ => none

theorem map_path? {α : Type} (g : Token → α) (ts : List Token) :
    (path? ts).map (·.map g) = complete (g wildcard) (ts.map g) := by
  rcases ts with _ | ⟨a, _ | ⟨b, _ | ⟨c, _ | ⟨d, _ | ⟨e, _ | ⟨f, _ | ⟨h, ts⟩⟩⟩⟩⟩⟩⟩ <;> rfl

theorem complete_words (x : Lexeme) (f : PathFields) (v : List Char) :
    complete (Lexeme.synthetic .wildcard)
        (x :: (f.words.map Lexeme.word ++ [⟨.value, some v⟩])) =
      some (x :: (f.completed ++ [⟨.value, some v⟩])) := by
  cases f <;> rfl

theorem lexemes_of_path? {source : List Char} {o : Token} {fs us : List Token} {f : PathFields}
    {v : List Char}
    (hfs : fs.map (·.lexeme source) = f.words.map Lexeme.word ++ [⟨.value, some v⟩])
    (hus : path? (o :: fs) = some us) :
    us.map (·.lexeme source) = o.lexeme source :: (f.completed ++ [⟨.value, some v⟩]) := by
  have h := map_path? (·.lexeme source) (o :: fs)
  rw [hus, List.map_cons, hfs] at h
  exact Option.some.inj (h.trans (complete_words _ f v))

theorem exists_of_path? {o : Token} {fs us : List Token} (h : path? (o :: fs) = some us) :
    ∃ vs, us = o :: vs := by
  unfold path? at h
  split at h <;> simp_all <;> exact ⟨_, h.symm⟩

end Canonical

def IsLegalForm (source : List Char) (first : Token) (ts us : List Token) : Prop :=
  ∃ f, Canonical.rule? first.kind = some f ∧ f (first :: ts) = some us ∧
    Grammar.checkTokens source us = .ok ()

namespace IsLegalForm

variable {source : List Char} {t n a : Token} {ts us : List Token}

theorem isTerminator_eq_false (h : IsLegalForm source t ts us) : t.kind.isTerminator = false := by
  obtain ⟨f, hrule, -⟩ := h
  exact Canonical.isTerminator_eq_false_of_rule? hrule

theorem length_le (h : IsLegalForm source t ts us) : us.length ≤ lineCapacity := by
  obtain ⟨f, hrule, hf, -⟩ := h
  exact Nat.le_of_lt (Canonical.length_of_rule? hrule hf)

theorem comment_iff (ht : t.kind = .commentSign) (hn : n.kind = .commentText) :
    IsLegalForm source t [n] us ↔ us = [t, n] := by
  simp only [IsLegalForm, ht, Canonical.rule?, Option.some.injEq, exists_eq_left',
    Canonical.comment?]
  constructor
  · rintro ⟨rfl, -⟩
    rfl
  · rintro rfl
    simp [Grammar.checkTokens, Grammar.checkComment, ht, hn]

theorem action_iff {name : List Char} (ht : t.kind = .actionSign)
    (hn : n.lexeme source = ⟨.actionName, some name⟩) (ha : a.kind = .actionArgument) :
    IsLegalForm source t [n, a] us ↔ us = [t, n, a] ∧ IsActionName name := by
  have hkind : n.kind = .actionName := congrArg Lexeme.kind hn
  have htext : n.text source = name := by rw [Token.text_eq, hn]; rfl
  have hcheck : Grammar.checkTokens source [t, n, a] = .ok () ↔ IsActionName name := by
    rw [← Vocabulary.isLegalActionName_iff]
    unfold Grammar.checkTokens Grammar.checkAction
    simp only [ht, hkind, ha, htext, and_self, if_true]
    split <;> simp_all
  simp only [IsLegalForm, ht, Canonical.rule?, Option.some.injEq, exists_eq_left',
    Canonical.action?]
  constructor
  · rintro ⟨rfl, hok⟩
    exact ⟨rfl, hcheck.1 hok⟩
  · rintro ⟨rfl, hname⟩
    exact ⟨rfl, hcheck.2 hname⟩

theorem path_iff {o : Operator} (ht : t.lexeme source = ⟨.operator o, some o.symbol.toList⟩) :
    IsLegalForm source t ts us ↔ Canonical.path? (t :: ts) = some us ∧
      ∃ vs, us = t :: vs ∧ Grammar.checkFields source vs = .ok () := by
  have hkind : t.kind = .operator o := congrArg Lexeme.kind ht
  simp only [IsLegalForm, hkind, Canonical.rule?, Option.some.injEq, exists_eq_left']
  constructor
  · rintro ⟨hpath, hok⟩
    obtain ⟨vs, rfl⟩ := Canonical.exists_of_path? hpath
    exact ⟨hpath, vs, rfl, (Grammar.checkTokens_of_operator ht vs).symm.trans hok⟩
  · rintro ⟨hpath, vs, rfl, hok⟩
    exact ⟨hpath, (Grammar.checkTokens_of_operator ht vs).trans hok⟩

theorem not_undefined (ht : t.kind = .undefined) : ¬IsLegalForm source t ts us := by
  rintro ⟨f, hrule, -⟩
  simp [ht, Canonical.rule?] at hrule

end IsLegalForm

end PlatformRules
