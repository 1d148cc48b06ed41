import PlatformRules.Proofs.Document.Acceptance
import PlatformRules.Proofs.Evaluation.Meaning
import PlatformRules.Proofs.Evaluation.Runs
import PlatformRules.Proofs.Text.Lines

namespace PlatformRules

open Text

namespace Pattern

variable {source : List Char} {t : Token} {p : Pattern}

theorem ofToken_of_synthetic (h : t.lexeme source = .synthetic .wildcard) :
    ofToken source t = any := by
  have hkind : t.kind = .wildcard := congrArg Lexeme.kind h
  simp [ofToken, hkind]

theorem ofToken_of_word (hp : p.Allows fun w => (Token.Kind.ofWord w).isPlaceholder = false)
    (h : t.lexeme source = .word p.spelling) : ofToken source t = p := by
  have hkind := Token.kind_of_word h
  have htext := Token.text_of_word h
  cases p with
  | any =>
    rw [show (spelling any) = Vocabulary.wildcardWord.toList from rfl,
      Token.Kind.ofWord_wildcardWord] at hkind
    simp [ofToken, hkind]
  | defined =>
    rw [show (spelling defined) = Vocabulary.definedWord.toList from rfl,
      Token.Kind.ofWord_definedWord] at hkind
    simp [ofToken, hkind]
  | word w =>
    have hnot : (Token.Kind.ofWord w).isPlaceholder = false := hp
    change t.kind = .ofWord w at hkind
    rw [← hkind] at hnot
    unfold ofToken
    split
    · next hwildcard => simp [hwildcard, Token.Kind.isPlaceholder] at hnot
    · next hdefined => simp [hdefined, Token.Kind.isPlaceholder] at hnot
    · exact congrArg word htext

theorem Allows.mono {q r : List Char → Prop} (h : ∀ w, q w → r w) (hp : p.Allows q) :
    p.Allows r := by
  cases p with
  | any => trivial
  | defined => trivial
  | word w => exact h w hp

end Pattern

namespace PathFields

variable {source value : List Char} {o : Operator} {f : PathFields} {t : Token} {ts : List Token}
  {p : Pattern}

theorem ofToken_of_system (hp : IsSystemField p) (h : t.lexeme source = .word p.spelling) :
    Pattern.ofToken source t = p := by
  apply Pattern.ofToken_of_word (hp.mono _) h
  intro w hw
  rw [Token.Kind.ofWord_of_isSystem (Vocabulary.isSystem_iff.2 hw)]
  rfl

theorem ofToken_of_architecture (hp : IsArchitectureField p)
    (h : t.lexeme source = .word p.spelling) : Pattern.ofToken source t = p := by
  apply Pattern.ofToken_of_word (hp.mono _) h
  intro w hw
  rw [Token.Kind.ofWord_of_isArchitecture (Vocabulary.isArchitecture_iff.2 hw)]
  rfl

theorem ofToken_of_version (hp : IsVersionField p) (h : t.lexeme source = .word p.spelling) :
    Pattern.ofToken source t = p := by
  apply Pattern.ofToken_of_word (hp.mono _) h
  intro w hw
  rw [Token.Kind.ofWord_of_isSome_version? (Vocabulary.isSome_version?_iff.2 hw)]
  rfl

theorem ofTokens?_of_lexemes (hf : f.IsValid)
    (h : ts.map (·.lexeme source) = (Statement.path o f value).lexemes) :
    LogicPath.ofTokens? source ts = some (f.logicPath o value) := by
  have operator {t : Token} (ht : t.lexeme source = ⟨.operator o, some o.symbol.toList⟩) :
      t.kind = .operator o := congrArg Lexeme.kind ht
  have valueText {t : Token} (ht : t.lexeme source = ⟨.value, some value⟩) :
      t.text source = value := by rw [Token.text_eq, ht]; rfl
  cases f <;> simp only [Statement.lexemes, completed, List.cons_append, List.nil_append,
    List.map_eq_cons_iff, List.map_eq_nil_iff] at h
  case none =>
    obtain ⟨t, _, rfl, ht, a, _, rfl, ha, b, _, rfl, hb, c, _, rfl, hc, d, _, rfl, hd, rfl⟩ := h
    simp only [LogicPath.ofTokens?, LogicPath.ofTokens?.build, operator ht, valueText hd,
      Pattern.ofToken_of_synthetic ha, Pattern.ofToken_of_synthetic hb,
      Pattern.ofToken_of_synthetic hc, logicPath]
  case system s =>
    obtain ⟨t, _, rfl, ht, a, _, rfl, ha, b, _, rfl, hb, c, _, rfl, hc, d, _, rfl, hd, rfl⟩ := h
    simp only [LogicPath.ofTokens?, LogicPath.ofTokens?.build, operator ht, valueText hd,
      ofToken_of_system hf ha, Pattern.ofToken_of_synthetic hb,
      Pattern.ofToken_of_synthetic hc, logicPath]
  case machine s x =>
    obtain ⟨t, _, rfl, ht, a, _, rfl, ha, b, _, rfl, hb, c, _, rfl, hc, d, _, rfl, hd, rfl⟩ := h
    simp only [LogicPath.ofTokens?, LogicPath.ofTokens?.build, operator ht, valueText hd,
      ofToken_of_system hf.1 ha, Pattern.ofToken_of_synthetic hb,
      ofToken_of_architecture hf.2 hc, logicPath]
  case release s v x =>
    obtain ⟨t, _, rfl, ht, a, _, rfl, ha, b, _, rfl, hb, c, _, rfl, hc, d, _, rfl, hd, rfl⟩ := h
    simp only [LogicPath.ofTokens?, LogicPath.ofTokens?.build, operator ht, valueText hd,
      ofToken_of_system hf.1 ha, ofToken_of_version hf.2.1 hb,
      ofToken_of_architecture hf.2.2 hc, logicPath]
  case compared s k n x =>
    obtain ⟨t, _, rfl, ht, a, _, rfl, ha, b, _, rfl, hb, c, _, rfl, hc, d, _, rfl, hd, e, _, rfl,
      he, rfl⟩ := h
    have hkind := (Token.kind_of_word hb).trans (Token.Kind.ofWord_symbol k)
    simp only [LogicPath.ofTokens?, LogicPath.ofTokens?.build, operator ht, valueText he,
      ofToken_of_system hf.1 ha, VersionTest.compare, hkind, Token.text_of_word hc,
      ofToken_of_architecture hf.2.2 hd, logicPath]

end PathFields

namespace Statement

def IsLegal : Statement → Prop
  | blank | comment _ => True
  | action name _ => IsActionName name
  | path _ f _ => f.IsValid

def effect (m : Machine) (s : RunState) : Statement → Evaluation.Effect × RunState
  | blank | comment _ => (none, s)
  | action name argument =>
    Evaluation.callAction s (String.ofList name) (String.ofList argument)
  | path o f value => (Evaluation.followPath m (f.logicPath o value), s)

theorem isLegal_of_written {st : Statement} {cs : List Char} (h : Written st cs) : st.IsLegal := by
  cases h with
  | blank => trivial
  | comment text => trivial
  | action hname hword htext => exact hname
  | path hf htext hgap => exact hf

end Statement

namespace Evaluation

variable {m : Machine} {s : RunState} {st : Statement}

theorem effect_eq_onto (m : Machine) (s : RunState) (st : Statement) :
    st.effect m s = onto s (st.effect m (fresh s.registry)) := by
  cases st with
  | blank => rfl
  | comment text => rfl
  | action name argument => exact callAction_eq_onto ..
  | path o f value => rfl

theorem dispatch_of_lexemes {v : LineView} (hst : st.IsLegal)
    (h : v.line.tokens.map (·.lexeme v.text) = st.lexemes) :
    dispatch m v s = st.effect m s := by
  have hlength : v.line.length = st.lexemes.length := by
    rw [← h, List.length_map]
    rfl
  cases st with
  | blank =>
    simp only [Statement.lexemes, Statement.scanned, List.length_nil] at hlength
    simp only [dispatch, hlength, Statement.effect]
  | comment text =>
    simp only [Statement.lexemes, Statement.scanned, List.length_cons, List.length_nil] at hlength
    simp only [dispatch, hlength, Statement.effect]
  | action name argument =>
    simp only [Statement.lexemes, Statement.scanned, List.length_cons, List.length_nil] at hlength
    simp only [Statement.lexemes, Statement.scanned, List.map_eq_cons_iff,
      List.map_eq_nil_iff] at h
    obtain ⟨t, _, htokens, ht, n, _, rfl, hn, a, _, rfl, ha, rfl⟩ := h
    have hname : v.tokenText 1 = name := by
      simp only [LineView.tokenText, Line.get?, htokens]
      rw [List.getElem?_cons_succ, List.getElem?_cons_zero]
      simp only [Token.text_eq, hn, Option.getD_some]
    have hargument : v.tokenText 2 = argument := by
      simp only [LineView.tokenText, Line.get?, htokens]
      rw [List.getElem?_cons_succ, List.getElem?_cons_succ, List.getElem?_cons_zero]
      simp only [Token.text_eq, ha, Option.getD_some]
    simp only [dispatch, hlength, hname, hargument, Statement.effect]
  | path o f value =>
    have hpath : LogicPath.ofLine? v.text v.line = some (f.logicPath o value) :=
      PathFields.ofTokens?_of_lexemes hst h
    rcases Statement.length_lexemes_path o f value with hfive | hsix
    · rw [hfive] at hlength
      simp only [dispatch, hlength, hpath, Statement.effect]
    · rw [hsix] at hlength
      simp only [dispatch, hlength, hpath, Statement.effect]

theorem showLine_of_unbound (hchain : s.chain.bound = []) (m : Machine) (v : LineView) :
    showLine m v s = dispatch m v s := by
  obtain ⟨registry, ⟨bound, next⟩, line, calls, sightings⟩ := s
  obtain rfl : bound = [] := hchain
  rfl

theorem followPath_of_denotes {m : Machine} {o : Operator} {f : PathFields} {value : List Char}
    (hf : f.IsValid) (hm : f.Denotes m) : followPath m (f.logicPath o value) = match o with
      | .returns => some (.ok (some (String.ofList value)))
      | .throws => some (.error (.raised (String.ofList value))) := by
  rw [followPath, if_pos ((PathFields.isMatch_logicPath_iff hf).2 hm)]
  cases o <;> simp only [PathFields.logicPath_operator, PathFields.logicPath_value]

theorem followPath_of_not_denotes {m : Machine} {o : Operator} {f : PathFields}
    {value : List Char} (hf : f.IsValid) (hm : ¬f.Denotes m) :
    followPath m (f.logicPath o value) = none := by
  rw [followPath, if_neg (fun h => hm ((PathFields.isMatch_logicPath_iff hf).1 h))]

theorem visit_of_written [Limits] {l : SourceLine} (hchain : s.chain.bound = [])
    (hlen : l.isBlank = false → byteLength (withoutReturn l.text) ≤ maxLineLength)
    (h : Written st (trim l.text)) :
    visit m s l = outcome (st.effect m { s with line := some l }) := by
  cases hblank : l.isBlank with
  | true =>
    obtain rfl := h.eq_blank (SourceLine.isBlank_iff_trim.1 hblank)
    exact visit_of_blank hblank
  | false =>
    obtain ⟨r, hread, hsaid⟩ := Document.exists_readLine_of_written (hlen hblank) h
    rw [visit_of_read hblank hread, showLine_of_unbound (s := { s with line := some l }) hchain,
      dispatch_of_lexemes (Statement.isLegal_of_written h) hsaid.line]

end Evaluation

end PlatformRules
