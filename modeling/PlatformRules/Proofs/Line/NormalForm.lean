import PlatformRules.Proofs.Document.Reading
import PlatformRules.Proofs.Line.Canonical
import PlatformRules.Proofs.Line.Slots

namespace PlatformRules

namespace Canonical

/-- The canonical lines. Kinds count in the first token only; the end of the line is the synthetic
one, unless the line begins with a terminator, behind which anything may stand. -/
inductive IsForm : List Token → Prop
  | ended {first : Token} {rest : List Token} (h : first.kind.isTerminator = true) :
      IsForm (first :: rest)
  | comment {sign text : Token} (h : sign.kind = .commentSign) :
      IsForm [sign, text, .synthetic .lineEnd]
  | action {sign name argument : Token} (h : sign.kind = .actionSign) :
      IsForm [sign, name, argument, .synthetic .lineEnd]
  | operator {o : Operator} {op : Token} (h : op.kind = .operator o) :
      IsForm [op, .synthetic .lineEnd]
  | path {o : Operator} {op system version arch value : Token} (h : op.kind = .operator o) :
      IsForm [op, system, version, arch, value, .synthetic .lineEnd]
  | compared {o : Operator} {op system comparator version arch value : Token}
      (h : op.kind = .operator o) :
      IsForm [op, system, comparator, version, arch, value, .synthetic .lineEnd]

variable {f : List Token → Option (List Token)} {first : Token} {ts us : List Token}

theorem IsForm.of_kinds (h : IsForm ts) (hkinds : us.map (·.kind) = ts.map (·.kind))
    (hend : ∀ e ∈ us.getLast?, e = .synthetic .lineEnd) : IsForm us := by
  cases h <;>
    simp only [List.map_cons, List.map_nil, List.map_eq_cons_iff, List.map_eq_nil_iff] at hkinds
  case ended hfirst =>
    obtain ⟨t, us, rfl, ht, -⟩ := hkinds
    exact .ended (ht ▸ hfirst)
  case comment hsign =>
    obtain ⟨t, _, rfl, ht, a, _, rfl, -, e, _, rfl, -, rfl⟩ := hkinds
    rw [hend e (by simp)]
    exact .comment (ht.trans hsign)
  case action hsign =>
    obtain ⟨t, _, rfl, ht, a, _, rfl, -, b, _, rfl, -, e, _, rfl, -, rfl⟩ := hkinds
    rw [hend e (by simp)]
    exact .action (ht.trans hsign)
  case operator hop =>
    obtain ⟨t, _, rfl, ht, e, _, rfl, -, rfl⟩ := hkinds
    rw [hend e (by simp)]
    exact .operator (ht.trans hop)
  case path hop =>
    obtain ⟨t, _, rfl, ht, a, _, rfl, -, b, _, rfl, -, c, _, rfl, -, d, _, rfl, -, e, _, rfl, -,
      rfl⟩ := hkinds
    rw [hend e (by simp)]
    exact .path (ht.trans hop)
  case compared hop =>
    obtain ⟨t, _, rfl, ht, a, _, rfl, -, b, _, rfl, -, c, _, rfl, -, d, _, rfl, -, g, _, rfl, -,
      e, _, rfl, -, rfl⟩ := hkinds
    rw [hend e (by simp)]
    exact .compared (ht.trans hop)

theorem isForm_of_rule? (hrule : rule? first.kind = some f) (hf : f ts = some us)
    (hhead : ts.head? = some first) : IsForm (us ++ [.synthetic .lineEnd]) := by
  unfold rule? at hrule
  split at hrule <;> simp at hrule <;> subst hrule
  · next hkind =>
    unfold comment? at hf
    split at hf <;> simp at hf hhead <;> subst hf hhead <;> exact .comment hkind
  · next hkind =>
    unfold action? at hf
    split at hf <;> simp at hf hhead <;> subst hf hhead <;> exact .action hkind
  · next o hkind =>
    unfold path? at hf
    split at hf <;> simp at hf hhead <;> subst hf hhead
    case h_1 => exact .operator hkind
    case h_6 => exact .compared hkind
    all_goals exact .path hkind

end Canonical

namespace Line

variable {l c : Line}

theorem isForm_of_canonical (h : l.canonical = .ok c) : Canonical.IsForm c.tokens := by
  cases isCanonicalOf_iff.1 h with
  | ended hhead hfirst heq =>
    obtain ⟨rest, htokens⟩ := List.head?_eq_some_iff.1 hhead
    rw [heq, htokens]
    exact .ended hfirst
  | completed hhead hfirst hrule hf heq =>
    rw [heq]
    exact Canonical.isForm_of_rule? hrule hf (head?_content hhead hfirst)

theorem canonical_of_isForm (h : Canonical.IsForm l.tokens) : l.canonical = .ok l := by
  have completed {k : Token.Kind} {first : Token} {f : List Token → Option (List Token)}
      (us : List Token) (hkind : first.kind = k)
      (hrule : Canonical.rule? k = some f) (hf : f (first :: us) = some (first :: us))
      (htokens : l.tokens = first :: (us ++ [.synthetic .lineEnd])) : l.canonical = .ok l := by
    subst hkind
    have hfirst := Canonical.isTerminator_eq_false_of_rule? hrule
    exact (canonical_eq_ok_iff htokens rfl hfirst).2 ⟨f, _, hrule, hf, htokens⟩
  generalize htokens : l.tokens = ts at h completed
  cases h with
  | @ended first rest hfirst =>
    have hhead : l.tokens.head? = some first := by rw [htokens, List.head?_cons]
    exact isCanonicalOf_iff.2 (.ended hhead hfirst rfl)
  | @comment sign text hkind => exact completed [text] hkind rfl rfl rfl
  | @action sign name argument hkind => exact completed [name, argument] hkind rfl rfl rfl
  | @operator o op hkind => exact completed [] hkind rfl rfl rfl
  | @path o op system version arch value hkind =>
    exact completed [system, version, arch, value] hkind rfl rfl rfl
  | @compared o op system comparator version arch value hkind =>
    exact completed [system, comparator, version, arch, value] hkind rfl rfl rfl

theorem canonical_eq_self_iff : l.canonical = .ok l ↔ Canonical.IsForm l.tokens :=
  ⟨isForm_of_canonical, canonical_of_isForm⟩

theorem isCanonical_iff : l.isCanonical = true ↔ l.canonical = .ok l := by
  unfold isCanonical
  cases l.canonical <;> simp

end Line

namespace Slots

variable {l : Line} {n : Nat} {s : Slots}

theorem ofTokens_injective {k l : Line} : ofTokens k.tokens = ofTokens l.tokens ↔ k = l := by
  constructor
  · intro h
    have htokens := congrArg tokens h
    rw [tokens_ofTokens k.length_le, tokens_ofTokens l.length_le] at htokens
    exact Line.ext htokens
  · rintro rfl
    rfl

theorem normalize_eq_ok_iff : (ofTokens l.tokens).normalize = (.ok n, s) ↔
    ∃ c, l.canonical = .ok c ∧ n = c.tokens.length ∧ s = ofTokens c.tokens := by
  rw [normalize_ofTokens l.length_le, Canonical.tokens_eq]
  cases l.canonical with
  | error e => simp [Except.map]
  | ok c => simp [Except.map, eq_comm]

theorem isCanonical_ofTokens (l : Line) : (ofTokens l.tokens).isCanonical = l.isCanonical := by
  rw [isCanonical, normalize_ofTokens l.length_le, Canonical.tokens_eq, Line.isCanonical]
  cases l.canonical with
  | error e => rfl
  | ok c =>
    rw [Bool.eq_iff_iff]
    simp only [Except.map, beq_iff_eq, ofTokens_injective]

/-- Normalizing a second time tells the same length and changes nothing, and the canonical lines are
what comes out of it: those of the six layouts, and those that begin with a terminator. -/
theorem normalize_idempotent (l : Line) :
    let s := ofTokens l.tokens
    (∀ n s', s.normalize = (.ok n, s') →
      s'.normalize = (.ok n, s') ∧ s'.taken = n ∧ Canonical.IsForm s'.tokens) ∧
    (s.isCanonical = true ↔ ∃ (k : Line) (n : Nat), (ofTokens k.tokens).normalize = (.ok n, s)) ∧
    (s.isCanonical = true ↔ Canonical.IsForm l.tokens) ∧
    s.isCanonical = l.isCanonical := by
  intro s
  have hsame : s.isCanonical = l.isCanonical := isCanonical_ofTokens l
  refine ⟨?again, ?outcome, ?form, hsame⟩
  case again =>
    intro n s' hs'
    obtain ⟨c, hc, rfl, rfl⟩ := normalize_eq_ok_iff.1 hs'
    have hform : Canonical.IsForm c.tokens := Line.isForm_of_canonical hc
    refine ⟨?_, taken_ofTokens c.tokens, ?_⟩
    · exact normalize_eq_ok_iff.2 ⟨c, Line.canonical_of_isForm hform, rfl, rfl⟩
    · rwa [tokens_ofTokens c.length_le]
  case outcome =>
    rw [hsame, Line.isCanonical_iff]
    constructor
    · intro hl
      exact ⟨l, _, normalize_eq_ok_iff.2 ⟨l, hl, rfl, rfl⟩⟩
    · rintro ⟨k, n, hk⟩
      obtain ⟨c, hc, -, hs⟩ := normalize_eq_ok_iff.1 hk
      obtain rfl : l = c := ofTokens_injective.1 hs
      exact Line.canonical_of_isForm (Line.isForm_of_canonical hc)
  case form => rw [hsame, Line.isCanonical_iff, Line.canonical_eq_self_iff]

theorem normalize_idempotent_two_ends :
    let l : Line := ⟨[⟨.commentSign, some ⟨0, 1⟩⟩, ⟨.lineEnd, some ⟨1, 2⟩⟩, .synthetic .lineEnd],
      by decide⟩
    let k : Line := ⟨[⟨.commentSign, some ⟨0, 1⟩⟩, ⟨.lineEnd, some ⟨1, 2⟩⟩, ⟨.lineEnd, some ⟨2, 3⟩⟩],
      by decide⟩
    (ofTokens k.tokens).normalize = (.ok 3, ofTokens l.tokens) ∧
      (ofTokens l.tokens).normalize = (.ok 3, ofTokens l.tokens) ∧
      (ofTokens l.tokens).isCanonical = true ∧ (ofTokens k.tokens).isCanonical = false := by
  intro l k
  have hk : (ofTokens k.tokens).normalize = (.ok 3, ofTokens l.tokens) := by decide
  refine ⟨hk, ((normalize_idempotent k).1 3 _ hk).1, ?_, by decide⟩
  exact (normalize_idempotent l).2.1.2 ⟨k, 3, hk⟩

end Slots

end PlatformRules
