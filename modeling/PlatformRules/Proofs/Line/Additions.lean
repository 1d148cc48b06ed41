import PlatformRules.Proofs.Line.NormalForm

namespace PlatformRules

namespace Token

def unplaced (t : Token) : Token :=
  .synthetic t.kind

theorem map_unplaced_eq_iff {ts us : List Token} :
    ts.map unplaced = us.map unplaced ↔ ts.map (·.kind) = us.map (·.kind) := by
  have hkinds (ts : List Token) : (ts.map unplaced).map (·.kind) = ts.map (·.kind) := by
    rw [List.map_map]
    rfl
  have hunplaced (ts : List Token) : (ts.map (·.kind)).map synthetic = ts.map unplaced := by
    rw [List.map_map]
    rfl
  constructor
  · intro h
    rw [← hkinds ts, h, hkinds]
  · intro h
    rw [← hunplaced ts, h, hunplaced]

end Token

namespace Canonical

/-- The tokens `added` complete the content `front ++ back` of a line, between its two parts. A
comment sign gets a text and an action an argument, if there is none. A path gets a wildcard for
each of its three fields that is left out; they stand behind the system, if one is given, and in
front of the other fields and the value. -/
inductive Addition : (front added back : List Token) → Prop
  | comment {sign : Token} (h : sign.kind = .commentSign) :
      Addition [sign] [.synthetic .commentText] []
  | wholeComment {sign text : Token} (h : sign.kind = .commentSign) : Addition [sign, text] [] []
  | action {sign name : Token} (h : sign.kind = .actionSign) :
      Addition [sign, name] [.synthetic .actionArgument] []
  | wholeAction {sign name argument : Token} (h : sign.kind = .actionSign) :
      Addition [sign, name, argument] [] []
  | operator {o : Operator} {op : Token} (h : op.kind = .operator o) : Addition [op] [] []
  | path {o : Operator} {op value : Token} {fields : List Token} (h : op.kind = .operator o)
      (hfields : fields.length ≤ 4) :
      Addition (op :: fields.take 1) (List.replicate (3 - fields.length) wildcard)
        (fields.drop 1 ++ [value])

variable {front added back ts us : List Token} {first : Token} {k : Token.Kind}
  {f : List Token → Option (List Token)}

theorem Addition.isSynthetic (h : Addition front added back) :
    ∀ t ∈ added, t.isSynthetic = true := by
  cases h with
  | comment | action => simp [Token.synthetic, Token.isSynthetic]
  | wholeComment | wholeAction | operator => simp
  | path => simp [wildcard, Token.synthetic, Token.isSynthetic]

theorem Addition.getLast?_eq (h : Addition front added back)
    (hhead : (front ++ back).head? = some first) (hfirst : first.kind.isOperator = true) :
    (front ++ added ++ back).getLast? = (front ++ back).getLast? := by
  cases h with
  | comment hsign | action hsign =>
    obtain rfl := Option.some.inj hhead
    simp [hsign, Token.Kind.isOperator] at hfirst
  | wholeComment | wholeAction | operator => rw [List.append_nil]
  | path =>
    rw [← List.append_assoc, ← List.append_assoc, List.getLast?_concat, List.getLast?_concat]

def CompletedTo (ts us : List Token) : Prop :=
  ∃ front added back, Addition front added back ∧ ts = front ++ back ∧ us = front ++ added ++ back

theorem completedTo_of_comment? (hhead : ts.head? = some first) (hfirst : first.kind = .commentSign)
    (h : comment? ts = some us) : CompletedTo ts us := by
  unfold comment? at h
  split at h <;> simp at h hhead <;> subst h hhead
  · exact ⟨_, _, _, .comment hfirst, rfl, rfl⟩
  · exact ⟨_, _, _, .wholeComment hfirst, rfl, rfl⟩

theorem completedTo_of_action? (hhead : ts.head? = some first) (hfirst : first.kind = .actionSign)
    (h : action? ts = some us) : CompletedTo ts us := by
  unfold action? at h
  split at h <;> simp at h hhead <;> subst h hhead
  · exact ⟨_, _, _, .action hfirst, rfl, rfl⟩
  · exact ⟨_, _, _, .wholeAction hfirst, rfl, rfl⟩

theorem completedTo_of_path? {o : Operator} (hhead : ts.head? = some first)
    (hfirst : first.kind = .operator o) (h : path? ts = some us) : CompletedTo ts us := by
  have path (fields : List Token) (value : Token) (hfields : fields.length ≤ 4) :
      Addition (first :: fields.take 1) (List.replicate (3 - fields.length) wildcard)
        (fields.drop 1 ++ [value]) :=
    .path hfirst hfields
  unfold path? at h
  split at h <;> simp at h hhead <;> subst h hhead
  · exact ⟨_, _, _, .operator hfirst, rfl, rfl⟩
  · exact ⟨_, _, _, path [] _ (by simp), rfl, rfl⟩
  · exact ⟨_, _, _, path [_] _ (by simp), rfl, rfl⟩
  · exact ⟨_, _, _, path [_, _] _ (by simp), rfl, rfl⟩
  · exact ⟨_, _, _, path [_, _, _] _ (by simp), rfl, rfl⟩
  · exact ⟨_, _, _, path [_, _, _, _] _ (by simp), rfl, rfl⟩

theorem completedTo_of_rule? (hhead : ts.head? = some first) (hrule : rule? first.kind = some f)
    (h : f ts = some us) : CompletedTo ts us := by
  unfold rule? at hrule
  split at hrule <;> simp at hrule <;> subst hrule
  · next hkind => exact completedTo_of_comment? hhead hkind h
  · next hkind => exact completedTo_of_action? hhead hkind h
  · next hkind => exact completedTo_of_path? hhead hkind h

theorem CompletedTo.exists_rule? (h : CompletedTo ts us) :
    ∃ first f, ts.head? = some first ∧ rule? first.kind = some f ∧ f ts = some us := by
  obtain ⟨front, added, back, hadd, rfl, rfl⟩ := h
  cases hadd with
  | comment hsign | wholeComment hsign => exact ⟨_, comment?, rfl, by rw [hsign]; rfl, rfl⟩
  | action hsign | wholeAction hsign => exact ⟨_, action?, rfl, by rw [hsign]; rfl, rfl⟩
  | operator hop => exact ⟨_, path?, rfl, by rw [hop]; rfl, rfl⟩
  | @path o op value fields hop hfields =>
    refine ⟨op, path?, rfl, by rw [hop]; rfl, ?_⟩
    rcases fields with _ | ⟨a, _ | ⟨b, _ | ⟨c, _ | ⟨d, _ | ⟨e, fields⟩⟩⟩⟩⟩
    case cons.cons.cons.cons.cons =>
      simp only [List.length_cons] at hfields
      omega
    all_goals rfl

theorem CompletedTo.length_lt (h : CompletedTo ts us) : us.length < lineCapacity := by
  obtain ⟨first, f, -, hrule, hf⟩ := h.exists_rule?
  exact length_of_rule? hrule hf

/-! Places in the text do not count -/

theorem rule?_map_unplaced (hrule : rule? k = some f) (ts : List Token) :
    f (ts.map Token.unplaced) = (f ts).map (List.map Token.unplaced) := by
  unfold rule? at hrule
  split at hrule <;> simp at hrule <;> subst hrule
  · unfold comment?
    rcases ts with _ | ⟨a, _ | ⟨b, _ | ⟨c, ts⟩⟩⟩ <;> rfl
  · unfold action?
    rcases ts with _ | ⟨a, _ | ⟨b, _ | ⟨c, _ | ⟨d, ts⟩⟩⟩⟩ <;> rfl
  · unfold path?
    rcases ts with _ | ⟨a, _ | ⟨b, _ | ⟨c, _ | ⟨d, _ | ⟨e, _ | ⟨g, _ | ⟨i, ts⟩⟩⟩⟩⟩⟩⟩ <;> rfl

theorem withoutEnd_map_unplaced (ts : List Token) :
    withoutEnd (ts.map Token.unplaced) = (withoutEnd ts).map Token.unplaced := by
  unfold withoutEnd
  rw [List.getLast?_map, ← List.map_dropLast, apply_ite (List.map Token.unplaced)]
  cases ts.getLast? <;> rfl

theorem tokens_map_unplaced (ts : List Token) :
    tokens (ts.map Token.unplaced) = (tokens ts).map (List.map Token.unplaced) := by
  unfold tokens
  rw [List.head?_map, withoutEnd_map_unplaced, List.length_map]
  cases ts.head? with
  | none => rfl
  | some first =>
    have hkind : first.unplaced.kind = first.kind := rfl
    simp only [Option.map_some]
    by_cases hfirst : first.kind.isTerminator = true
    · rw [if_pos (hkind ▸ hfirst), if_pos hfirst]
      rfl
    · rw [if_neg (hkind ▸ hfirst), if_neg hfirst, hkind]
      cases hrule : rule? first.kind with
      | none => rfl
      | some f =>
        simp only [rule?_map_unplaced hrule]
        cases f (withoutEnd ts) with
        | none => rfl
        | some us => simp [Except.map, Token.unplaced, Token.synthetic]

end Canonical

namespace Slots

open Canonical

variable {l : Line} {n : Nat} {s : Slots} {first : Token}

theorem withoutEnd_ofTokens (l : Line) :
    (if (ofTokens l.tokens).endsLine then (ofTokens l.tokens).pop.2 else ofTokens l.tokens) =
      ofTokens l.content := by
  rw [endsLine_ofTokens l.length_le, pop_ofTokens l.length_le, ← apply_ite ofTokens]
  rfl

theorem exists_push?_of_rule? {k : Token.Kind} {rule : Slots → Option Slots}
    (hrule : rule? k = some rule) (ts : List Token) (h : rule (ofTokens ts) = some s) (t : Token) :
    ∃ s', s.push? t = some s' := by
  have hcanonical := rule?_eq k
  cases hf : Canonical.rule? k with
  | none => simp [hf, hrule] at hcanonical
  | some f =>
    rw [hf] at hcanonical
    obtain ⟨g, hg, hcomplete⟩ := hcanonical
    obtain rfl := Option.some.inj (hrule.symm.trans hg)
    rw [hcomplete] at h
    obtain ⟨us, hus, rfl⟩ := Option.map_eq_some_iff.1 h
    exact ⟨_, push?_of_lt (length_of_rule? hf hus) t⟩

theorem normalize_eq_ok_iff_completedTo (hhead : l.tokens.head? = some first)
    (hfirst : first.kind.isTerminator = false) :
    (ofTokens l.tokens).normalize = (.ok n, s) ↔ ∃ us, CompletedTo l.content us ∧
      n = us.length + 1 ∧ s = ofTokens (us ++ [.synthetic .lineEnd]) := by
  have hcontent := Line.head?_content hhead hfirst
  rw [normalize_eq_ok_iff]
  constructor
  · rintro ⟨c, hc, rfl, rfl⟩
    cases Line.isCanonicalOf_iff.1 hc with
    | ended hhead' hended =>
      obtain rfl := Option.some.inj (hhead.symm.trans hhead')
      simp [hended] at hfirst
    | @completed first' f us hhead' hfirst' hrule hf heq =>
      obtain rfl := Option.some.inj (hhead.symm.trans hhead')
      exact ⟨us, completedTo_of_rule? hcontent hrule hf, by simp [heq], by rw [heq]⟩
  · rintro ⟨us, hus, rfl, rfl⟩
    obtain ⟨first', f, hhead', hrule, hf⟩ := hus.exists_rule?
    obtain rfl := Option.some.inj (hcontent.symm.trans hhead')
    have hlength : (us ++ [Token.synthetic .lineEnd]).length ≤ lineCapacity := by
      rw [List.length_append]
      exact length_of_rule? hrule hf
    refine ⟨⟨_, hlength⟩, ?_, by simp, rfl⟩
    exact Line.isCanonicalOf_iff.2 (.completed hhead hfirst hrule hf rfl)

theorem empty_of_normalize {e : ShapeError} (h : (ofTokens l.tokens).normalize = (.error e, s)) :
    s = empty := by
  rw [normalize_ofTokens l.length_le] at h
  split at h
  · simp at h
  · exact (congrArg Prod.snd h).symm

theorem normalize_of_kinds {k : Line} (h : k.tokens.map (·.kind) = l.tokens.map (·.kind)) :
    (ofTokens k.tokens).normalize.1 = (ofTokens l.tokens).normalize.1 ∧
      (ofTokens k.tokens).normalize.2.tokens.map (·.kind) =
        (ofTokens l.tokens).normalize.2.tokens.map (·.kind) := by
  have hsame : (Canonical.tokens k.tokens).map (List.map Token.unplaced) =
      (Canonical.tokens l.tokens).map (List.map Token.unplaced) := by
    rw [← tokens_map_unplaced, Token.map_unplaced_eq_iff.2 h, tokens_map_unplaced]
  have hbound (l : Line) {us : List Token} (hus : Canonical.tokens l.tokens = .ok us) :
      us.length ≤ lineCapacity := length_le_of_tokens hus l.length_le
  rw [normalize_ofTokens k.length_le, normalize_ofTokens l.length_le]
  cases hk : Canonical.tokens k.tokens with
  | error e =>
    cases hl : Canonical.tokens l.tokens with
    | error e' =>
      rw [hk, hl] at hsame
      exact ⟨congrArg Except.error (Except.error.inj hsame), rfl⟩
    | ok vs => simp [hk, hl, Except.map] at hsame
  | ok us =>
    cases hl : Canonical.tokens l.tokens with
    | error e' => simp [hk, hl, Except.map] at hsame
    | ok vs =>
      rw [hk, hl] at hsame
      have hkinds := Token.map_unplaced_eq_iff.1 (Except.ok.inj hsame)
      have hlength := congrArg List.length hkinds
      rw [List.length_map, List.length_map] at hlength
      simp only [tokens_ofTokens (hbound k hk), tokens_ofTokens (hbound l hl), hlength, hkinds,
        and_self]

/-- What normalizing does to a line that begins with no terminator: the line ends in a synthetic
end, and in front of that is its content, parted at one place at most by the synthetic tokens that
are added. There is room for the end behind whatever a rule gives. A line that has no canonical form
is cleared, and all that comes out is told by the kinds of the tokens. -/
theorem normalize_adds (l : Line) :
    let s := ofTokens l.tokens
    (∀ first n s', l.tokens.head? = some first → first.kind.isTerminator = false →
      s.normalize = (.ok n, s') → ∃ front added back, Addition front added back ∧
        l.content = front ++ back ∧ (∀ t ∈ added, t.isSynthetic = true) ∧
        (first.kind.isOperator = true →
          (front ++ added ++ back).getLast? = l.content.getLast?) ∧
        s'.tokens = front ++ added ++ back ++ [.synthetic .lineEnd] ∧
        s'.taken = n ∧ n = s'.tokens.length ∧ n ≤ lineCapacity) ∧
    (∀ k rule s', rule? k = some rule → rule (if s.endsLine then s.pop.2 else s) = some s' →
      ∃ s'', s'.push? (.synthetic .lineEnd) = some s'') ∧
    (∀ e s', s.normalize = (.error e, s') → s' = empty) ∧
    ∀ k : Line, k.tokens.map (·.kind) = l.tokens.map (·.kind) →
      (ofTokens k.tokens).normalize.1 = s.normalize.1 ∧
        (ofTokens k.tokens).normalize.2.tokens.map (·.kind) =
          s.normalize.2.tokens.map (·.kind) := by
  intro s
  refine ⟨?added, ?room, fun e s' => empty_of_normalize, fun k => normalize_of_kinds⟩
  case added =>
    intro first n s' hhead hfirst hs'
    obtain ⟨us, hus, rfl, rfl⟩ := (normalize_eq_ok_iff_completedTo hhead hfirst).1 hs'
    have hroom : us.length + 1 ≤ lineCapacity := hus.length_lt
    have hlength : (us ++ [Token.synthetic .lineEnd]).length = us.length + 1 := by simp
    have htokens := tokens_ofTokens (hlength ▸ hroom)
    obtain ⟨front, added, back, hadd, hcontent, rfl⟩ := hus
    have hhead' : (front ++ back).head? = some first := by
      rw [← hcontent, Line.head?_content hhead hfirst]
    refine ⟨front, added, back, hadd, hcontent, hadd.isSynthetic, ?_, htokens, hlength, ?_, hroom⟩
    · rw [hcontent]
      exact hadd.getLast?_eq hhead'
    · rw [htokens, hlength]
  case room =>
    intro k rule s' hrule hs'
    rw [withoutEnd_ofTokens] at hs'
    exact exists_push?_of_rule? hrule _ hs' _

theorem normalize_adds_wildcard :
    let op : Token := ⟨.operator .returns, some ⟨0, 2⟩⟩
    let system : Token := ⟨.system, some ⟨3, 8⟩⟩
    let arch : Token := ⟨.architecture, some ⟨9, 12⟩⟩
    let value : Token := ⟨.value, some ⟨14, 15⟩⟩
    let l : Line := ⟨[op, system, arch, value, ⟨.lineEnd, some ⟨16, 17⟩⟩], by decide⟩
    ∃ s', (ofTokens l.tokens).normalize = (.ok 6, s') ∧ s'.taken = 6 ∧
      s'.tokens = [op, system, Canonical.wildcard, arch, value, .synthetic .lineEnd] := by
  intro op system arch value l
  have hnormal : (ofTokens l.tokens).normalize =
      (.ok 6, ofTokens [op, system, Canonical.wildcard, arch, value, .synthetic .lineEnd]) := by
    decide
  obtain ⟨front, added, back, -, -, -, -, -, htaken, -⟩ :=
    (normalize_adds l).1 op 6 _ rfl rfl hnormal
  exact ⟨_, hnormal, htaken, by decide⟩

end Slots

end PlatformRules
