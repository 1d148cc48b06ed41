import PlatformRules.Line.Canonical

namespace PlatformRules

namespace Canonical

variable {ts us : List Token} {k : Token.Kind} {f : List Token → Option (List Token)}

def IsAdded (t : Token) : Prop :=
  t.range = none ∧ t.kind ≠ .undefined

structure Completes (f : List Token → Option (List Token)) (ts us : List Token) : Prop where
  head?_eq : us.head? = ts.head?
  mem_or_isAdded : ∀ t ∈ us, t ∈ ts ∨ IsAdded t
  again : f us = some us

theorem completes_of_comment? (h : comment? ts = some us) : Completes comment? ts us := by
  unfold comment? at h
  split at h <;> simp at h <;> subst h
  all_goals exact ⟨rfl, by simp [IsAdded, Token.synthetic], rfl⟩

theorem completes_of_action? (h : action? ts = some us) : Completes action? ts us := by
  unfold action? at h
  split at h <;> simp at h <;> subst h
  all_goals exact ⟨rfl, by simp [IsAdded, Token.synthetic], rfl⟩

theorem completes_of_path? (h : path? ts = some us) : Completes path? ts us := by
  unfold path? at h
  split at h <;> simp at h <;> subst h
  all_goals exact ⟨rfl, by simp [IsAdded, wildcard, Token.synthetic], rfl⟩

theorem completes_of_rule? (hf : rule? k = some f) (h : f ts = some us) : Completes f ts us := by
  unfold rule? at hf
  split at hf <;> simp at hf <;> subst hf
  · exact completes_of_comment? h
  · exact completes_of_action? h
  · exact completes_of_path? h

end Canonical

namespace Line

variable {l c : Line} {first t : Token}

theorem mem_of_mem_content (h : t ∈ l.content) : t ∈ l.tokens := by
  unfold content at h
  split at h
  · exact List.dropLast_subset _ h
  · exact h

theorem head?_content (hhead : l.tokens.head? = some first)
    (hfirst : first.kind.isTerminator = false) : l.content.head? = some first := by
  obtain ⟨rest, htokens⟩ := List.head?_eq_some_iff.1 hhead
  unfold content
  split
  · next hends =>
    -- The last token ends the line, so that it is not the first one.
    cases rest with
    | nil =>
      have hkind : first.kind = .lineEnd := by
        simpa [endsLine, last?, htokens] using hends
      simp [hkind, Token.Kind.isTerminator] at hfirst
    | cons u rest =>
      rw [htokens]
      rfl
  · exact hhead

inductive IsCanonicalOf (c l : Line) : Prop
  | ended {first : Token} (hhead : l.tokens.head? = some first)
      (hfirst : first.kind.isTerminator = true) (heq : c = l)
  | completed {first : Token} {f : List Token → Option (List Token)} {us : List Token}
      (hhead : l.tokens.head? = some first) (hfirst : first.kind.isTerminator = false)
      (hrule : Canonical.rule? first.kind = some f) (hf : f l.content = some us)
      (heq : c.tokens = us ++ [.synthetic .lineEnd])

theorem isCanonicalOf_iff : l.canonical = .ok c ↔ c.IsCanonicalOf l := by
  constructor
  · intro h
    unfold canonical at h
    split at h
    · simp at h
    · next first hhead =>
      split at h
      · next hfirst => exact .ended hhead hfirst (Except.ok.inj h).symm
      · next hfirst =>
        split at h
        · simp at h
        · next f hrule =>
          split at h
          · simp at h
          · next us hf =>
            obtain rfl := Except.ok.inj h
            exact .completed hhead (by simpa using hfirst) hrule hf rfl
  · intro h
    cases h with
    | ended hhead hfirst heq =>
      unfold canonical
      split
      · next hnone => simp [hhead] at hnone
      · next first hsome =>
        obtain rfl := Option.some.inj (hhead.symm.trans hsome)
        rw [if_pos hfirst, heq]
    | completed hhead hfirst hrule hf heq =>
      unfold canonical
      split
      · next hnone => simp [hhead] at hnone
      · next first hsome =>
        obtain rfl := Option.some.inj (hhead.symm.trans hsome)
        rw [if_neg (by simp [hfirst])]
        split
        · next hnone => simp [hrule] at hnone
        · next f' hrule' =>
          obtain rfl := Option.some.inj (hrule.symm.trans hrule')
          split
          · next hnone => simp [hf] at hnone
          · next us' hf' =>
            obtain rfl := Option.some.inj (hf.symm.trans hf')
            exact congrArg Except.ok (Line.ext heq.symm)

theorem canonical_eq_emptyLine_iff : l.canonical = .error .emptyLine ↔ l.tokens = [] := by
  unfold canonical
  split
  · next hhead => simpa using hhead
  · next first hhead =>
    have hne : l.tokens ≠ [] := by
      rintro hnil
      simp [hnil] at hhead
    refine iff_of_false ?_ hne
    split
    · simp
    · split
      · simp
      · split <;> simp

theorem mem_canonical (h : l.canonical = .ok c) :
    ∀ t ∈ c.tokens, t ∈ l.tokens ∨ Canonical.IsAdded t := by
  intro t ht
  cases isCanonicalOf_iff.1 h with
  | ended hhead hfirst heq => exact .inl (heq ▸ ht)
  | completed hhead hfirst hrule hf heq =>
    rw [heq] at ht
    rcases List.mem_append.1 ht with ht | ht
    · have hus := Canonical.completes_of_rule? hrule hf
      exact (hus.mem_or_isAdded t ht).imp_left mem_of_mem_content
    · obtain rfl := List.mem_singleton.1 ht
      exact .inr ⟨rfl, by simp [Token.synthetic]⟩

theorem canonical_canonical (h : l.canonical = .ok c) : c.canonical = .ok c := by
  rw [isCanonicalOf_iff] at h ⊢
  cases h with
  | ended hhead hfirst heq => exact .ended (heq ▸ hhead) hfirst rfl
  | @completed first f us hhead hfirst hrule hf heq =>
    have hus := Canonical.completes_of_rule? hrule hf
    have hends : c.endsLine = true := by
      rw [endsLine, last?, heq, List.getLast?_concat]
      rfl
    have hcontent : c.content = us := by
      rw [content, if_pos hends, heq, List.dropLast_concat]
    refine .completed ?_ hfirst hrule (hcontent.symm ▸ hus.again) heq
    rw [heq, List.head?_append, hus.head?_eq, head?_content hhead hfirst]
    rfl

end Line

end PlatformRules
