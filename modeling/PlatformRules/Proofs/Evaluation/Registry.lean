import Mathlib.Data.String.Basic
import PlatformRules.Evaluation.Action
import PlatformRules.Proofs.Line.Judgement

namespace PlatformRules.Registry

variable {name other : String} {c d : Callback} {r r' : Registry}
  {entries : List (String × Callback)}

theorem lookup_cons {β : Type} {n : String} {d : β} {entries : List (String × β)} :
    ((n, d) :: entries).lookup other = if other = n then some d else entries.lookup other := by
  by_cases h : other = n
  · simp [h]
  · simp [List.lookup_cons, beq_eq_false_iff_ne.2 h, h]

theorem lookup_insertEntry : (insertEntry name c entries).lookup other =
    if other = name then some c else entries.lookup other := by
  induction entries with
  | nil => exact lookup_cons
  | cons e rest ih =>
    obtain ⟨n, d⟩ := e
    unfold insertEntry
    split
    · exact lookup_cons
    · split
      · next h =>
        subst h
        rw [lookup_cons, lookup_cons]
        split <;> rfl
      · next h =>
        rw [lookup_cons, lookup_cons, ih]
        by_cases ho : other = n
        · rw [if_pos ho, if_pos ho, if_neg (fun hname => h (hname.symm.trans ho))]
        · rw [if_neg ho, if_neg ho]

theorem get?_insert : (r.insert name c).get? other =
    if other = name then some c else r.get? other :=
  lookup_insertEntry

def Ordered (r : Registry) : Prop :=
  r.names.Pairwise (· < ·)

theorem mem_of_mem_insertEntry {n : String}
    (h : n ∈ (insertEntry name c entries).map (·.1)) : n = name ∨ n ∈ entries.map (·.1) := by
  induction entries with
  | nil => simpa [insertEntry] using h
  | cons e rest ih =>
    obtain ⟨k, d⟩ := e
    unfold insertEntry at h
    split at h
    · simpa using h
    · split at h
      · next hk => simpa [hk] using h
      · rcases List.mem_cons.1 h with rfl | h
        · simp
        · rcases ih h with rfl | h
          · exact .inl rfl
          · exact .inr (List.mem_cons_of_mem _ h)

theorem pairwise_insertEntry (h : (entries.map (·.1)).Pairwise (· < ·)) :
    ((insertEntry name c entries).map (·.1)).Pairwise (· < ·) := by
  induction entries with
  | nil => simp [insertEntry]
  | cons e rest ih =>
    obtain ⟨n, d⟩ := e
    obtain ⟨hn, hrest⟩ := List.pairwise_cons.1 h
    unfold insertEntry
    split
    · next hlt =>
      refine List.pairwise_cons.2 ⟨?_, h⟩
      intro k hk
      rcases List.mem_cons.1 hk with rfl | hk
      · exact hlt
      · exact hlt.trans (hn k hk)
    · next hlt =>
      split
      · next heq => exact heq ▸ h
      · next hne =>
        refine List.pairwise_cons.2 ⟨?_, ih hrest⟩
        intro k hk
        rcases mem_of_mem_insertEntry hk with rfl | hk
        · exact lt_of_le_of_ne (not_lt.1 hlt) (Ne.symm hne)
        · exact hn k hk

theorem Ordered.insert (h : r.Ordered) (name : String) (c : Callback) : (r.insert name c).Ordered :=
  pairwise_insertEntry h

theorem Ordered.erase (h : r.Ordered) (name : String) : (r.erase name).Ordered :=
  List.Pairwise.sublist (List.filter_sublist.map _) h

theorem names_insertEntry (h : (entries.map (·.1)).Pairwise (· < ·))
    (hget : entries.lookup name = some d) :
    (insertEntry name c entries).map (·.1) = entries.map (·.1) := by
  induction entries with
  | nil => simp at hget
  | cons e rest ih =>
    obtain ⟨n, d'⟩ := e
    obtain ⟨hn, hrest⟩ := List.pairwise_cons.1 h
    unfold insertEntry
    by_cases heq : name = n
    · subst heq
      simp
    · rw [lookup_cons, if_neg heq] at hget
      have hmem : name ∈ rest.map (·.1) := by
        obtain ⟨l₁, l₂, rfl, -⟩ := List.lookup_eq_some_iff.1 hget
        simp
      rw [if_neg (lt_asymm (hn name hmem)), if_neg heq]
      exact congrArg (n :: ·) (ih hrest hget)

theorem names_insert (h : r.Ordered) (hget : r.get? name = some d) :
    (r.insert name c).names = r.names :=
  names_insertEntry h hget

variable [Limits]

theorem register_eq_ok_iff : r.register name c = .ok r' ↔
    (Vocabulary.isBuiltIn name.toList = false ∧ IsActionName name.toList ∧
      (r.contains name = true ∨ r.size < maxActions)) ∧ r' = r.insert name c := by
  have hroom : (!r.contains name && decide (r.size ≥ maxActions)) = true ↔
      ¬(r.contains name = true ∨ r.size < maxActions) := by
    simp
  unfold register
  cases hbuiltIn : Vocabulary.isBuiltIn name.toList with
  | true => simp
  | false =>
    rw [← Vocabulary.isActionName_iff, if_neg Bool.false_ne_true]
    cases hname : Vocabulary.isActionName name.toList with
    | false => simp
    | true =>
      rw [Bool.not_true, if_neg Bool.false_ne_true]
      by_cases hfree : r.contains name = true ∨ r.size < maxActions
      · rw [if_neg (fun h => hroom.1 h hfree), Except.ok.injEq]
        exact ⟨fun h => ⟨⟨rfl, rfl, hfree⟩, h.symm⟩, fun h => h.2.symm⟩
      · rw [if_pos (hroom.2 hfree)]
        exact iff_of_false (by simp) fun h => hfree h.1.2.2

def IsRegistrable (name : String) : Prop :=
  ∃ r c r', register r name c = .ok r'

theorem isRegistrable_iff : IsRegistrable name ↔
    Vocabulary.isBuiltIn name.toList = false ∧ IsActionName name.toList := by
  constructor
  · rintro ⟨r, c, r', h⟩
    exact ⟨(register_eq_ok_iff.1 h).1.1, (register_eq_ok_iff.1 h).1.2.1⟩
  · rintro ⟨hbuiltIn, hname⟩
    -- whatever the limit is, a name that is taken can be registered again
    let c : Callback := ⟨fun _ => .reply .proceed, []⟩
    have htaken : (⟨[(name, c)]⟩ : Registry).contains name = true := by
      rw [contains, get?, List.lookup_cons_self]
      rfl
    exact ⟨⟨[(name, c)]⟩, c, _, register_eq_ok_iff.2 ⟨⟨hbuiltIn, hname, .inl htaken⟩, rfl⟩⟩

theorem Ordered.register (h : r.Ordered) (hr : r.register name c = .ok r') : r'.Ordered := by
  rw [(register_eq_ok_iff.1 hr).2]
  exact h.insert name c

end PlatformRules.Registry
