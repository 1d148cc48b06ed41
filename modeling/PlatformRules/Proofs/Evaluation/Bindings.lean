import Mathlib.Data.Finmap
import PlatformRules.Proofs.Evaluation.Sessions

namespace PlatformRules

abbrev Bindings := Finmap fun _ : String => Callback

instance (name : List Char) : Decidable (IsActionName name) :=
  inferInstanceAs (Decidable (_ ∧ _))

namespace Bindings

variable [Limits] {b : Bindings} {name : String}

def refusal? (b : Bindings) (name : String) : Option RegistrationError :=
  if name ∈ Vocabulary.builtInActions then some (.reservedName name)
  else if ¬IsActionName name.toList then some (.invalidName name)
  else if name ∉ b ∧ maxActions ≤ b.keys.card then some .registryFull
  else none

def hear (b : Bindings) (call : Call) : Bindings :=
  match b.lookup call.name with
  | none => b
  | some c => b.insert call.name (c.call call.argument).2

def deliver (b : Bindings) (call : Call) : Bindings :=
  match b.lookup call.name with
  | none => b
  | some c => if (c.call call.argument).1 = .reply .reset then ∅ else b.hear call

omit [Limits] in
theorem keys_insert (b : Bindings) (name : String) (c : Callback) :
    (b.insert name c).keys = insert name b.keys := by
  ext other
  simp only [Finmap.mem_keys, Finmap.mem_insert, Finset.mem_insert]

theorem refusal?_eq_none_iff : b.refusal? name = none ↔ name ∉ Vocabulary.builtInActions ∧
    IsActionName name.toList ∧ (name ∈ b ∨ b.keys.card < maxActions) := by
  unfold refusal?
  split_ifs with hbuiltIn hname hfull
  · simp [hbuiltIn]
  · refine iff_of_false (by simp) ?_
    rintro ⟨-, -, hmem | hroom⟩
    · exact hfull.1 hmem
    · exact Nat.not_lt.2 hfull.2 hroom
  · refine iff_of_true rfl ⟨hbuiltIn, hname, ?_⟩
    rwa [not_and_or, not_not, Nat.not_le] at hfull
  · simp [hname]

end Bindings

def Registry.deliver (r : Registry) (call : Call) : Registry :=
  match r.get? call.name with
  | none => r
  | some c => (c.call call.argument).1.leaves (r.insert call.name (c.call call.argument).2)

namespace Evaluator

open Evaluation

theorem registry_eq_foldl [Limits] (e : Evaluator) (m : Machine) :
    (e.evaluate m).2.registry = (e.evaluate m).1.calls.foldl Registry.deliver e.registry := by
  by_cases hsize : e.document.utf8ByteSize ≤ maxDocumentSize
  · rw [evaluate_of_size hsize, run_eq]
    apply ending_induction (s := e.start)
      (P := fun s => s.registry = s.calls.reverse.foldl Registry.deliver e.registry) _ rfl
    intro s l hs
    rcases registry_left m s l with ⟨hregistry, hcalls⟩ | ⟨call, c, hget, hcalls, hregistry⟩
    · rw [hregistry, hcalls, hs]
    · rw [hregistry, hcalls, List.reverse_cons, List.foldl_append, ← hs, List.foldl_cons,
        List.foldl_nil, Registry.deliver, hget]
  · rw [evaluate_of_large hsize]
    rfl

end Evaluator

namespace Registry

variable {r : Registry} {b : Bindings} {name other : String} {c : Callback}

theorem mem_names_iff : name ∈ r.names ↔ (r.get? name).isSome := by
  obtain ⟨entries⟩ := r
  simp only [names, get?]
  induction entries with
  | nil => simp
  | cons e rest ih =>
    obtain ⟨n, d⟩ := e
    rw [lookup_cons, List.map_cons, List.mem_cons, ih]
    by_cases h : name = n <;> simp [h]

theorem get?_erase : (r.erase name).get? other = if other = name then none else r.get? other := by
  obtain ⟨entries⟩ := r
  simp only [erase, get?]
  induction entries with
  | nil => simp
  | cons e rest ih =>
    obtain ⟨n, d⟩ := e
    by_cases hn : n = name
    · rw [List.filter_cons_of_neg (by simp [hn]), ih, lookup_cons, hn]
      split <;> rfl
    · rw [List.filter_cons_of_pos (by simp [hn]), lookup_cons, lookup_cons, ih]
      by_cases ho : other = n
      · rw [if_pos ho, if_pos ho, if_neg (ho ▸ hn)]
      · rw [if_neg ho, if_neg ho]

theorem erase_of_not_mem (h : name ∉ r.names) : r.erase name = r := by
  obtain ⟨entries⟩ := r
  refine congrArg mk (List.filter_eq_self.2 ?_)
  intro e he
  have hne : e.1 ≠ name := fun heq => h (heq ▸ List.mem_map_of_mem he)
  simpa using hne

theorem isBuiltIn_iff_mem :
    Vocabulary.isBuiltIn name.toList = true ↔ name ∈ Vocabulary.builtInActions := by
  simp [Vocabulary.isBuiltIn, String.toList_inj]

theorem invoke?_of_none (h : r.get? name = none) {argument : String} :
    r.invoke? name argument = none := by
  rw [invoke?, h]
  rfl

theorem invoke?_of_get? (h : r.get? name = some c) (argument : String) :
    r.invoke? name argument =
      some ((c.call argument).1, r.insert name (c.call argument).2) := by
  rw [invoke?, h]
  rfl

/-- What can be done to a registry. An evaluation is given by an evaluator, whose own registry does
not count. -/
inductive Operation where
  | register (name : String) (c : Callback)
  | unregister (name : String)
  | invoke (name argument : String)
  | clear
  | evaluate (e : Evaluator) (m : Machine)

namespace Operation

variable [Limits]

def report (r : Registry) (e : Evaluator) (m : Machine) : Report × Evaluator :=
  { e with registry := r }.evaluate m

def apply (r : Registry) : Operation → Registry
  | register name c => match r.register name c with
    | .ok r' => r'
    | .error _ => r
  | unregister name => r.erase name
  | invoke name argument => match r.invoke? name argument with
    | some (_, r') => r'
    | none => r
  | clear => {}
  | evaluate e m => (report r e m).2.registry

def track (r : Registry) (b : Bindings) : Operation → Bindings
  | register name c => match b.refusal? name with
    | some _ => b
    | none => b.insert name c
  | unregister name => b.erase name
  | invoke name argument => b.hear ⟨name, argument⟩
  | clear => ∅
  | evaluate e m => (report r e m).1.calls.foldl Bindings.deliver b

def step (s : Registry × Bindings) (o : Operation) : Registry × Bindings :=
  (o.apply s.1, o.track s.1 s.2)

end Operation

section

variable [Limits]

def after (ops : List Operation) : Registry × Bindings :=
  ops.foldl Operation.step ({}, ∅)

structure Represents (r : Registry) (b : Bindings) : Prop where
  get?_eq (name : String) : r.get? name = b.lookup name
  ordered : r.Ordered
  legal : ∀ name ∈ b, name ∉ Vocabulary.builtInActions ∧ IsActionName name.toList
  card_le : b.keys.card ≤ maxActions

end

namespace Represents

variable [Limits]

theorem empty : Represents {} ∅ where
  get?_eq _ := rfl
  ordered := .nil
  legal name h := absurd h Finmap.notMem_empty
  card_le := by simp [Finmap.keys_empty]

theorem mem_names_iff (h : r.Represents b) : name ∈ r.names ↔ name ∈ b := by
  rw [Registry.mem_names_iff, h.get?_eq, Finmap.lookup_isSome]

theorem toFinset_names (h : r.Represents b) : r.names.toFinset = b.keys := by
  ext name
  rw [List.mem_toFinset, h.mem_names_iff, Finmap.mem_keys]

theorem size_eq (h : r.Represents b) : r.size = b.keys.card := by
  have hnodup : r.names.Nodup := h.ordered.imp ne_of_lt
  rw [← h.toFinset_names, List.toFinset_card_of_nodup hnodup, names, List.length_map, size]

theorem contains_iff (h : r.Represents b) : r.contains name = true ↔ name ∈ b := by
  rw [contains, ← Registry.mem_names_iff, h.mem_names_iff]

theorem insert (h : r.Represents b)
    (hname : name ∉ Vocabulary.builtInActions ∧ IsActionName name.toList)
    (hroom : name ∈ b ∨ b.keys.card < maxActions) (c : Callback) :
    (r.insert name c).Represents (b.insert name c) where
  get?_eq other := by
    rw [get?_insert, h.get?_eq]
    split
    · next heq => rw [heq, Finmap.lookup_insert]
    · next hne => rw [Finmap.lookup_insert_of_ne _ hne]
  ordered := h.ordered.insert name c
  legal other hother := by
    rcases Finmap.mem_insert.1 hother with rfl | hother
    · exact hname
    · exact h.legal other hother
  card_le := by
    rw [Bindings.keys_insert]
    rcases hroom with hmem | hroom
    · rw [Finset.insert_eq_of_mem (Finmap.mem_keys.2 hmem)]
      exact h.card_le
    · exact (Finset.card_insert_le _ _).trans hroom

theorem replace (h : r.Represents b) (hget : r.get? name = some c) (d : Callback) :
    (r.insert name d).Represents (b.insert name d) := by
  have hmem : name ∈ b := by
    rw [← h.mem_names_iff, Registry.mem_names_iff, hget]
    rfl
  exact h.insert (h.legal name hmem) (.inl hmem) d

theorem erase (h : r.Represents b) (name : String) :
    (r.erase name).Represents (b.erase name) where
  get?_eq other := by
    rw [get?_erase, h.get?_eq]
    split
    · next heq => rw [heq, Finmap.lookup_erase]
    · next hne => rw [Finmap.lookup_erase_ne hne]
  ordered := h.ordered.erase name
  legal other hother := h.legal other (Finmap.mem_erase.1 hother).2
  card_le := by
    rw [Finmap.keys_erase]
    exact Finset.card_erase_le.trans h.card_le

theorem register_eq (h : r.Represents b) (name : String) (c : Callback) : r.register name c =
    match b.refusal? name with
    | some cause => .error cause
    | none => .ok (r.insert name c) := by
  have hroom : (!r.contains name && decide (r.size ≥ maxActions)) = true ↔
      name ∉ b ∧ maxActions ≤ b.keys.card := by
    rw [Bool.and_eq_true, Bool.not_eq_true', decide_eq_true_eq, h.size_eq, ← h.contains_iff,
      Bool.not_eq_true]
  simp only [Registry.register, Bindings.refusal?, isBuiltIn_iff_mem, Bool.not_eq_true',
    ← Bool.not_eq_true, Vocabulary.isActionName_iff, hroom]
  split_ifs <;> rfl

theorem register (h : r.Represents b) (name : String) (c : Callback) :
    ((Operation.register name c).apply r).Represents ((Operation.register name c).track r b) := by
  simp only [Operation.apply, Operation.track, h.register_eq]
  cases hrefusal : b.refusal? name with
  | some cause => exact h
  | none =>
    obtain ⟨hbuiltIn, hname, hroom⟩ := Bindings.refusal?_eq_none_iff.1 hrefusal
    exact h.insert ⟨hbuiltIn, hname⟩ hroom c

theorem invoke (h : r.Represents b) (name argument : String) :
    ((Operation.invoke name argument).apply r).Represents
      ((Operation.invoke name argument).track r b) := by
  simp only [Operation.apply, Operation.track, Bindings.hear, ← h.get?_eq]
  cases hget : r.get? name with
  | none => rwa [invoke?_of_none hget]
  | some c =>
    rw [invoke?_of_get? hget]
    exact h.replace hget _

theorem deliver (h : r.Represents b) (call : Call) :
    (r.deliver call).Represents (b.deliver call) := by
  simp only [Registry.deliver, Bindings.deliver, Bindings.hear, ← h.get?_eq]
  cases hget : r.get? call.name with
  | none => exact h
  | some c =>
    by_cases hreset : (c.call call.argument).1 = .reply .reset
    · simp only [hreset, if_true]
      exact empty
    · simp only [if_neg hreset, ActionAnswer.leaves_of_ne hreset]
      exact h.replace hget _

theorem evaluate (h : r.Represents b) (e : Evaluator) (m : Machine) :
    ((Operation.evaluate e m).apply r).Represents ((Operation.evaluate e m).track r b) := by
  rw [Operation.apply, Operation.track, Operation.report, Evaluator.registry_eq_foldl]
  exact List.foldl_rel h fun call _ r b hrb => hrb.deliver call

theorem step (h : r.Represents b) (o : Operation) :
    (o.apply r).Represents (o.track r b) := by
  cases o with
  | register name c => exact h.register name c
  | unregister name => exact h.erase name
  | invoke name argument => exact h.invoke name argument
  | clear => exact empty
  | evaluate e m => exact h.evaluate e m

end Represents

theorem represents_after [Limits] (ops : List Operation) :
    (after ops).1.Represents (after ops).2 := by
  induction ops using List.reverseRecOn with
  | nil => exact .empty
  | append_singleton ops o ih =>
    rw [after, List.foldl_append]
    exact ih.step o

/-- After any operations the registry is the map that they make: it finds the same callbacks, has
its names in order and within the limit, and refuses what the map has no place for. Operations that
fail, and calls, leave every binding as it is. -/
theorem acts_as_bounded_map [Limits] (ops : List Operation) :
    let r := (after ops).1
    let b := (after ops).2
    (∀ name, r.get? name = b.lookup name) ∧
    (∀ name ∈ r.names, name ∉ Vocabulary.builtInActions ∧ IsActionName name.toList) ∧
    r.size ≤ maxActions ∧ r.names.Pairwise (· < ·) ∧ r.names.length = r.size ∧
    r.names.toFinset = b.keys ∧
    (∀ name c, r.register name c = match b.refusal? name with
      | some cause => .error cause
      | none => .ok (r.insert name c)) ∧
    (∀ name c cause, b.refusal? name = some cause → (Operation.register name c).apply r = r) ∧
    (∀ name, name ∉ b → r.contains name = false ∧ r.erase name = r) ∧
    (∀ name argument, name ∉ b → r.invoke? name argument = none) ∧
    ∀ name c argument, b.lookup name = some c → ∃ r',
      r.invoke? name argument = some ((c.call argument).1, r') ∧ r.Alike r' ∧
        r'.get? name = some (c.call argument).2 ∧
        ∀ other, other ≠ name → r'.get? other = r.get? other := by
  intro r b
  have h : r.Represents b := represents_after ops
  refine ⟨h.get?_eq, fun name hname => h.legal name (h.mem_names_iff.1 hname), ?_, h.ordered,
    List.length_map .., h.toFinset_names, h.register_eq, ?_, ?_, ?_, ?_⟩
  · rw [h.size_eq]
    exact h.card_le
  · intro name c cause hrefusal
    simp only [Operation.apply, h.register_eq, hrefusal]
  · intro name hname
    refine ⟨?_, erase_of_not_mem (mt h.mem_names_iff.1 hname)⟩
    rwa [← Bool.not_eq_true, h.contains_iff]
  · intro name argument hname
    rw [← Finmap.lookup_eq_none, ← h.get?_eq] at hname
    exact invoke?_of_none hname
  · intro name c argument hbound
    rw [← h.get?_eq] at hbound
    refine ⟨_, invoke?_of_get? hbound argument, ?_, ?_, ?_⟩
    · exact ⟨names_insert h.ordered hbound, answers_insert hbound rfl⟩
    · rw [get?_insert, if_pos rfl]
    · intro other hother
      rw [get?_insert, if_neg hother]

theorem acts_as_bounded_map_reset :
    let c : Callback := { answer := fun _ => .reply .proceed }
    let reset : Callback := { answer := fun _ => .reply .reset }
    let ops : List Operation := [.register "b" c, .register "Reset" reset,
      .evaluate { document := "@b x\n@Reset" } {}, .register "b" c, .invoke "b" "y"]
    let r := (after ops).1
    r.names = ["b"] ∧ (r.get? "b").map (·.heard) = some ["y"] ∧
      (Operation.register "EndAll" c).apply r = r ∧ r.erase "Reset" = r ∧
      ∃ answer r', r.invoke? "b" "z" = some (answer, r') ∧ r'.get? "Reset" = r.get? "Reset" := by
  intro c reset ops r
  have hnames : r.names = ["b"] := by decide
  have hheard : (r.get? "b").map (·.heard) = some ["y"] := by decide
  obtain ⟨hlookup, -, -, -, -, hkeys, -, hrefused, habsent, -, hinvoke⟩ := acts_as_bounded_map ops
  refine ⟨hnames, hheard, ?_, ?_, ?_⟩
  · exact hrefused "EndAll" c _ (if_pos (by decide))
  · refine (habsent "Reset" ?_).2
    rw [← Finmap.mem_keys, ← hkeys, List.mem_toFinset]
    exact hnames ▸ by decide
  · obtain ⟨d, hd, -⟩ := Option.map_eq_some_iff.1 hheard
    have hbound : (after ops).2.lookup "b" = some d := (hlookup "b").symm.trans hd
    obtain ⟨r', hr', -, -, hother⟩ := hinvoke "b" d "z" hbound
    exact ⟨_, r', hr', hother "Reset" (by decide)⟩

end Registry

end PlatformRules
