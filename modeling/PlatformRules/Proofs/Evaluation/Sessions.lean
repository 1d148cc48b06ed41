import PlatformRules.Proofs.Evaluation.Observations

namespace PlatformRules

open Text

def IsStateless {α β : Type} (f : List α → β) : Prop :=
  ∀ x xs ys, f (x :: xs) = f (x :: ys)

namespace ObserverChain

def deciders (c : ObserverChain) : List (Nat × (List LineView → Bool)) :=
  c.bound.map fun p => (p.1, p.2.ends)

theorem deciders_run (c : ObserverChain) (v : LineView) : (c.run v).2.deciders = c.deciders := by
  have hbound : (c.run v).2.bound = _ := bound_showTo v c.bound
  apply List.ext_getElem?
  intro i
  rw [deciders, deciders, List.getElem?_map, List.getElem?_map, hbound, List.getElem?_mapIdx,
    Option.map_map]
  congr 1
  funext p
  simp only [Function.comp_apply]
  split <;> rfl

theorem sightings_of_deciders (v : LineView) {xs ys : List (Nat × Observer)}
    (h : ys.map (fun p => (p.1, p.2.ends)) = xs.map fun p => (p.1, p.2.ends))
    (hxs : ∀ p ∈ xs, IsStateless p.2.ends) : (showTo v ys).1 = (showTo v xs).1 := by
  induction xs generalizing ys with
  | nil =>
    obtain rfl := List.map_eq_nil_iff.1 h
    rfl
  | cons p xs ih =>
    obtain ⟨q, ys, rfl, hq, hys⟩ := List.map_eq_cons_iff.1 h
    obtain ⟨handle, o⟩ := p
    obtain ⟨handle', o'⟩ := q
    obtain ⟨rfl, hends⟩ : handle' = handle ∧ o'.ends = o.ends := Prod.mk.inj hq
    have hended : o'.ends (v :: o'.seen) = o.ends (v :: o.seen) := by
      rw [hends]
      exact hxs _ List.mem_cons_self _ _ _
    cases hend : o.ends (v :: o.seen) with
    | true => rw [showTo_of_ends hend, showTo_of_ends (hended.trans hend)]
    | false =>
      rw [showTo_of_not_ends hend, showTo_of_not_ends (hended.trans hend)]
      exact congrArg (_ :: ·) (ih hys fun p hp => hxs p (List.mem_cons_of_mem _ hp))

theorem run_of_deciders {c d : ObserverChain} (v : LineView) (h : d.deciders = c.deciders)
    (hc : ∀ x ∈ c.deciders, IsStateless x.2) : (d.run v).1 = (c.run v).1 := by
  apply sightings_of_deciders v h
  intro p hp
  exact hc (p.1, p.2.ends) (List.mem_map.2 ⟨p, hp, rfl⟩)

end ObserverChain

namespace Registry

variable {r r' r'' : Registry} {name : String} {c d : Callback}

def answers (r : Registry) (name : String) : Option (List String → ActionAnswer) :=
  (r.get? name).map (·.answer)

theorem answers_of_get? (hget : r.get? name = some c) : r.answers name = some c.answer := by
  rw [answers, hget, Option.map_some]

theorem answers_insert (hget : r.get? name = some c) (h : d.answer = c.answer) :
    (r.insert name d).answers = r.answers := by
  funext other
  rw [answers, get?_insert]
  split
  · next hother => rw [hother, answers_of_get? hget, Option.map_some, h]
  · rfl

theorem eq_of_answers_singleton {other : String} {g : List String → ActionAnswer}
    (h : answers ⟨[(name, c)]⟩ other = some g) : g = c.answer := by
  have hget : get? ⟨[(name, c)]⟩ other = if other = name then some c else none :=
    lookup_cons
  rw [answers, hget] at h
  split at h
  · exact (Option.some.inj h).symm
  · simp at h

structure Alike (r r' : Registry) : Prop where
  names : r'.names = r.names
  answers : r'.answers = r.answers

theorem Alike.trans (h : r.Alike r') (h' : r'.Alike r'') : r.Alike r'' :=
  ⟨h'.names.trans h.names, h'.answers.trans h.answers⟩

theorem Alike.ordered (h : r.Alike r') (hr : r.Ordered) : r'.Ordered := by
  rw [Ordered, h.names]
  exact hr

def NeverResets (r : Registry) : Prop :=
  ∀ name f, r.answers name = some f → ∀ xs, f xs ≠ .reply .reset

end Registry

theorem ActionAnswer.leaves_of_ne {answer : ActionAnswer} (h : answer ≠ .reply .reset)
    (r : Registry) : answer.leaves r = r := by
  cases answer with
  | reply x =>
    cases x with
    | reset => exact absurd rfl h
    | proceed => rfl
    | error => rfl
    | stop => rfl
  | raised message => rfl
  | unknownCode code => rfl

namespace Evaluation

variable {m : Machine} {s t : RunState} {l : SourceLine} {ls : List SourceLine}

section

variable [Limits]

def left (m : Machine) (s : RunState) (l : SourceLine) : RunState :=
  (ending (visit m s l)).2

theorem left_of_outcome {e : Effect × RunState} (h : visit m s l = outcome e) :
    left m s l = e.2 := by
  obtain ⟨effect, u⟩ := e
  rw [left, h]
  cases effect <;> rfl

theorem left_of_error {ended : Verdict × RunState} (h : visit m s l = .error ended) :
    left m s l = ended.2 := by
  rw [left, h]
  rfl

theorem left_of_ok (h : visit m s l = .ok t) : left m s l = t := by
  rw [left, h]
  rfl

theorem left_cases (m : Machine) (s : RunState) (l : SourceLine) :
    left m s l = { s with line := some l } ∨ ∃ r, left m s l = atLine s l r ∨
      ∃ call c, s.registry.get? call.name = some c ∧ left m s l = called (atLine s l r) call c := by
  have hvisits := visits m s l
  generalize hx : visit m s l = x at hvisits
  cases hvisits with
  | blank hblank => exact .inl (by rw [left, hx]; rfl)
  | unreadable hblank hread => exact .inl (by rw [left, hx]; rfl)
  | @ended r x hblank hread hx' h => exact .inr ⟨r, .inl (by rw [left, hx]; rfl)⟩
  | @passed r st hblank hread hst h =>
    have hleft := left_of_outcome hx
    rcases effect_cases m (atLine s l r) st with hsame | ⟨call, c, -, hget, hcall⟩
    · exact .inr ⟨r, .inl (hleft.trans hsame)⟩
    · exact .inr ⟨r, .inr ⟨call, c, hget, hleft.trans (congrArg Prod.snd hcall)⟩⟩

theorem ending_cons_of_error {ended : Verdict × RunState} (h : visit m s l = .error ended) :
    ending ((l :: ls).foldlM (visit m) s) = ended := by
  rw [List.foldlM_cons, h]
  rfl

theorem ending_cons_of_ok (h : visit m s l = .ok t) :
    ending ((l :: ls).foldlM (visit m) s) = ending (ls.foldlM (visit m) t) := by
  rw [List.foldlM_cons, h]
  rfl

theorem ending_induction {P : RunState → Prop} (hstep : ∀ s l, P s → P (left m s l))
    (hs : P s) : P (ending (ls.foldlM (visit m) s)).2 := by
  induction ls generalizing s with
  | nil => exact hs
  | cons l ls ih =>
    have hl := hstep s l hs
    unfold left at hl
    cases hvisit : visit m s l with
    | error ended =>
      rw [ending_cons_of_error hvisit]
      rwa [hvisit] at hl
    | ok t =>
      rw [ending_cons_of_ok hvisit]
      rw [hvisit] at hl
      exact ih hl

theorem chain_left (m : Machine) (s : RunState) (l : SourceLine) :
    (left m s l).chain.deciders = s.chain.deciders ∧ (left m s l).chain.next = s.chain.next := by
  rcases left_cases m s l with h | ⟨r, h | ⟨call, c, -, h⟩⟩
  · rw [h]
    exact ⟨rfl, rfl⟩
  · rw [h]
    exact ⟨s.chain.deciders_run _, rfl⟩
  · rw [h]
    exact ⟨s.chain.deciders_run _, rfl⟩

theorem line_left (m : Machine) (s : RunState) (l : SourceLine) : (left m s l).line = some l := by
  rcases left_cases m s l with h | ⟨r, h | ⟨call, c, -, h⟩⟩
  · rw [h]
  · rw [h]
    rfl
  · rw [h]
    rfl

theorem registry_left (m : Machine) (s : RunState) (l : SourceLine) :
    (left m s l).registry = s.registry ∧ (left m s l).calls = s.calls ∨
      ∃ call c, s.registry.get? call.name = some c ∧ (left m s l).calls = call :: s.calls ∧
        (left m s l).registry = (c.call call.argument).1.leaves
          (s.registry.insert call.name (c.call call.argument).2) := by
  rcases left_cases m s l with h | ⟨r, h | ⟨call, c, hget, h⟩⟩
  · rw [h]
    exact .inl ⟨rfl, rfl⟩
  · rw [h]
    exact .inl ⟨rfl, rfl⟩
  · rw [h]
    exact .inr ⟨call, c, hget, rfl, rfl⟩

def Resets (m : Machine) (s : RunState) (l : SourceLine) : Prop :=
  ∃ call c, (left m s l).calls = call :: s.calls ∧ s.registry.get? call.name = some c ∧
    (c.call call.argument).1 = .reply .reset

theorem registry_of_resets (h : Resets m s l) : (left m s l).registry = {} := by
  obtain ⟨call, c, hcalls, hget, hreset⟩ := h
  rcases registry_left m s l with ⟨-, hsame⟩ | ⟨call', c', hget', hcalls', hregistry⟩
  · exact absurd (hcalls.symm.trans hsame) (List.cons_ne_self _ _)
  · obtain ⟨rfl, -⟩ := List.cons.inj (hcalls.symm.trans hcalls')
    obtain rfl := Option.some.inj (hget.symm.trans hget')
    rw [hregistry, hreset]
    rfl

theorem registry_of_not_resets (hs : s.registry.Ordered) (h : ¬Resets m s l) :
    s.registry.Alike (left m s l).registry := by
  rcases registry_left m s l with ⟨hsame, -⟩ | ⟨call, c, hget, hcalls, hregistry⟩
  · rw [hsame]
    exact ⟨rfl, rfl⟩
  · have hne : (c.call call.argument).1 ≠ .reply .reset :=
      fun hreset => h ⟨call, c, hcalls, hget, hreset⟩
    rw [hregistry, ActionAnswer.leaves_of_ne hne]
    exact ⟨Registry.names_insert hs hget, Registry.answers_insert hget rfl⟩

theorem registry_of_empty (h : s.registry = {}) : (left m s l).registry = {} := by
  rcases registry_left m s l with ⟨hsame, -⟩ | ⟨call, c, hget, -⟩
  · rw [hsame, h]
  · simp [h, Registry.get?] at hget

theorem neverResets_left (s : RunState) (l : SourceLine) (h : s.registry.NeverResets) :
    (left m s l).registry.NeverResets := by
  rcases registry_left m s l with ⟨hsame, -⟩ | ⟨call, c, hget, -, hregistry⟩
  · rw [hsame]
    exact h
  · have hne : (c.call call.argument).1 ≠ .reply .reset :=
      h call.name c.answer (Registry.answers_of_get? hget) _
    have hanswers := Registry.answers_insert (d := (c.call call.argument).2) hget rfl
    rw [hregistry, ActionAnswer.leaves_of_ne hne, Registry.NeverResets]
    exact hanswers ▸ h

def ResetsIn (m : Machine) (s : RunState) (ls : List SourceLine) : Prop :=
  ∃ before l after t, ls = before ++ l :: after ∧ before.foldlM (visit m) s = .ok t ∧ Resets m t l

theorem resetsIn_cons : ResetsIn m s (l :: ls) ↔
    Resets m s l ∨ ∃ t, visit m s l = .ok t ∧ ResetsIn m t ls := by
  constructor
  · rintro ⟨before, k, after, u, hcut, hbefore, hk⟩
    cases before with
    | nil =>
      obtain ⟨rfl, -⟩ := List.cons.inj hcut
      obtain rfl := Except.ok.inj hbefore
      exact .inl hk
    | cons l' before =>
      obtain ⟨rfl, hls⟩ := List.cons.inj hcut
      rw [List.foldlM_cons] at hbefore
      obtain ⟨t, hvisit, hbefore⟩ := exists_of_bind_eq_ok hbefore
      exact .inr ⟨t, hvisit, before, k, after, u, hls, hbefore, hk⟩
  · rintro (h | ⟨t, hvisit, before, k, after, u, rfl, hbefore, hk⟩)
    · exact ⟨[], l, ls, s, rfl, rfl, h⟩
    · refine ⟨l :: before, k, after, u, rfl, ?_, hk⟩
      rw [List.foldlM_cons, hvisit]
      exact hbefore

theorem registry_of_run (hs : s.registry.Ordered) :
    let u := (ending (ls.foldlM (visit m) s)).2
    (ResetsIn m s ls → u.registry = {}) ∧ (¬ResetsIn m s ls → s.registry.Alike u.registry) := by
  induction ls generalizing s with
  | nil =>
    constructor
    · rintro ⟨before, l, after, t, hcut, -⟩
      simp at hcut
    · exact fun _ => ⟨rfl, rfl⟩
  | cons l ls ih =>
    have hreset := fun h : Resets m s l => registry_of_resets h
    have hkeep := registry_of_not_resets (m := m) (l := l) hs
    rw [resetsIn_cons]
    cases hvisit : visit m s l with
    | error ended =>
      rw [ending_cons_of_error hvisit, ← left_of_error hvisit]
      simpa using And.intro hreset hkeep
    | ok t =>
      rw [left_of_ok hvisit] at hreset hkeep
      have ht : t.registry.Ordered := by
        by_cases h : Resets m s l
        · rw [hreset h]
          exact List.Pairwise.nil
        · exact (hkeep h).ordered hs
      obtain ⟨ihreset, ihkeep⟩ := ih ht
      rw [ending_cons_of_ok hvisit]
      constructor
      · rintro (h | ⟨t', ht', h⟩)
        · -- No name is found in the registry any more, so that nothing fills it again.
          exact ending_induction (P := fun u => u.registry = {}) (fun _ _ => registry_of_empty)
            (hreset h)
        · obtain rfl := Except.ok.inj ht'
          exact ihreset h
      · intro h
        rw [not_or] at h
        exact (hkeep h.1).trans (ihkeep fun hin => h.2 ⟨t, rfl, hin⟩)

end

structure Lockstep (s t : RunState) : Prop where
  answers : t.registry.answers = s.registry.answers
  deciders : t.chain.deciders = s.chain.deciders
  callbacks : ∀ name f, s.registry.answers name = some f → IsStateless f
  observers : ∀ x ∈ s.chain.deciders, IsStateless x.2
  line : t.line = s.line
  calls : t.calls = s.calls
  sightings : t.sightings = s.sightings

namespace Lockstep

theorem reach (h : Lockstep s t) (l : SourceLine) :
    Lockstep { s with line := some l } { t with line := some l } where
  answers := h.answers
  deciders := h.deciders
  callbacks := h.callbacks
  observers := h.observers
  line := rfl
  calls := h.calls
  sightings := h.sightings

theorem run_eq (h : Lockstep s t) (v : LineView) : (t.chain.run v).1 = (s.chain.run v).1 :=
  ObserverChain.run_of_deciders v h.deciders h.observers

theorem atLine (h : Lockstep s t) (l : SourceLine) (r : ReadLine) :
    Lockstep (atLine s l r) (atLine t l r) where
  answers := h.answers
  deciders := by
    have hs := s.chain.deciders_run (l.view r)
    have ht := t.chain.deciders_run (l.view r)
    exact ht.trans (h.deciders.trans hs.symm)
  callbacks := h.callbacks
  observers := by
    have hs := s.chain.deciders_run (l.view r)
    exact hs ▸ h.observers
  line := rfl
  calls := h.calls
  sightings := by
    have hrun := h.run_eq (l.view r)
    simp only [Evaluation.atLine, shown, hrun, h.sightings]

theorem called (h : Lockstep s t) (call : Call) {c d : Callback}
    (hs : s.registry.get? call.name = some c) (ht : t.registry.get? call.name = some d) :
    (d.call call.argument).1 = (c.call call.argument).1 ∧
      Lockstep (called s call c) (called t call d) := by
  have hc := Registry.answers_of_get? hs
  have hd := Registry.answers_of_get? ht
  have hanswer : d.answer = c.answer :=
    Option.some.inj (hd.symm.trans ((congrFun h.answers call.name).trans hc))
  have hcall : (d.call call.argument).1 = (c.call call.argument).1 :=
    (congrFun hanswer _).trans (h.callbacks call.name c.answer hc ..)
  refine ⟨hcall, ?_⟩
  have hcalls : call :: t.calls = call :: s.calls := congrArg (call :: ·) h.calls
  by_cases hreset : (c.call call.argument).1 = .reply .reset
  · simp only [Evaluation.called, hcall, hreset]
    exact ⟨rfl, h.deciders, by simp [ActionAnswer.leaves, Registry.answers, Registry.get?],
      h.observers, h.line, hcalls, h.sightings⟩
  · have hs' := Registry.answers_insert (d := (c.call call.argument).2) hs rfl
    have ht' := Registry.answers_insert (d := (d.call call.argument).2) ht rfl
    simp only [Evaluation.called, hcall, ActionAnswer.leaves_of_ne hreset]
    exact ⟨ht'.trans (h.answers.trans hs'.symm), h.deciders, hs' ▸ h.callbacks, h.observers, h.line,
      hcalls, h.sightings⟩

theorem callRegistered (h : Lockstep s t) (name argument : String) :
    (callRegistered t name argument).1 = (callRegistered s name argument).1 ∧
      Lockstep (callRegistered s name argument).2 (callRegistered t name argument).2 := by
  have hanswers : t.registry.answers name = s.registry.answers name := congrFun h.answers name
  unfold Registry.answers at hanswers
  cases hs : s.registry.get? name with
  | none =>
    have ht : t.registry.get? name = none := by simpa [hs] using hanswers
    rw [callRegistered_of_eq_none hs, callRegistered_of_eq_none ht]
    exact ⟨rfl, h⟩
  | some c =>
    obtain ⟨d, ht, -⟩ : ∃ d, t.registry.get? name = some d ∧ d.answer = c.answer := by
      simpa [hs] using hanswers
    obtain ⟨hcall, hcalled⟩ := h.called ⟨name, argument⟩ hs ht
    rw [callRegistered_of_eq_some hs, callRegistered_of_eq_some ht]
    exact ⟨congrArg (·.effect name) hcall, hcalled⟩

theorem callAction (h : Lockstep s t) (name argument : String) :
    (callAction t name argument).1 = (callAction s name argument).1 ∧
      Lockstep (callAction s name argument).2 (callAction t name argument).2 := by
  unfold Evaluation.callAction
  split
  · exact ⟨rfl, h⟩
  · split
    · exact ⟨rfl, h⟩
    · split
      · exact ⟨rfl, h⟩
      · exact h.callRegistered name argument

theorem effect (h : Lockstep s t) (m : Machine) (st : Statement) :
    (st.effect m t).1 = (st.effect m s).1 ∧ Lockstep (st.effect m s).2 (st.effect m t).2 := by
  cases st with
  | blank => exact ⟨rfl, h⟩
  | comment text => exact ⟨rfl, h⟩
  | action name argument => exact h.callAction ..
  | path o f value => exact ⟨rfl, h⟩

variable [Limits]

theorem visit (h : Lockstep s t) (m : Machine) (l : SourceLine) :
    Except.Related (EndsBy id Lockstep) Lockstep (visit m s l) (visit m t l) := by
  have hvisits := visits m s l
  generalize Evaluation.visit m s l = x at hvisits
  cases hvisits with
  | blank hblank =>
    rw [visit_of_blank hblank]
    exact h.reach l
  | unreadable hblank hread =>
    rw [visit_of_error hblank hread]
    exact ⟨rfl, h.reach l⟩
  | @ended r x hblank hread hx hend =>
    rw [visit_of_ended hblank hread (h.run_eq (l.view r) ▸ hx) hend]
    exact ⟨rfl, h.atLine l r⟩
  | @passed r st hblank hread hst hpass =>
    rw [visit_of_passed hblank hread hst (h.run_eq (l.view r) ▸ hpass)]
    obtain ⟨heffect, hleft⟩ := (h.atLine l r).effect m st
    apply outcome_related _ hleft
    rw [heffect, Option.map_id_fun, id]

theorem run (h : Lockstep s t) (m : Machine) (ls : List SourceLine) :
    EndsBy id Lockstep (ending (ls.foldlM (Evaluation.visit m) s))
      (ending (ls.foldlM (Evaluation.visit m) t)) := by
  have hlines : List.Forall₂ Eq ls ls := List.forall₂_same.2 fun _ _ => rfl
  apply ending_related rfl
  apply foldlM_related _ hlines h
  rintro s t l _ hst rfl
  exact hst.visit m l

end Lockstep

theorem outcome_eq_error_of {e : Effect × RunState} {verdict : Verdict} {u : RunState}
    (h : outcome e = .error (verdict, u)) : e = (some verdict, u) := by
  obtain ⟨effect, w⟩ := e
  cases effect with
  | none => simp [outcome] at h
  | some verdict' =>
    obtain ⟨rfl, rfl⟩ := Prod.mk.inj (Except.error.inj h)
    rfl

theorem exists_of_visit_eq_value [Limits] {value : String} {u : RunState}
    (h : visit m s l = .error (.ok (some value), u)) :
    ∃ f, Written (.path .returns f value.toList) (trim l.text) ∧ f.Denotes m := by
  have hvisits := visits m s l
  rw [h] at hvisits
  generalize hx : (Except.error (.ok (some value), u) : Except (Verdict × RunState) RunState) = x
    at hvisits
  cases hvisits with
  | blank hblank => simp at hx
  | unreadable hblank hread => simp at hx
  | ended hblank hread hx' hend => simp at hx
  | passed hblank hread hst hpass =>
    have heffect := congrArg Prod.fst (outcome_eq_error_of hx.symm)
    obtain ⟨f, rfl, hf⟩ := exists_of_effect_eq_value (Statement.isLegal_of_written hst) heffect
    exact ⟨f, hst, hf⟩

end Evaluation

namespace Evaluator

open Evaluation

section

variable [Limits] {e : Evaluator} {m : Machine}

inductive Reachable : Evaluator → Prop
  | new (document : String) (preferences : EvaluationPreferences) :
    Reachable { document, preferences }
  | register {e e' : Evaluator} {name : String} {c : Callback} (h : Reachable e)
    (hregister : e.register name c = .ok e') : Reachable e'
  | unregister {e : Evaluator} (h : Reachable e) (name : String) : Reachable (e.unregister name).2
  | bind {e e' : Evaluator} {o : Observer} {handle : Nat} (h : Reachable e)
    (hbind : e.bind o = .ok (handle, e')) : Reachable e'
  | unbind {e : Evaluator} (h : Reachable e) (handle : Nat) : Reachable (e.unbind handle).2
  | evaluate {e : Evaluator} (h : Reachable e) (m : Machine) : Reachable (e.evaluate m).2

def Resets (e : Evaluator) (m : Machine) : Prop :=
  ∃ l after s, e.Arrives m l after s ∧ Evaluation.Resets m s l

theorem resets_iff (hsize : e.document.utf8ByteSize ≤ maxDocumentSize) :
    e.Resets m ↔ ResetsIn m e.start (lines e.document.toList) := by
  constructor
  · rintro ⟨l, after, s, ⟨-, before, hlines, hbefore⟩, hl⟩
    exact ⟨before, l, after, s, hlines, hbefore, hl⟩
  · rintro ⟨before, l, after, s, hlines, hbefore, hl⟩
    exact ⟨l, after, s, ⟨hsize, before, hlines, hbefore⟩, hl⟩

theorem evaluate_of_large (h : ¬e.document.utf8ByteSize ≤ maxDocumentSize) :
    e.evaluate m = ({ verdict := .error (.tooLarge e.document.utf8ByteSize) },
      { e with matchedLine := none }) := by
  rw [evaluate, if_pos (Nat.not_le.1 h)]

theorem registry_evaluate (h : e.registry.Ordered) (m : Machine) :
    (e.Resets m → (e.evaluate m).2.registry = {}) ∧
      (¬e.Resets m → e.registry.Alike (e.evaluate m).2.registry) := by
  by_cases hsize : e.document.utf8ByteSize ≤ maxDocumentSize
  · rw [evaluate_of_size hsize, run_eq, resets_iff hsize]
    exact registry_of_run (s := e.start) h
  · rw [evaluate_of_large hsize]
    constructor
    · rintro ⟨l, after, s, ⟨hsize', -⟩, -⟩
      exact absurd hsize' hsize
    · exact fun _ => ⟨rfl, rfl⟩

theorem exists_of_register_eq_ok {e' : Evaluator} {name : String} {c : Callback}
    (h : e.register name c = .ok e') :
    ∃ r, e.registry.register name c = .ok r ∧ e' = { e with registry := r } := by
  unfold Evaluator.register at h
  cases hr : e.registry.register name c with
  | error cause => simp [hr, Except.map] at h
  | ok r =>
    rw [hr] at h
    exact ⟨r, rfl, (Except.ok.inj h).symm⟩

theorem Reachable.ordered (h : Reachable e) : e.registry.Ordered := by
  induction h with
  | new document preferences => exact List.Pairwise.nil
  | register _ hregister ih =>
    obtain ⟨r, hr, rfl⟩ := exists_of_register_eq_ok hregister
    exact ih.register hr
  | unregister _ name ih => exact ih.erase name
  | @bind e e' o handle _ hbind ih =>
    unfold Evaluator.bind at hbind
    cases hc : e.chain.bind o with
    | error cause => simp [hc, Except.map] at hbind
    | ok c =>
      rw [hc] at hbind
      obtain ⟨-, rfl⟩ := Prod.mk.inj (Except.ok.inj hbind)
      exact ih
  | unbind _ handle ih => exact ih
  | @evaluate e _ m ih =>
    -- The order is also what keeps the names when a callback is put back after its call.
    obtain ⟨hreset, hkeep⟩ := registry_evaluate ih m
    by_cases h : e.Resets m
    · rw [hreset h]
      exact List.Pairwise.nil
    · exact (hkeep h).ordered ih

theorem document_evaluate (e : Evaluator) (m : Machine) :
    (e.evaluate m).2.document = e.document ∧ (e.evaluate m).2.preferences = e.preferences := by
  by_cases hsize : e.document.utf8ByteSize ≤ maxDocumentSize
  · rw [evaluate_of_size hsize]
    exact ⟨rfl, rfl⟩
  · rw [evaluate_of_large hsize]
    exact ⟨rfl, rfl⟩

theorem chain_evaluate (e : Evaluator) (m : Machine) :
    (e.evaluate m).2.chain.deciders = e.chain.deciders ∧
      (e.evaluate m).2.chain.next = e.chain.next := by
  by_cases hsize : e.document.utf8ByteSize ≤ maxDocumentSize
  · rw [evaluate_of_size hsize, run_eq]
    apply ending_induction (s := e.start)
      (P := fun s => s.chain.deciders = e.chain.deciders ∧ s.chain.next = e.chain.next) _ ⟨rfl, rfl⟩
    rintro s l ⟨hdeciders, hnext⟩
    have hleft := chain_left m s l
    exact ⟨hleft.1.trans hdeciders, hleft.2.trans hnext⟩
  · rw [evaluate_of_large hsize]
    exact ⟨rfl, rfl⟩

theorem matchedLine_evaluate (e : Evaluator) (m : Machine) : match (e.evaluate m).1.verdict with
    | .ok (some value) => ∃ l after s f, e.Arrives m l after s ∧
        Written (.path .returns f value.toList) (trim l.text) ∧ f.Denotes m ∧
        (e.evaluate m).2.matchedLine = some l.number
    | _ => (e.evaluate m).2.matchedLine = none := by
  by_cases hsize : e.document.utf8ByteSize ≤ maxDocumentSize
  · rw [evaluate_of_size hsize, run_eq]
    cases hfold : (lines e.document.toList).foldlM (visit m) e.start with
    | ok t => rfl
    | error ended =>
      obtain ⟨verdict, u⟩ := ended
      cases verdict with
      | error x => rfl
      | ok selection =>
        cases selection with
        | none => rfl
        | some value =>
          obtain ⟨before, l, after, s, hlines, hbefore, hl⟩ := foldlM_eq_error_iff.1 hfold
          obtain ⟨f, hwritten, hf⟩ := exists_of_visit_eq_value hl
          have hline : u.line = some l := by
            have hleft := line_left m s l
            rwa [left, hl] at hleft
          refine ⟨l, after, s, f, ⟨hsize, before, hlines, hbefore⟩, hwritten, hf, ?_⟩
          simp only [conclude, ending, matched, hline, Option.map_some]
  · rw [evaluate_of_large hsize]

theorem evaluate_of_lockstep {e' : Evaluator} (hdocument : e'.document = e.document)
    (h : Lockstep e.start e'.start) (m : Machine) : (e'.evaluate m).1 = (e.evaluate m).1 ∧
      (e'.evaluate m).2.matchedLine = (e.evaluate m).2.matchedLine := by
  by_cases hsize : e.document.utf8ByteSize ≤ maxDocumentSize
  · have hsize' : e'.document.utf8ByteSize ≤ maxDocumentSize := hdocument ▸ hsize
    obtain ⟨hverdict, hends⟩ := h.run m (lines e.document.toList)
    rw [evaluate_of_size hsize, evaluate_of_size hsize', hdocument, run_eq, run_eq]
    simp only [conclude, matched, hverdict, hends.line, hends.calls, hends.sightings, id, and_self]
  · have hsize' : ¬e'.document.utf8ByteSize ≤ maxDocumentSize := hdocument ▸ hsize
    rw [evaluate_of_large hsize, evaluate_of_large hsize', hdocument]
    exact ⟨rfl, rfl⟩

theorem not_resets_of_neverResets (h : e.registry.NeverResets) : ¬e.Resets m := by
  rintro ⟨l, after, s, ⟨-, before, -, hbefore⟩, call, c, -, hget, hreset⟩
  have hs : (ending (before.foldlM (visit m) e.start)).2.registry.NeverResets :=
    ending_induction (P := fun s => s.registry.NeverResets) neverResets_left h
  rw [hbefore] at hs
  exact hs call.name c.answer (Registry.answers_of_get? hget) _ hreset

/-- An evaluation leaves the evaluator as it was, apart from a reset of the registry, and tells its
own match only. It can be repeated if nothing remembers and nothing is reset. -/
theorem evaluate_session (he : e.Reachable) (m : Machine) :
    let r := e.evaluate m
    (r.2.document = e.document ∧ r.2.preferences = e.preferences ∧
      r.2.chain.deciders = e.chain.deciders ∧ r.2.chain.next = e.chain.next) ∧
    (e.Resets m → r.2.registry = {}) ∧ (¬e.Resets m → e.registry.Alike r.2.registry) ∧
    (match r.1.verdict with
      | .ok (some value) => ∃ l after s f, e.Arrives m l after s ∧
          Written (.path .returns f value.toList) (trim l.text) ∧ f.Denotes m ∧
          r.2.matchedLine = some l.number
      | _ => r.2.matchedLine = none) ∧
    ((∀ name f, e.registry.answers name = some f → IsStateless f) →
      (∀ x ∈ e.chain.deciders, IsStateless x.2) → ¬e.Resets m →
      (r.2.evaluate m).1 = r.1 ∧ (r.2.evaluate m).2.matchedLine = r.2.matchedLine) := by
  intro r
  obtain ⟨hdocument, hpreferences⟩ := document_evaluate e m
  obtain ⟨hdeciders, hnext⟩ := chain_evaluate e m
  obtain ⟨hreset, hkeep⟩ := registry_evaluate he.ordered m
  refine ⟨⟨hdocument, hpreferences, hdeciders, hnext⟩, hreset, hkeep, matchedLine_evaluate e m, ?_⟩
  intro hcallbacks hobservers hnot
  have hstart : Lockstep e.start r.2.start :=
    ⟨(hkeep hnot).answers, hdeciders, hcallbacks, hobservers, rfl, rfl, rfl⟩
  exact evaluate_of_lockstep hdocument hstart m

end

theorem evaluate_session_hello :
    let hello : Callback := { answer := fun _ => .reply .proceed }
    let wipe : Callback := { answer := fun _ => .reply .reset }
    let e : Evaluator :=
      { document := "@hello\n-> \"x\"", registry := ⟨[("hello", hello)]⟩
        chain := ⟨[(0, { ends := fun _ => false })], 1⟩ }
    let e' : Evaluator :=
      { document := "@wipe\n@hello", registry := ⟨[("hello", hello), ("wipe", wipe)]⟩ }
    let r := e.evaluate {}
    let r' := e'.evaluate {}
    (e.Reachable ∧ r.2.registry.names = ["hello"] ∧ (r.2.evaluate {}).1 = r.1 ∧
      (r.2.evaluate {}).2.matchedLine = r.2.matchedLine) ∧
    e'.Reachable ∧ e'.Resets {} ∧ r'.2.registry = {} ∧ r'.2.document = "@wipe\n@hello" ∧
      r'.1.verdict = .error (.undefinedAction "hello") := by
  intro hello wipe e e' r r'
  constructor
  · have hregister : ({ document := "@hello\n-> \"x\"" } : Evaluator).register "hello" hello =
        .ok { document := "@hello\n-> \"x\"", registry := ⟨[("hello", hello)]⟩ } := rfl
    have he : e.Reachable := .bind (.register (.new _ {}) hregister) rfl
    have hanswers : ∀ name f, e.registry.answers name = some f → f = hello.answer := by
      intro name f hf
      have hget : e.registry.get? name = if name = "hello" then some hello else none :=
        Registry.lookup_cons
      rw [Registry.answers, hget] at hf
      split at hf
      · exact (Option.some.inj hf).symm
      · simp at hf
    have hreset : ¬e.Resets {} := by
      apply not_resets_of_neverResets
      intro name f hf xs
      rw [hanswers name f hf]
      simp [hello]
    obtain ⟨-, -, hkeep, -, hagain⟩ := evaluate_session he {}
    obtain ⟨hreport, hmatched⟩ := hagain
      (fun name f hf => hanswers name f hf ▸ fun _ _ _ => rfl)
      (by rintro x (hx : x ∈ [_]); rw [List.mem_singleton.1 hx]; exact fun _ _ _ => rfl) hreset
    exact ⟨he, (hkeep hreset).names, hreport, hmatched⟩
  · have hhello : ({ document := "@wipe\n@hello" } : Evaluator).register "hello" hello =
        .ok { document := "@wipe\n@hello", registry := ⟨[("hello", hello)]⟩ } := rfl
    have hwipe : ({ document := "@wipe\n@hello", registry := ⟨[("hello", hello)]⟩ } :
        Evaluator).register "wipe" wipe = .ok e' := rfl
    have he : e'.Reachable := .register (.register (.new _ {}) hhello) hwipe
    have harrives : e'.Arrives {} ⟨1, 0, "@wipe".toList⟩ [⟨2, 6, "@hello".toList⟩] e'.start :=
      ⟨by decide, [], by decide, rfl⟩
    have hresets : e'.Resets {} := ⟨_, _, _, harrives, ⟨"wipe", ""⟩, wipe, rfl, rfl, rfl⟩
    obtain ⟨⟨hdocument, -⟩, hempty, -⟩ := evaluate_session he {}
    exact ⟨he, hresets, hempty hresets, hdocument, by decide +kernel⟩

end Evaluator

end PlatformRules
