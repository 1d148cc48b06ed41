import Mathlib.Data.List.Nodup
import Mathlib.Data.List.Range
import PlatformRules.Proofs.Evaluation.Observations

namespace PlatformRules

inductive ChainStep where
  | bind (o : Observer)
  | unbind (handle : Nat)
  | run (v : LineView)

inductive ChainAnswer where
  | bound (r : Except RegistrationError Nat)
  | unbound (found : Bool)
  | shown (sightings : List Sighting) (ended : Bool)

abbrev ChainHistory := List (ChainStep × ChainAnswer)

namespace ChainHistory

def accepted (hs : ChainHistory) : List (Nat × Observer) :=
  hs.filterMap fun
    | (.bind o, .bound (.ok handle)) => some (handle, o)
    | _ => none

def issued (hs : ChainHistory) : List Nat :=
  (accepted hs).map (·.1)

def released (hs : ChainHistory) : List Nat :=
  hs.filterMap fun
    | (.unbind handle, .unbound true) => some handle
    | _ => none

def shownTo (hs : ChainHistory) (handle : Nat) : List LineView :=
  (hs.filterMap fun
    | (.run v, .shown xs _) => if handle ∈ xs.map (·.handle) then some v else none
    | _ => none).reverse

def told (hs : ChainHistory) (p : Nat × Observer) : Nat × Observer :=
  (p.1, { p.2 with seen := shownTo hs p.1 ++ p.2.seen })

/-- The observers that were accepted and not removed since, each with the lines that it was shown. -/
def live (hs : ChainHistory) : List (Nat × Observer) :=
  ((accepted hs).filter fun p => p.1 ∉ released hs).map (told hs)

end ChainHistory

open ChainHistory

namespace ObserverChain

variable [Limits]

def step (c : ObserverChain) : ChainStep → ChainAnswer × ObserverChain
  | .bind o => match c.bind o with
    | .ok (handle, d) => (.bound (.ok handle), d)
    | .error e => (.bound (.error e), c)
  | .unbind handle => (.unbound (c.unbind handle).1, (c.unbind handle).2)
  | .run v => (.shown (c.run v).1 ((c.run v).1.any (·.ended)), (c.run v).2)

def steps (c : ObserverChain) : List ChainStep → ChainHistory × ObserverChain
  | [] => ([], c)
  | s :: ss => ((s, (c.step s).1) :: ((c.step s).2.steps ss).1, ((c.step s).2.steps ss).2)

structure Keeps (c : ObserverChain) (hs : ChainHistory) : Prop where
  bound_eq : c.bound = live hs
  issued_eq : issued hs = List.range c.next
  released_lt : ∀ handle ∈ released hs, handle < c.next
  shown_eq : ∀ handle, c.next ≤ handle → shownTo hs handle = []
  size_le : c.size ≤ maxObservers

end ObserverChain

def Observer.endsAt (v : LineView) (o : Observer) : Bool :=
  o.ends (v :: o.seen)

def ChainStep.Does [Limits] (hs : ChainHistory) (old new : ObserverChain) (a : ChainAnswer) :
    ChainStep → Prop
  | .bind o => (old.size = maxObservers ∧ a = .bound (.error .observerLimit) ∧ new = old) ∨
      (old.size < maxObservers ∧ ∃ handle, handle ∉ issued hs ∧ a = .bound (.ok handle) ∧
        new.bound = old.bound ++ [(handle, o)])
  | .unbind handle => (handle ∈ issued hs ∧ handle ∉ released hs ∧ a = .unbound true ∧
        ∃ front o back, old.bound = front ++ (handle, o) :: back ∧ new.bound = front ++ back) ∨
      (¬(handle ∈ issued hs ∧ handle ∉ released hs) ∧ a = .unbound false ∧ new = old)
  | .run v => ∃ front back ended, old.bound = front ++ back ∧
      a = .shown (front.map fun p => ⟨p.1, v, p.2.endsAt v⟩) ended ∧
      (ended = true ↔ ∃ p ∈ front, p.2.endsAt v = true) ∧
      (∀ p ∈ front.dropLast, p.2.endsAt v = false) ∧ (ended = false → back = []) ∧
      new = { old with bound := (front.map fun p => (p.1, p.2.see v)) ++ back }

namespace ChainHistory

variable (hs gs : ChainHistory)

theorem accepted_append : accepted (hs ++ gs) = accepted hs ++ accepted gs :=
  List.filterMap_append

theorem issued_append : issued (hs ++ gs) = issued hs ++ issued gs := by
  rw [issued, accepted_append, List.map_append]
  rfl

theorem released_append : released (hs ++ gs) = released hs ++ released gs :=
  List.filterMap_append

theorem shownTo_append (handle : Nat) :
    shownTo (hs ++ gs) handle = shownTo gs handle ++ shownTo hs handle := by
  rw [shownTo, List.filterMap_append, List.reverse_append]
  rfl

theorem handles_live :
    (live hs).map (·.1) = (issued hs).filter fun handle => handle ∉ released hs := by
  rw [live, issued, List.filter_map, List.map_map]
  rfl

variable {hs gs}

theorem told_append (h : ∀ handle, shownTo gs handle = []) : told (hs ++ gs) = told hs := by
  funext p
  rw [told, shownTo_append, h, List.nil_append, told]

theorem live_append (haccepted : accepted gs = []) (hreleased : released gs = [])
    (hshown : ∀ handle, shownTo gs handle = []) : live (hs ++ gs) = live hs := by
  rw [live, accepted_append, haccepted, List.append_nil, released_append, hreleased,
    List.append_nil, told_append hshown, live]

theorem live_bind {handle : Nat} (hfresh : handle ∉ released hs) (hshown : shownTo hs handle = [])
    (o : Observer) :
    live (hs ++ [(.bind o, .bound (.ok handle))]) = live hs ++ [(handle, o)] := by
  have haccepted : accepted [(.bind o, .bound (.ok handle))] = [(handle, o)] := rfl
  have hreleased : released [(.bind o, .bound (.ok handle))] = [] := rfl
  have hnew : told hs (handle, o) = (handle, o) := by
    rw [told, hshown]
    rfl
  rw [live, accepted_append, haccepted, released_append, hreleased, List.append_nil,
    told_append fun _ => rfl, List.filter_append, List.map_append, live]
  simp [hfresh, hnew]

theorem live_unbind (hs : ChainHistory) (handle : Nat) :
    live (hs ++ [(.unbind handle, .unbound true)]) = (live hs).filter (·.1 != handle) := by
  have haccepted : accepted [(.unbind handle, .unbound true)] = [] := rfl
  have hreleased : released [(.unbind handle, .unbound true)] = [handle] := rfl
  rw [live, accepted_append, haccepted, List.append_nil, released_append, hreleased,
    told_append fun _ => rfl, live, List.filter_map, List.filter_filter]
  congr 1
  apply List.filter_congr
  intro p _
  rw [Bool.eq_iff_iff]
  simp [told, and_comm]

theorem shownTo_run (v : LineView) (xs : List Sighting) (ended : Bool) (handle : Nat) :
    shownTo [(.run v, .shown xs ended)] handle =
      if handle ∈ xs.map (·.handle) then [v] else [] := by
  by_cases h : handle ∈ xs.map (·.handle)
  · simp only [shownTo, List.filterMap_cons, if_pos h]
    rfl
  · simp only [shownTo, List.filterMap_cons, if_neg h]
    rfl

theorem live_run (hs : ChainHistory) (v : LineView) (xs : List Sighting) (ended : Bool) :
    live (hs ++ [(.run v, .shown xs ended)]) = (live hs).map fun p =>
      (p.1, if p.1 ∈ xs.map (·.handle) then p.2.see v else p.2) := by
  have haccepted : accepted [(.run v, .shown xs ended)] = [] := rfl
  have hreleased : released [(.run v, .shown xs ended)] = [] := rfl
  rw [live, accepted_append, haccepted, List.append_nil, released_append, hreleased,
    List.append_nil, live, List.map_map]
  apply List.map_congr_left
  intro p _
  rw [told, shownTo_append, shownTo_run, Function.comp_apply, told]
  split <;> rfl

end ChainHistory

namespace ObserverChain

theorem exists_front (v : LineView) (bound : List (Nat × Observer)) : ∃ front back,
    bound = front ++ back ∧
    (showTo v bound).1 = front.map (fun p => ⟨p.1, v, p.2.endsAt v⟩) ∧
    (showTo v bound).2 = front.map (fun p => (p.1, p.2.see v)) ++ back ∧
    (∀ p ∈ front.dropLast, p.2.endsAt v = false) ∧
    ((∀ p ∈ front, p.2.endsAt v = false) → back = []) := by
  induction bound with
  | nil => exact ⟨[], [], rfl, rfl, rfl, by simp, fun _ => rfl⟩
  | cons p bound ih =>
    obtain ⟨handle, o⟩ := p
    cases hends : o.ends (v :: o.seen) with
    | true =>
      rw [showTo_of_ends hends]
      refine ⟨[(handle, o)], bound, rfl, ?_, rfl, by simp, fun hpass => ?_⟩
      · simp [Observer.endsAt, hends]
      · have hpass := hpass (handle, o) (List.mem_singleton_self _)
        rw [Observer.endsAt, hends] at hpass
        cases hpass
    | false =>
      obtain ⟨front, back, rfl, hsaid, hbound, hpass, hback⟩ := ih
      rw [showTo_of_not_ends hends]
      refine ⟨(handle, o) :: front, back, rfl, ?_, ?_, ?_, fun hall => ?_⟩
      · rw [hsaid, List.map_cons, Observer.endsAt, hends]
      · rw [hbound]
        rfl
      · cases front with
        | nil => simp
        | cons q front =>
          rw [List.dropLast_cons_cons]
          exact List.forall_mem_cons.2 ⟨hends, hpass⟩
      · exact hback fun q hq => hall q (List.mem_cons_of_mem _ hq)

theorem handles_run_eq {c : ObserverChain} {v : LineView} {front : List (Nat × Observer)}
    (h : (showTo v c.bound).1 = front.map fun p => ⟨p.1, v, p.2.endsAt v⟩) :
    (c.run v).1.map (·.handle) = front.map (·.1) := by
  rw [run, h, List.map_map]
  rfl

theorem handles_run_subset (c : ObserverChain) (v : LineView) :
    (c.run v).1.map (·.handle) ⊆ c.bound.map (·.1) := by
  obtain ⟨front, back, hsplit, hsaid, -, -, -⟩ := exists_front v c.bound
  rw [handles_run_eq hsaid, hsplit, List.map_append]
  exact List.subset_append_left _ _

theorem unbind_of_not_mem {c : ObserverChain} {handle : Nat} (h : handle ∉ c.bound.map (·.1)) :
    c.unbind handle = (false, c) := by
  have hnone : ∀ p ∈ c.bound, p.1 ≠ handle := fun p hp he => h (he ▸ List.mem_map_of_mem hp)
  have hany : (c.bound.any fun p => p.1 == handle) = false := by simpa using hnone
  have hall : (c.bound.filter fun p => p.1 != handle) = c.bound :=
    List.filter_eq_self.2 fun p hp => bne_iff_ne.2 (hnone p hp)
  rw [unbind, hany, hall]

theorem unbind_of_mem {c : ObserverChain} {handle : Nat} (h : handle ∈ c.bound.map (·.1)) :
    (c.unbind handle).1 = true := by
  simpa [unbind] using h

namespace Keeps

variable [Limits] {c : ObserverChain} {hs : ChainHistory} (h : c.Keeps hs)

include h

theorem nodup : (c.bound.map (·.1)).Nodup := by
  rw [h.bound_eq, handles_live, h.issued_eq]
  exact List.nodup_range.filter _

theorem mem_bound_iff {handle : Nat} :
    handle ∈ c.bound.map (·.1) ↔ handle ∈ issued hs ∧ handle ∉ released hs := by
  rw [h.bound_eq, handles_live, List.mem_filter, decide_eq_true_iff]

theorem lt_next {handle : Nat} (hmem : handle ∈ c.bound.map (·.1)) : handle < c.next := by
  have hissued := (h.mem_bound_iff.1 hmem).1
  rw [h.issued_eq] at hissued
  exact List.mem_range.1 hissued

theorem concat {d : ObserverChain} {x : ChainStep × ChainAnswer} (hbound : d.bound = live (hs ++ [x]))
    (hissued : List.range c.next ++ issued [x] = List.range d.next) (hnext : c.next ≤ d.next)
    (hreleased : ∀ handle ∈ released [x], handle < d.next)
    (hshown : ∀ handle, d.next ≤ handle → shownTo [x] handle = [])
    (hsize : d.size ≤ maxObservers) : d.Keeps (hs ++ [x]) where
  bound_eq := hbound
  issued_eq := by rw [issued_append, h.issued_eq, hissued]
  released_lt handle hmem := by
    rw [released_append] at hmem
    rcases List.mem_append.1 hmem with hold | hnew
    · exact Nat.lt_of_lt_of_le (h.released_lt handle hold) hnext
    · exact hreleased handle hnew
  shown_eq handle hle := by
    rw [shownTo_append, hshown handle hle, h.shown_eq handle (hnext.trans hle)]
    rfl
  size_le := hsize

theorem concat_unchanged {x : ChainStep × ChainAnswer} (haccepted : accepted [x] = [])
    (hreleased : released [x] = []) (hshown : ∀ handle, shownTo [x] handle = []) :
    c.Keeps (hs ++ [x]) := by
  refine h.concat ?_ ?_ (Nat.le_refl _) ?_ (fun handle _ => hshown handle) h.size_le
  · rw [live_append haccepted hreleased hshown, h.bound_eq]
  · rw [issued, haccepted, List.map_nil, List.append_nil]
  · simp [hreleased]

theorem concat_bind (o : Observer) (hroom : c.size < maxObservers) :
    Keeps ⟨c.bound ++ [(c.next, o)], c.next + 1⟩ (hs ++ [(.bind o, .bound (.ok c.next))]) := by
  refine h.concat ?_ List.range_succ.symm (Nat.le_succ _) (fun _ hmem => nomatch hmem)
    (fun _ _ => rfl) ?_
  -- the handle is new: no answer told that it was given up, nor that it was shown a line
  · have hfresh : c.next ∉ released hs := fun hmem => Nat.lt_irrefl _ (h.released_lt _ hmem)
    rw [live_bind hfresh (h.shown_eq _ (Nat.le_refl _)), h.bound_eq]
  · rw [size, List.length_append]
    exact hroom

theorem concat_unbind {handle : Nat} (hfound : handle ∈ c.bound.map (·.1)) :
    Keeps (c.unbind handle).2 (hs ++ [(.unbind handle, .unbound true)]) := by
  refine h.concat ?_ (List.append_nil _) (Nat.le_refl _) ?_ (fun _ _ => rfl) ?_
  · rw [live_unbind, ← h.bound_eq]
    rfl
  · intro other hmem
    obtain rfl : other = handle := List.mem_singleton.1 hmem
    exact h.lt_next hfound
  · exact Nat.le_trans (List.length_filter_le _ _) h.size_le

theorem bound_run (v : LineView) : (c.run v).2.bound = c.bound.map fun p =>
    (p.1, if p.1 ∈ (c.run v).1.map (·.handle) then p.2.see v else p.2) := by
  have hnodup := h.nodup
  obtain ⟨front, back, hsplit, hsaid, hbound, -, -⟩ := exists_front v c.bound
  have hhandles := handles_run_eq hsaid
  rw [hsplit, List.map_append, List.nodup_append] at hnodup
  -- no handle of the back is one of the front, so a handle tells on which side its observer stands
  obtain ⟨-, -, hdisjoint⟩ := hnodup
  rw [hhandles, hsplit, List.map_append]
  refine hbound.trans (congrArg₂ (· ++ ·) ?_ ?_)
  · apply List.map_congr_left
    intro p hp
    rw [if_pos (List.mem_map_of_mem hp)]
  · refine ((List.map_congr_left fun p hp => ?_).trans back.map_id).symm
    have hother : p.1 ∉ front.map (·.1) :=
      fun hmem => hdisjoint _ hmem _ (List.mem_map_of_mem hp) rfl
    rw [if_neg hother]
    rfl

theorem concat_run (v : LineView) (ended : Bool) :
    Keeps (c.run v).2 (hs ++ [(.run v, .shown (c.run v).1 ended)]) := by
  refine h.concat ?_ (List.append_nil _) (Nat.le_refl _) (fun _ hmem => nomatch hmem) ?_ ?_
  · rw [live_run, ← h.bound_eq, h.bound_run]
  · intro handle hle
    have hunknown : handle ∉ (c.run v).1.map (·.handle) :=
      fun hmem => Nat.not_le_of_lt (h.lt_next (c.handles_run_subset v hmem)) hle
    rw [shownTo_run, if_neg hunknown]
  · rw [size, h.bound_run, List.length_map]
    exact h.size_le

theorem step (s : ChainStep) : Keeps (c.step s).2 (hs ++ [(s, (c.step s).1)]) := by
  cases s with
  | bind o =>
    by_cases hfull : c.size ≥ maxObservers
    · have hbind : c.bind o = .error .observerLimit := if_pos hfull
      simp only [ObserverChain.step, hbind]
      exact h.concat_unchanged rfl rfl fun _ => rfl
    · have hbind : c.bind o = .ok (c.next, ⟨c.bound ++ [(c.next, o)], c.next + 1⟩) := if_neg hfull
      simp only [ObserverChain.step, hbind]
      exact h.concat_bind o (Nat.lt_of_not_le hfull)
  | unbind handle =>
    by_cases hmem : handle ∈ c.bound.map (·.1)
    · simp only [ObserverChain.step, unbind_of_mem hmem]
      exact h.concat_unbind hmem
    · simp only [ObserverChain.step, unbind_of_not_mem hmem]
      exact h.concat_unchanged rfl rfl fun _ => rfl
  | run v => exact h.concat_run v _

theorem steps (ss : List ChainStep) : Keeps (c.steps ss).2 (hs ++ (c.steps ss).1) := by
  induction ss generalizing c hs with
  | nil =>
    rw [ObserverChain.steps, List.append_nil]
    exact h
  | cons s ss ih =>
    have hrest := ih (h.step s)
    rwa [List.append_assoc] at hrest

theorem exists_split {handle : Nat} (hmem : handle ∈ c.bound.map (·.1)) : ∃ front o back,
    c.bound = front ++ (handle, o) :: back ∧ (c.unbind handle).2.bound = front ++ back := by
  obtain ⟨⟨handle, o⟩, hp, rfl⟩ := List.mem_map.1 hmem
  obtain ⟨front, back, hsplit⟩ := List.append_of_mem hp
  refine ⟨front, o, back, hsplit, ?_⟩
  have hnodup := h.nodup
  rw [hsplit, List.map_append, List.map_cons, List.nodup_append, List.nodup_cons] at hnodup
  obtain ⟨-, ⟨hback, -⟩, hfront⟩ := hnodup
  have hbefore : ∀ p ∈ front, (p.1 != handle) = true := fun p hp =>
    bne_iff_ne.2 (hfront _ (List.mem_map_of_mem hp) _ List.mem_cons_self)
  have hbehind : ∀ p ∈ back, (p.1 != handle) = true := fun p hp =>
    bne_iff_ne.2 (ne_of_mem_of_not_mem (List.mem_map_of_mem hp) hback)
  simp only [unbind, hsplit, List.filter_append]
  rw [List.filter_eq_self.2 hbefore, List.filter_cons_of_neg (by simp),
    List.filter_eq_self.2 hbehind]

theorem does_step (s : ChainStep) : s.Does hs c (c.step s).2 (c.step s).1 := by
  cases s with
  | bind o =>
    by_cases hfull : c.size ≥ maxObservers
    · have hbind : c.bind o = .error .observerLimit := if_pos hfull
      simp only [ObserverChain.step, hbind]
      exact .inl ⟨Nat.le_antisymm h.size_le hfull, rfl, rfl⟩
    · have hbind : c.bind o = .ok (c.next, ⟨c.bound ++ [(c.next, o)], c.next + 1⟩) := if_neg hfull
      simp only [ObserverChain.step, hbind]
      refine .inr ⟨Nat.lt_of_not_le hfull, c.next, ?_, rfl, rfl⟩
      rw [h.issued_eq]
      exact List.not_mem_range_self
  | unbind handle =>
    by_cases hmem : handle ∈ c.bound.map (·.1)
    · obtain ⟨hissued, hreleased⟩ := h.mem_bound_iff.1 hmem
      simp only [ObserverChain.step, unbind_of_mem hmem]
      exact .inl ⟨hissued, hreleased, rfl, h.exists_split hmem⟩
    · simp only [ObserverChain.step, unbind_of_not_mem hmem]
      exact .inr ⟨fun hlive => hmem (h.mem_bound_iff.2 hlive), rfl, rfl⟩
  | run v =>
    obtain ⟨front, back, hsplit, hsaid, hbound, hpass, hback⟩ := exists_front v c.bound
    have hrun : c.run v = (front.map fun p => ⟨p.1, v, p.2.endsAt v⟩,
        { c with bound := (front.map fun p => (p.1, p.2.see v)) ++ back }) := by
      rw [run, ← hsaid, ← hbound]
    simp only [ObserverChain.step, hrun]
    refine ⟨front, back, _, hsplit, rfl, ?_, hpass, fun hall => hback ?_, rfl⟩
    · simp
    · simpa using hall

end Keeps

theorem keeps_empty [Limits] : Keeps {} [] where
  bound_eq := rfl
  issued_eq := rfl
  released_lt _ hmem := by cases hmem
  shown_eq _ _ := rfl
  size_le := Nat.zero_le _

/-- Whatever is done with a chain, its bound observers are those that were accepted and not removed
since, each in its place and with the lines that it was shown; there are never too many of them, no
two were given one handle, and the next step does what it should. -/
theorem chain_of_history [Limits] {ss : List ChainStep} {hs : ChainHistory} {c : ObserverChain}
    (h : steps {} ss = (hs, c)) (hmany : (issued hs).length < 2 ^ 64) :
    c.bound = live hs ∧ c.size ≤ maxObservers ∧ (issued hs).Nodup ∧
    (∀ handle ∈ issued hs, handle < 2 ^ 64) ∧ c.next = (issued hs).length ∧
    ∀ s : ChainStep, s.Does hs c (c.step s).2 (c.step s).1 := by
  have hkeeps : Keeps c hs := by
    have hsteps := keeps_empty.steps ss
    rwa [h, List.nil_append] at hsteps
  have hlength : (issued hs).length = c.next := by rw [hkeeps.issued_eq, List.length_range]
  refine ⟨hkeeps.bound_eq, hkeeps.size_le, ?_, ?_, hlength.symm, hkeeps.does_step⟩
  · rw [hkeeps.issued_eq]
    exact List.nodup_range
  · rw [hkeeps.issued_eq]
    intro handle hmem
    exact Nat.lt_trans (List.mem_range.1 hmem) (hlength ▸ hmany)

theorem stale_handle_removes_nothing :
    let quiet : Observer := ⟨fun _ => false, []⟩
    let c := (steps {} [.bind quiet, .unbind 0, .bind quiet]).2
    c.bound = [(1, quiet)] ∧ (c.step (.unbind 0)).2 = c := by
  intro quiet c
  have hsteps : steps {} [.bind quiet, .unbind 0, .bind quiet] =
    ([(.bind quiet, .bound (.ok 0)), (.unbind 0, .unbound true), (.bind quiet, .bound (.ok 1))],
      c) := rfl
  obtain ⟨hbound, -, -, -, -, hdoes⟩ := chain_of_history hsteps (by decide)
  refine ⟨hbound, ?_⟩
  rcases hdoes (.unbind 0) with ⟨-, hlive, -⟩ | ⟨-, -, hsame⟩
  · exact absurd (List.mem_singleton_self 0) hlive
  · exact hsame

end ObserverChain

end PlatformRules
