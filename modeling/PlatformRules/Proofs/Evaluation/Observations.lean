import PlatformRules.Proofs.Evaluation.Calls
import PlatformRules.Proofs.Line.Extents
import PlatformRules.Proofs.Text.Parts

namespace PlatformRules

open Text

def Observer.see (v : LineView) (o : Observer) : Observer :=
  { o with seen := v :: o.seen }

namespace ObserverChain

variable {v : LineView} {bound : List (Nat × Observer)} {handle : Nat} {o : Observer}

def asked (xs : List Sighting) (i : Nat) : Bool :=
  (xs.take i).all (!·.ended)

theorem showTo_of_ends (h : o.ends (v :: o.seen) = true) :
    showTo v ((handle, o) :: bound) = ([⟨handle, v, true⟩], (handle, o.see v) :: bound) := by
  simp [showTo, h, Observer.see]

theorem showTo_of_not_ends (h : o.ends (v :: o.seen) = false) : showTo v ((handle, o) :: bound) =
    (⟨handle, v, false⟩ :: (showTo v bound).1, (handle, o.see v) :: (showTo v bound).2) := by
  simp [showTo, h, Observer.see]

theorem sightings_showTo (v : LineView) (bound : List (Nat × Observer)) (i : Nat) :
    (showTo v bound).1[i]? =
      if asked (showTo v bound).1 i then
        bound[i]?.map fun p => ⟨p.1, v, p.2.ends (v :: p.2.seen)⟩
      else none := by
  induction bound generalizing i with
  | nil => simp [showTo]
  | cons p bound ih =>
    obtain ⟨handle, o⟩ := p
    cases h : o.ends (v :: o.seen) with
    | true =>
      rw [showTo_of_ends h]
      cases i with
      | zero => simp [asked, h]
      | succ i => simp [asked]
    | false =>
      rw [showTo_of_not_ends h]
      cases i with
      | zero => simp [asked, h]
      | succ i => simpa [asked] using ih i

theorem bound_showTo (v : LineView) (bound : List (Nat × Observer)) : (showTo v bound).2 =
    bound.mapIdx fun i p => (p.1, if asked (showTo v bound).1 i then p.2.see v else p.2) := by
  induction bound with
  | nil => rfl
  | cons p bound ih =>
    obtain ⟨handle, o⟩ := p
    cases h : o.ends (v :: o.seen) with
    | true =>
      have hrest : bound.mapIdx (fun _ p => p) = bound := by
        apply List.ext_getElem?
        simp
      simp [showTo_of_ends h, List.mapIdx_cons, asked, hrest]
    | false =>
      rw [showTo_of_not_ends h, List.mapIdx_cons]
      simpa [asked] using ih

theorem length_showTo (h : ∀ x ∈ (showTo v bound).1, x.ended = false) :
    (showTo v bound).1.length = bound.length := by
  induction bound with
  | nil => rfl
  | cons p bound ih =>
    obtain ⟨handle, o⟩ := p
    cases hends : o.ends (v :: o.seen) with
    | true =>
      rw [showTo_of_ends hends] at h
      exact absurd (h ⟨handle, v, true⟩ (by simp)) (by simp)
    | false =>
      rw [showTo_of_not_ends hends] at h ⊢
      rw [List.length_cons, List.length_cons, ih fun x hx => h x (List.mem_cons_of_mem _ hx)]

end ObserverChain

structure Scene where
  view : LineView
  sightings : List Sighting
  calls : List Call

namespace Scene

def asks (i : Nat) (x : Scene) : Bool :=
  ObserverChain.asked x.sightings i

def Passes (n : Nat) (x : Scene) : Prop :=
  x.sightings.length = n ∧ ∀ y ∈ x.sightings, y.ended = false

variable [Limits]

structure IsOf (x : Scene) (l : SourceLine) : Prop where
  view : ∃ r, Document.readLine l.text = .ok r ∧ x.view = l.view r
  calls : x.calls = [] ∨ ∃ call, x.calls = [call] ∧
    Written (.action call.name.toList call.argument.toList) (trim l.text)

end Scene

def Observer.after (i : Nat) (scenes : List Scene) (o : Observer) : Observer :=
  { o with seen := ((scenes.filter (·.asks i)).map (·.view)).reverse ++ o.seen }

theorem Observer.after_concat (i : Nat) (scenes : List Scene) (x : Scene) (o : Observer) :
    o.after i (scenes ++ [x]) =
      if x.asks i then (o.after i scenes).see x.view else o.after i scenes := by
  cases h : x.asks i <;> simp [after, see, h]

/-- From observers `bound` to `bound'`: in each scene, an observer is asked if all in front of it
let the line pass, and answers from the lines for which it was asked before. -/
structure Recorded (bound bound' : List (Nat × Observer)) (sightings : List Sighting)
    (calls : List Call) (scenes : List Scene) : Prop where
  bound_eq : bound' = bound.mapIdx fun i p => (p.1, p.2.after i scenes)
  sightings_eq : sightings = scenes.flatMap (·.sightings)
  calls_eq : calls = scenes.flatMap (·.calls)
  asked (k : Nat) (x : Scene) (hx : scenes[k]? = some x) (i : Nat) : x.sightings[i]? =
    if x.asks i then
      bound[i]?.map fun p =>
        (⟨p.1, x.view, p.2.ends (x.view :: (p.2.after i (scenes.take k)).seen)⟩ : Sighting)
    else none

namespace Recorded

variable {bound bound' : List (Nat × Observer)} {sightings : List Sighting} {calls : List Call}
  {scenes : List Scene}

theorem nil (bound : List (Nat × Observer)) : Recorded bound bound [] [] [] where
  bound_eq := by
    apply List.ext_getElem?
    simp [Observer.after]
  sightings_eq := rfl
  calls_eq := rfl
  asked := by simp

theorem concat (h : Recorded bound bound' sightings calls scenes) (v : LineView) (new : List Call) :
    Recorded bound (ObserverChain.showTo v bound').2
      (sightings ++ (ObserverChain.showTo v bound').1) (calls ++ new)
      (scenes ++ [⟨v, (ObserverChain.showTo v bound').1, new⟩]) where
  bound_eq := by
    rw [ObserverChain.bound_showTo, h.bound_eq, List.mapIdx_mapIdx]
    simp only [Function.comp_def, Observer.after_concat]
    rfl
  sightings_eq := by simp [h.sightings_eq]
  calls_eq := by simp [h.calls_eq]
  asked := by
    intro k x hx i
    by_cases hk : k < scenes.length
    · rw [List.getElem?_append_left hk] at hx
      rw [List.take_append_of_le_length (Nat.le_of_lt hk)]
      exact h.asked k x hx i
    · obtain rfl : k = scenes.length := by
        have := (List.getElem?_eq_some_iff.1 hx).1
        simp at this
        omega
      obtain rfl : _ = x := by simpa using hx
      have hbound : bound'[i]? = bound[i]?.map fun p => (p.1, p.2.after i scenes) := by
        rw [h.bound_eq, List.getElem?_mapIdx]
      rw [List.take_left, ObserverChain.sightings_showTo, hbound, Option.map_map]
      rfl

theorem head?_eq (h : Recorded bound bound' sightings calls scenes) : bound'.head? =
    bound.head?.map fun p =>
      (p.1, { p.2 with seen := (scenes.map (·.view)).reverse ++ p.2.seen }) := by
  have hall : scenes.filter (Scene.asks 0) = scenes := by
    apply List.filter_eq_self.2
    simp [Scene.asks, ObserverChain.asked]
  rw [h.bound_eq, List.head?_eq_getElem?, List.getElem?_mapIdx, ← List.head?_eq_getElem?]
  simp only [Observer.after, hall]

end Recorded

structure LineView.IsFaithful (text : List Char) (v : LineView) : Prop where
  stands : StandsIn text ⟨v.number, v.offset, v.text⟩
  not_mem : '\n' ∉ v.text
  inside : ∀ t ∈ v.line.tokens, t.IsInside v.text

namespace Evaluation

variable {m : Machine} {s : RunState} {l : SourceLine} {bound : List (Nat × Observer)}
  {scenes : List Scene}

def Records (bound : List (Nat × Observer)) (s : RunState) (scenes : List Scene) : Prop :=
  Recorded bound s.chain.bound s.sightings.reverse s.calls.reverse scenes

theorem Records.atLine (h : Records bound s scenes) (l : SourceLine) (r : ReadLine) :
    Records bound (atLine s l r) (scenes ++ [⟨l.view r, (s.chain.run (l.view r)).1, []⟩]) := by
  have hscene := h.concat (l.view r) []
  simpa [Records, Evaluation.atLine, shown, ObserverChain.run] using hscene

theorem Records.called (h : Records bound s scenes) (l : SourceLine) (r : ReadLine)
    (call : Call) (c : Callback) : Records bound (called (Evaluation.atLine s l r) call c)
      (scenes ++ [⟨l.view r, (s.chain.run (l.view r)).1, [call]⟩]) := by
  have hscene := h.concat (l.view r) [call]
  simpa [Records, Evaluation.called, Evaluation.atLine, shown, ObserverChain.run] using hscene

theorem Records.passes {r : ReadLine} (h : Records bound s scenes)
    (hpass : ∀ y ∈ (s.chain.run (l.view r)).1, y.ended = false) (calls : List Call) :
    Scene.Passes bound.length ⟨l.view r, (s.chain.run (l.view r)).1, calls⟩ := by
  have hbound := congrArg List.length h.bound_eq
  rw [List.length_mapIdx] at hbound
  exact ⟨(ObserverChain.length_showTo hpass).trans hbound, hpass⟩

variable [Limits]

theorem visit_scene {r : ReadLine} (h : Records bound s scenes) (hblank : l.isBlank = false)
    (hread : Document.readLine l.text = .ok r) :
    ∃ x e, visit m s l = outcome e ∧ Scene.IsOf x l ∧ Records bound e.2 (scenes ++ [x]) ∧
      (x.calls = [] ∧ e.1 = some (.ok none) ∨ x.Passes bound.length ∧
        ∀ value, e.1 = some (.ok (some value)) →
          ∃ f, Written (.path .returns f value.toList) (trim l.text) ∧ f.Denotes m) := by
  by_cases hend : ∃ y ∈ (s.chain.run (l.view r)).1, y.ended = true
  · obtain ⟨y, hy, hend⟩ := hend
    exact ⟨_, (some (.ok none), atLine s l r), visit_of_ended hblank hread hy hend,
      ⟨⟨r, hread, rfl⟩, .inl rfl⟩, h.atLine l r, .inl ⟨rfl, rfl⟩⟩
  · have hpass : ∀ y ∈ (s.chain.run (l.view r)).1, y.ended = false := by
      simpa using hend
    obtain ⟨st, hst⟩ := Document.exists_written hread
    have hvisit := visit_of_passed (m := m) hblank hread hst hpass
    have hpath : ∀ value, (st.effect m (atLine s l r)).1 = some (.ok (some value)) →
        ∃ f, Written (.path .returns f value.toList) (trim l.text) ∧ f.Denotes m := by
      intro value hvalue
      obtain ⟨f, rfl, hf⟩ := exists_of_effect_eq_value (Statement.isLegal_of_written hst) hvalue
      exact ⟨f, hst, hf⟩
    rcases effect_cases m (atLine s l r) st with hsame | ⟨call, c, rfl, -, hcall⟩
    · have hrecords := h.atLine l r
      rw [← hsame] at hrecords
      exact ⟨_, _, hvisit, ⟨⟨r, hread, rfl⟩, .inl rfl⟩, hrecords,
        .inr ⟨h.passes hpass _, hpath⟩⟩
    · rw [hcall] at hvisit hpath
      exact ⟨_, _, hvisit, ⟨⟨r, hread, rfl⟩, .inr ⟨call, rfl, hst⟩⟩, h.called l r call c,
        .inr ⟨h.passes hpass _, hpath⟩⟩

theorem exists_scenes {ls : List SourceLine} {t : RunState} (hs : Records bound s [])
    (h : ls.foldlM (visit m) s = .ok t) : ∃ scenes,
      List.Forall₂ Scene.IsOf scenes (ls.filter (!·.isBlank)) ∧ Records bound t scenes ∧
        ∀ x ∈ scenes, x.Passes bound.length := by
  refine foldlM_induction (P := fun before u => ∃ scenes,
    List.Forall₂ Scene.IsOf scenes (before.filter (!·.isBlank)) ∧ Records bound u scenes ∧
      ∀ x ∈ scenes, x.Passes bound.length) ⟨[], .nil, hs, by simp⟩ ?_ h
  -- A blank line adds no scene, and any other that does not end the run adds one that passes.
  rintro before l after u v - - ⟨scenes, hscenes, hu, hpass⟩ hv
  rw [List.filter_append]
  cases hblank : l.isBlank with
  | true =>
    rw [visit_of_blank hblank] at hv
    obtain rfl := Except.ok.inj hv
    refine ⟨scenes, ?_, hu, hpass⟩
    simpa [hblank] using hscenes
  | false =>
    cases hread : Document.readLine l.text with
    | error cause =>
      rw [visit_of_error hblank hread] at hv
      simp at hv
    | ok r =>
      obtain ⟨x, ⟨effect, w⟩, hvisit, hx, hw, hends⟩ := visit_scene (m := m) hu hblank hread
      rw [hv] at hvisit
      cases effect with
      | some verdict => simp [outcome] at hvisit
      | none =>
        obtain rfl : v = w := Except.ok.inj hvisit
        refine ⟨scenes ++ [x], ?_, hw, ?_⟩
        · simpa [hblank] using List.rel_append hscenes (.cons hx .nil)
        · intro y hy
          rcases List.mem_append.1 hy with hy | hy
          · exact hpass y hy
          · obtain rfl := List.mem_singleton.1 hy
            rcases hends with ⟨-, hends⟩ | ⟨hends, -⟩
            · simp at hends
            · exact hends

/-- How a run ends: behind its last line, at a line that was shown, or in front of one that cannot
be read. The lines of `reached` and no others got their turn. -/
inductive Stops (m : Machine) (s : RunState) :
    Verdict → (reached after : List SourceLine) → Prop
  | passed {reached : List SourceLine} {t : RunState} (h : reached.foldlM (visit m) s = .ok t) :
    Stops m s (.ok none) reached []
  | decided {before after : List SourceLine} {l : SourceLine} {r : ReadLine} {t u : RunState}
    {verdict : Verdict} (h : before.foldlM (visit m) s = .ok t)
    (hread : Document.readLine l.text = .ok r) (hl : visit m t l = .error (verdict, u)) :
    Stops m s verdict (before ++ [l]) after
  | refused {reached after : List SourceLine} {l : SourceLine} {t : RunState} {cause : LineError}
    (h : reached.foldlM (visit m) s = .ok t) (hblank : l.isBlank = false)
    (hread : Document.readLine l.text = .error cause) :
    Stops m s (.error (.syntaxError l.number cause)) reached (l :: after)

theorem exists_scenes_of_run (hs : Records bound s []) (ls : List SourceLine) :
    let r := ending (ls.foldlM (visit m) s)
    ∃ reached after scenes, ls = reached ++ after ∧ Stops m s r.1 reached after ∧
      List.Forall₂ Scene.IsOf scenes (reached.filter (!·.isBlank)) ∧ Records bound r.2 scenes ∧
      (∀ x ∈ scenes, x.Passes bound.length ∨
        scenes.getLast? = some x ∧ x.calls = [] ∧ r.1 = .ok none) ∧
      ∀ value, r.1 = .ok (some value) → ∃ x ∈ scenes.getLast?, x.Passes bound.length ∧
        ∃ f, Written (.path .returns f value.toList) (trim x.view.text) ∧ f.Denotes m := by
  intro r
  cases hfold : ls.foldlM (visit m) s with
  | ok t =>
    have hr : r = (.ok none, t) := congrArg ending hfold
    obtain ⟨scenes, hscenes, ht, hpass⟩ := exists_scenes hs hfold
    rw [hr]
    exact ⟨ls, [], scenes, by simp, .passed hfold, hscenes, ht, fun x hx => .inl (hpass x hx),
      by simp⟩
  | error ended =>
    have hr : r = ended := congrArg ending hfold
    obtain ⟨before, l, after, t, rfl, hbefore, hl⟩ := foldlM_eq_error_iff.1 hfold
    obtain ⟨scenes, hscenes, ht, hpass⟩ := exists_scenes hs hbefore
    have hblank : l.isBlank = false := by
      by_contra h
      rw [visit_of_blank (by simpa using h)] at hl
      simp at hl
    rw [hr]
    cases hread : Document.readLine l.text with
    | error cause =>
      -- The line is refused before it is shown, so that it is none of the scenes.
      rw [visit_of_error hblank hread] at hl
      obtain rfl := Except.error.inj hl
      exact ⟨before, l :: after, scenes, rfl, .refused hbefore hblank hread, hscenes, ht,
        fun x hx => .inl (hpass x hx), by simp⟩
    | ok r =>
      obtain ⟨x, ⟨effect, u⟩, hvisit, hx, hu, hends⟩ := visit_scene (m := m) ht hblank hread
      cases effect with
      | none => simp [hl, outcome] at hvisit
      | some verdict =>
        obtain rfl : ended = (verdict, u) := Except.error.inj (hl.symm.trans hvisit)
        refine ⟨before ++ [l], after, scenes ++ [x], by simp, .decided hbefore hread hl, ?_, hu, ?_,
          ?_⟩
        · rw [List.filter_append]
          simpa [hblank] using List.rel_append hscenes (.cons hx .nil)
        · intro y hy
          rcases List.mem_append.1 hy with hy | hy
          · exact .inl (hpass y hy)
          · obtain rfl := List.mem_singleton.1 hy
            rcases hends with ⟨hcalls, hends⟩ | ⟨hends, -⟩
            · exact .inr ⟨by simp, hcalls, Option.some.inj hends⟩
            · exact .inl hends
        · rintro value (rfl : verdict = _)
          obtain ⟨r', hread', hview⟩ := hx.view
          rcases hends with ⟨-, hends⟩ | ⟨hends, hvalue⟩
          · simp at hends
          · refine ⟨x, by simp, hends, ?_⟩
            rw [hview]
            exact hvalue value rfl

end Evaluation

namespace Evaluator

open Evaluation

theorem isFaithful_of_isOf [Limits] {text : List Char} {x : Scene} {l : SourceLine}
    (hl : l ∈ lines text) (h : x.IsOf l) : x.view.IsFaithful text := by
  obtain ⟨r, hread, hview⟩ := h.view
  rw [hview]
  exact ⟨standsIn_lines l hl, not_mem_lines text l hl, Document.isInside_of_readLine hread⟩

/-- The observers are shown the lines that are reached, as they stand in the document, and a line
takes effect when all of them have let it pass. -/
theorem evaluate_scenes [Limits] {e : Evaluator} (hsize : e.document.utf8ByteSize ≤ maxDocumentSize)
    (m : Machine) :
    let r := e.evaluate m
    ∃ reached after scenes, lines e.document.toList = reached ++ after ∧
      Stops m e.start r.1.verdict reached after ∧
      List.Forall₂ Scene.IsOf scenes (reached.filter (!·.isBlank)) ∧
      (∀ x ∈ scenes, x.view.IsFaithful e.document.toList) ∧
      Recorded e.chain.bound r.2.chain.bound r.1.sightings r.1.calls scenes ∧
      (r.2.chain.bound.head? = e.chain.bound.head?.map fun p =>
        (p.1, { p.2 with seen := (scenes.map (·.view)).reverse ++ p.2.seen })) ∧
      (∀ x ∈ scenes, x.Passes e.chain.bound.length ∨
        scenes.getLast? = some x ∧ x.calls = [] ∧ r.1.verdict = .ok none) ∧
      ∀ value, r.1.verdict = .ok (some value) →
        ∃ x ∈ scenes.getLast?, x.Passes e.chain.bound.length ∧
          ∃ f, Written (.path .returns f value.toList) (trim x.view.text) ∧ f.Denotes m := by
  intro r
  have hr : r = e.conclude _ := evaluate_of_size hsize
  have hstart : Records e.chain.bound e.start [] := .nil _
  obtain ⟨reached, after, scenes, hlines, hstops, hscenes, hrecords, hpass, hvalue⟩ :=
    exists_scenes_of_run (m := m) hstart (lines e.document.toList)
  rw [← run_eq] at hstops hrecords hpass hvalue
  rw [hr]
  refine ⟨reached, after, scenes, hlines, hstops, hscenes, ?_, hrecords, hrecords.head?_eq, hpass,
    hvalue⟩
  intro x hx
  obtain ⟨i, hi, rfl⟩ := List.getElem_of_mem hx
  have hi' : i < (reached.filter (!·.isBlank)).length := hscenes.length_eq ▸ hi
  have hmem : (reached.filter (!·.isBlank))[i] ∈ lines e.document.toList := by
    rw [hlines]
    exact List.mem_append_left _ (List.mem_of_mem_filter (List.getElem_mem hi'))
  exact isFaithful_of_isOf hmem (hscenes.get hi hi')

theorem evaluate_scenes_two :
    let e : Evaluator :=
      { document := "# a\n\n@Void\r\n-> \"x\""
        chain := ⟨[(0, { ends := fun _ => false }), (1, { ends := fun vs => vs.length == 2 })], 2⟩ }
    let r := e.evaluate {}
    r.1.sightings.map (fun y => (y.handle, y.view.number, y.ended)) =
        [(0, 1, false), (1, 1, false), (0, 3, false), (1, 3, true)] ∧
      ∃ scenes : List Scene, (∀ x ∈ scenes, x.view.IsFaithful e.document.toList) ∧
        Recorded e.chain.bound r.2.chain.bound r.1.sightings r.1.calls scenes := by
  intro e r
  obtain ⟨reached, after, scenes, -, -, -, hfaithful, hrecorded, -⟩ :=
    evaluate_scenes (e := e) (by decide) {}
  exact ⟨by decide, scenes, hfaithful, hrecorded⟩

end Evaluator

end PlatformRules
