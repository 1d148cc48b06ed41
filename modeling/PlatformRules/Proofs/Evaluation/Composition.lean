import PlatformRules.Proofs.Evaluation.Chains
import PlatformRules.Proofs.Evaluation.Decisions
import PlatformRules.Proofs.Text.Lines

namespace PlatformRules

open Text

def LineView.shift (lines bytes : Nat) (v : LineView) : LineView :=
  { v with number := v.number + lines, offset := v.offset + bytes }

def LineView.content (v : LineView) : Line × List Char :=
  (v.line, v.text)

def Sighting.shift (lines bytes : Nat) (x : Sighting) : Sighting :=
  { x with view := x.view.shift lines bytes }

def DocumentError.shift (lines : Nat) : DocumentError → DocumentError
  | syntaxError line cause => syntaxError (line + lines) cause
  | e => e

def Verdict.shift (lines : Nat) : Verdict → Verdict
  | .ok selection => .ok selection
  | .error e => .error (e.shift lines)

namespace ObserverChain

structure Alike (c d : ObserverChain) : Prop where
  next : c.next = d.next
  bound : AllAlikeThrough (·.content) c.bound d.bound

theorem run_shift (lines bytes : Nat) (v : LineView) {c d : ObserverChain} (h : c.Alike d) :
    (c.run (v.shift lines bytes)).1 = (d.run v).1.map (·.shift lines bytes) ∧
      (c.run (v.shift lines bytes)).2.Alike (d.run v).2 := by
  have hview : (v.shift lines bytes).content = v.content := rfl
  obtain ⟨⟨said, hc, hd⟩, hbound⟩ := run_through hview h.bound
  refine ⟨?_, ⟨h.next, hbound⟩⟩
  rw [hc, hd, List.map_map]
  rfl

end ObserverChain

namespace Evaluation

structure Follows (lines bytes : Nat) (start s t : RunState) : Prop where
  registry : s.registry = t.registry
  chain : s.chain.Alike t.chain
  line : s.line = (t.line.map (·.shift lines bytes)).or start.line
  calls : s.calls = t.calls ++ start.calls
  sightings : s.sightings = t.sightings.map (·.shift lines bytes) ++ start.sightings

variable {m : Machine} {lines bytes : Nat} {start s t : RunState}

theorem shift_callRegistered (s : RunState) (name argument : String) :
    (callRegistered s name argument).1.map (Verdict.shift lines) =
      (callRegistered s name argument).1 := by
  unfold callRegistered
  cases s.registry.invoke? name argument with
  | none => rfl
  | some r =>
    obtain ⟨answer, registry⟩ := r
    cases answer with
    | reply r => cases r <;> rfl
    | raised message => rfl
    | unknownCode code => rfl

theorem shift_callAction (s : RunState) (name argument : String) :
    (callAction s name argument).1.map (Verdict.shift lines) = (callAction s name argument).1 := by
  unfold callAction
  split
  · rfl
  · split
    · rfl
    · split
      · rfl
      · exact shift_callRegistered s name argument

theorem shift_followPath (m : Machine) (p : LogicPath) :
    (followPath m p).map (Verdict.shift lines) = followPath m p := by
  unfold followPath
  split
  · cases p.operator <;> rfl
  · rfl

theorem dispatch_shift (m : Machine) (v : LineView) (s : RunState) :
    dispatch m (v.shift lines bytes) s =
      ((dispatch m v s).1.map (Verdict.shift lines), (dispatch m v s).2) := by
  have hline : (v.shift lines bytes).line = v.line := rfl
  have htext : (v.shift lines bytes).text = v.text := rfl
  have htoken (i : Nat) : (v.shift lines bytes).tokenText i = v.tokenText i := rfl
  unfold dispatch
  rw [hline, htext, htoken, htoken]
  split
  · rfl
  · rfl
  · exact Prod.ext (shift_callAction ..).symm rfl
  · split
    · exact Prod.ext (shift_followPath ..).symm rfl
    · rfl
  · split
    · exact Prod.ext (shift_followPath ..).symm rfl
    · rfl
  · split
    · rfl
    · rfl

theorem Follows.onto (h : Follows lines bytes start s t) (r : Effect × RunState) :
    Follows lines bytes start (onto s r).2 (onto t r).2 where
  registry := rfl
  chain := h.chain
  line := h.line
  calls := by
    simp only [Evaluation.onto, h.calls, List.append_assoc]
  sightings := h.sightings

theorem dispatch_follows (h : Follows lines bytes start s t) (v : LineView) :
    (dispatch m (v.shift lines bytes) s).1 = (dispatch m v t).1.map (Verdict.shift lines) ∧
      Follows lines bytes start (dispatch m (v.shift lines bytes) s).2 (dispatch m v t).2 := by
  rw [dispatch_shift, dispatch_eq_onto m v s, dispatch_eq_onto m v t, h.registry]
  exact ⟨rfl, h.onto _⟩

theorem shown_follows (h : Follows lines bytes start s t) (v : LineView) :
    Follows lines bytes start (shown s (v.shift lines bytes)) (shown t v) := by
  obtain ⟨hsightings, hchain⟩ := ObserverChain.run_shift lines bytes v h.chain
  refine ⟨h.registry, hchain, h.line, h.calls, ?_⟩
  simp only [shown, hsightings, h.sightings, List.map_append, List.map_reverse, List.append_assoc]

theorem showLine_follows (h : Follows lines bytes start s t) (v : LineView) :
    (showLine m (v.shift lines bytes) s).1 = (showLine m v t).1.map (Verdict.shift lines) ∧
      Follows lines bytes start (showLine m (v.shift lines bytes) s).2 (showLine m v t).2 := by
  obtain ⟨hsightings, -⟩ := ObserverChain.run_shift lines bytes v h.chain
  have hany : (s.chain.run (v.shift lines bytes)).1.any (·.ended) =
      (t.chain.run v).1.any (·.ended) := by
    rw [hsightings, List.any_map]
    rfl
  have hshown := shown_follows h v
  rw [showLine_eq, showLine_eq, hany]
  split
  · exact ⟨rfl, hshown⟩
  · exact dispatch_follows hshown v

def EndsAlike (lines bytes : Nat) (start : RunState) : Verdict × RunState → Verdict × RunState → Prop :=
  EndsBy (Verdict.shift lines) (Follows lines bytes start)

theorem Follows.reach (h : Follows lines bytes start s t) (l : SourceLine) :
    Follows lines bytes start { s with line := some (l.shift lines bytes) }
      { t with line := some l } :=
  ⟨h.registry, h.chain, rfl, h.calls, h.sightings⟩

variable [Limits]

theorem visit_follows (h : Follows lines bytes start s t) (l : SourceLine) :
    Except.Related (EndsAlike lines bytes start) (Follows lines bytes start)
      (visit m s (l.shift lines bytes)) (visit m t l) := by
  have hreach := h.reach l
  cases hblank : l.isBlank with
  | true =>
    rw [visit_of_blank hblank, visit_of_blank (l := l.shift lines bytes) hblank]
    exact hreach
  | false =>
    cases hread : Document.readLine l.text with
    | error e =>
      rw [visit_of_error hblank hread, visit_of_error (l := l.shift lines bytes) hblank hread]
      exact ⟨rfl, hreach⟩
    | ok r =>
      rw [visit_of_read hblank hread, visit_of_read (l := l.shift lines bytes) hblank hread]
      obtain ⟨heffect, hfollows⟩ :=
        showLine_follows hreach (⟨l.offset, l.number, r.line, l.text⟩ : LineView)
      exact outcome_related heffect hfollows

theorem foldlM_follows (hobservers : ∀ x ∈ start.chain.bound, x.2.LooksThrough (·.content))
    (ls : List SourceLine) : Except.Related (EndsAlike lines bytes start)
      (Follows lines bytes start)
      ((ls.map (·.shift lines bytes)).foldlM (visit m) start)
      (ls.foldlM (visit m) { registry := start.registry, chain := start.chain }) := by
  have hstart : Follows lines bytes start start
      { registry := start.registry, chain := start.chain } :=
    ⟨rfl, ⟨rfl, ObserverChain.allAlikeThrough_self hobservers⟩, rfl, rfl, rfl⟩
  have hlines : List.Forall₂ (fun x y : SourceLine => x = y.shift lines bytes)
      (ls.map (·.shift lines bytes)) ls := by
    rw [List.forall₂_map_left_iff, List.forall₂_same]
    exact fun _ _ => rfl
  apply foldlM_related _ hlines hstart
  rintro s t _ l hst rfl
  exact visit_follows hst l

theorem looksThrough_of_foldlM {ls : List SourceLine} {s₁ : RunState}
    (hobservers : ∀ x ∈ s.chain.bound, x.2.LooksThrough (·.content))
    (h : ls.foldlM (visit m) s = .ok s₁) :
    ∀ x ∈ s₁.chain.bound, x.2.LooksThrough (·.content) := by
  have hrelated : Except.Related (EndsAlike 0 0 s) (Follows 0 0 s)
      ((ls.map (·.shift 0 0)).foldlM (visit m) s) _ := foldlM_follows hobservers ls
  have hmap : ls.map (·.shift 0 0) = ls := List.map_id ls
  rw [hmap, h] at hrelated
  cases hother : ls.foldlM (visit m) { registry := s.registry, chain := s.chain } with
  | error ended => simp [hother, Except.Related] at hrelated
  | ok t =>
    rw [hother] at hrelated
    exact hrelated.chain.bound.looksThrough

omit [Limits] in
theorem line_showLine (m : Machine) (v : LineView) (s : RunState) :
    (showLine m v s).2.line = s.line := by
  rw [showLine_eq]
  split
  · rfl
  · rw [dispatch_eq_onto]
    rfl

theorem line_of_visit_eq_error {l : SourceLine} {ended : Verdict × RunState}
    (h : visit m s l = .error ended) : ended.2.line = some l := by
  cases hblank : l.isBlank with
  | true => simp [visit_of_blank hblank] at h
  | false =>
    cases hread : Document.readLine l.text with
    | error e =>
      rw [visit_of_error hblank hread] at h
      obtain rfl := Except.error.inj h
      rfl
    | ok r =>
      rw [visit_of_read hblank hread] at h
      have hline := line_showLine m ⟨l.offset, l.number, r.line, l.text⟩ { s with line := some l }
      generalize showLine m _ _ = shown at h hline
      obtain ⟨effect, t⟩ := shown
      cases effect with
      | none => simp [outcome] at h
      | some verdict =>
        obtain rfl := Except.error.inj h
        exact hline

def EndedWithin (m : Machine) (text : List Char) (s : RunState) : Prop :=
  ∃ before l after t, Text.lines text = before ++ l :: after ∧
    before.foldlM (visit m) s = .ok t ∧ Decides m t l

theorem endedWithin_iff {text : List Char} : EndedWithin m text s ↔
    ∃ ended, (Text.lines text).foldlM (visit m) s = .error ended := by
  constructor
  · rintro ⟨before, l, after, t, hlines, hbefore, hl⟩
    obtain ⟨ended, hvisit⟩ := visit_ends_iff.2 hl
    exact ⟨ended, foldlM_eq_error_iff.2 ⟨before, l, after, t, hlines, hbefore, hvisit⟩⟩
  · rintro ⟨ended, h⟩
    obtain ⟨before, l, after, t, hlines, hbefore, hvisit⟩ := foldlM_eq_error_iff.1 h
    exact ⟨before, l, after, t, hlines, hbefore, visit_ends_iff.1 ⟨ended, hvisit⟩⟩

theorem exists_line_of_match {ls : List SourceLine} {value : String}
    (h : (ending (ls.foldlM (visit m) s)).1 = .ok (some value)) :
    ∃ l, (ending (ls.foldlM (visit m) s)).2.line = some l := by
  cases hrun : ls.foldlM (visit m) s with
  | ok t => simp [hrun, ending] at h
  | error ended =>
    obtain ⟨before, l, after, t, -, -, hvisit⟩ := foldlM_eq_error_iff.1 hrun
    exact ⟨l, line_of_visit_eq_error hvisit⟩

end Evaluation

namespace Evaluator

open Evaluation

def on (e : Evaluator) (text : List Char) : Evaluator :=
  { e with document := String.ofList text }

/-- `r` is the evaluation of two documents of which the first, with the result `r₁`, does not decide,
and the second gives `r₂` in the state that the first leaves. -/
structure Continues (lines bytes : Nat) (r₁ r₂ r : Report × Evaluator) : Prop where
  verdict : r.1.verdict = r₂.1.verdict.shift lines
  matchedLine : r.2.matchedLine = r₂.2.matchedLine.map (· + lines)
  line : r.1.line = (r₂.1.line.map (·.shift lines bytes)).or r₁.1.line
  calls : r.1.calls = r₁.1.calls ++ r₂.1.calls
  sightings : r.1.sightings = r₁.1.sightings ++ r₂.1.sightings.map (·.shift lines bytes)
  registry : r.2.registry = r₂.2.registry
  chain : r.2.chain.Alike r₂.2.chain

section

variable [Limits] {e : Evaluator} {m : Machine} {d d₁ d₂ : List Char}

theorem evaluate_on (h : byteLength d ≤ maxDocumentSize) : (e.on d).evaluate m =
    (e.on d).conclude (ending ((Text.lines d).foldlM (visit m) e.start)) := by
  have hsize : (e.on d).document.utf8ByteSize ≤ maxDocumentSize := by
    rw [on, utf8ByteSize_ofList]
    exact h
  rw [evaluate_of_size hsize, run_eq, on, String.toList_ofList]
  rfl

theorem evaluate_append_of_ended (hwhole : IsWhole d₁)
    (hsize : byteLength (d₁ ++ d₂) ≤ maxDocumentSize) {ended : Verdict × RunState}
    (hended : (Text.lines d₁).foldlM (visit m) e.start = .error ended) :
    (e.on (d₁ ++ d₂)).evaluate m =
      (((e.on d₁).evaluate m).1, ((e.on d₁).evaluate m).2.on (d₁ ++ d₂)) := by
  have hsize₁ : byteLength d₁ ≤ maxDocumentSize := by
    rw [byteLength_append] at hsize
    omega
  have hboth : (Text.lines (d₁ ++ d₂)).foldlM (visit m) e.start = .error ended := by
    rw [lines_append hwhole, List.foldlM_append, hended]
    rfl
  rw [evaluate_on hsize₁, evaluate_on hsize, hended, hboth]
  rfl

omit [Limits] in
theorem matched_follows {r₁ r₂ : Verdict × RunState} {lines bytes : Nat} {s : RunState}
    (h : EndsAlike lines bytes s r₁ r₂)
    (hline : ∀ value, r₂.1 = .ok (some value) → ∃ l, r₂.2.line = some l) :
    matched r₁.1 r₁.2 = (matched r₂.1 r₂.2).map (· + lines) := by
  obtain ⟨hverdict, hfollows⟩ := h
  rw [hverdict]
  cases hv : r₂.1 with
  | error e => rfl
  | ok selection =>
    cases selection with
    | none => rfl
    | some value =>
      obtain ⟨l, hl⟩ := hline value hv
      simp only [Verdict.shift, matched, hfollows.line, hl]
      rfl

omit [Limits] in
theorem continues_conclude {e₁ e₂ e₃ : Evaluator} {r₂ r : Verdict × RunState}
    {lines bytes : Nat} {s : RunState} (h : EndsAlike lines bytes s r r₂)
    (hline : ∀ value, r₂.1 = .ok (some value) → ∃ l, r₂.2.line = some l) :
    Continues lines bytes (e₁.conclude (.ok none, s)) (e₂.conclude r₂) (e₃.conclude r) := by
  have hmatched := matched_follows h hline
  obtain ⟨hverdict, hfollows⟩ := h
  refine ⟨hverdict, hmatched, hfollows.line, ?_, ?_, hfollows.registry, hfollows.chain⟩
  · simp only [conclude, hfollows.calls, List.reverse_append]
  · simp only [conclude, hfollows.sightings, List.reverse_append, List.map_reverse]

theorem continues_of_not_ended (hwhole : IsWhole d₁)
    (hsize : byteLength (d₁ ++ d₂) ≤ maxDocumentSize)
    (hobservers : ∀ x ∈ e.chain.bound, x.2.LooksThrough (·.content)) {s₁ : RunState}
    (hended : (Text.lines d₁).foldlM (visit m) e.start = .ok s₁) :
    Continues (Text.lines d₁).length (byteLength d₁) ((e.on d₁).evaluate m)
      ((((e.on d₁).evaluate m).2.on d₂).evaluate m) ((e.on (d₁ ++ d₂)).evaluate m) := by
  have hsizes := hsize
  rw [byteLength_append] at hsizes
  have hobservers₁ := looksThrough_of_foldlM hobservers hended
  have hboth : (Text.lines (d₁ ++ d₂)).foldlM (visit m) e.start =
      ((Text.lines d₂).map
        (·.shift (Text.lines d₁).length (byteLength d₁))).foldlM (visit m) s₁ := by
    rw [lines_append hwhole, List.foldlM_append, hended]
    rfl
  have hsize₁ : byteLength d₁ ≤ maxDocumentSize := by omega
  have hsize₂ : byteLength d₂ ≤ maxDocumentSize := by omega
  rw [evaluate_on hsize₁, evaluate_on hsize₂, evaluate_on hsize, hended, hboth]
  apply continues_conclude
  · exact ending_related rfl (foldlM_follows hobservers₁ (Text.lines d₂))
  · intro value hvalue
    exact exists_line_of_match hvalue

/-- Evaluation goes line by line: either a line of the first document decides, whatever stands
behind it, or the second document is evaluated in the state that the first leaves. -/
theorem evaluate_append (hwhole : IsWhole d₁) (hsize : byteLength (d₁ ++ d₂) ≤ maxDocumentSize)
    (hobservers : ∀ x ∈ e.chain.bound, x.2.LooksThrough (·.content)) :
    let r₁ := (e.on d₁).evaluate m
    let r := (e.on (d₁ ++ d₂)).evaluate m
    (EndedWithin m d₁ e.start → r = (r₁.1, r₁.2.on (d₁ ++ d₂)) ∧
      ∀ step, (∀ l ∈ Text.lines d₁, ∀ s, step s l = visit m s l) →
        foldLines step (d₁ ++ d₂) e.start = foldLines (visit m) d₁ e.start) ∧
    (¬EndedWithin m d₁ e.start →
      Continues (Text.lines d₁).length (byteLength d₁) r₁ ((r₁.2.on d₂).evaluate m) r) := by
  intro r₁ r
  rw [endedWithin_iff]
  constructor
  · rintro ⟨ended, hended⟩
    refine ⟨evaluate_append_of_ended hwhole hsize hended, ?_⟩
    intro step hstep
    rw [foldLines_eq_foldlM, foldLines_eq_foldlM, lines_append hwhole, List.foldlM_append,
      foldlM_congr hstep, hended]
    rfl
  · intro hnot
    cases hrun : (Text.lines d₁).foldlM (visit m) e.start with
    | error ended => exact absurd ⟨ended, hrun⟩ hnot
    | ok s₁ => exact continues_of_not_ended hwhole hsize hobservers hrun

end

theorem evaluate_append_endAll :
    let m : Machine := {}
    let o : Observer := { ends := fun vs => vs.length == 3 }
    let e : Evaluator := { document := "", chain := { bound := [(0, o)], next := 1 } }
    let d₂ := "-> \"a\"".toList
    (e.on ("@EndAll\n".toList ++ d₂)).evaluate m =
        (((e.on "@EndAll\n".toList).evaluate m).1,
          ((e.on "@EndAll\n".toList).evaluate m).2.on ("@EndAll\n".toList ++ d₂)) ∧
      Continues 1 1 ((e.on "\n".toList).evaluate m)
        ((((e.on "\n".toList).evaluate m).2.on d₂).evaluate m)
        ((e.on ("\n".toList ++ d₂)).evaluate m) := by
  intro m o e d₂
  have hobservers : ∀ x ∈ e.chain.bound, x.2.LooksThrough (·.content) := by
    intro x hx vs ws hcontent
    obtain rfl : x = (0, o) := by simpa [e] using hx
    have hlength := congrArg List.length hcontent
    rw [List.length_map, List.length_map] at hlength
    simp [o, hlength]
  constructor
  · have hwritten : Written (.action "EndAll".toList (trim [])) ('@' :: ("EndAll".toList ++ [])) :=
      .action ⟨by decide, forall_of_all (by decide)⟩ (forall_of_all (by decide)) (by simp [EndsWord])
    have hended : EndedWithin m "@EndAll\n".toList e.start :=
      ⟨[], ⟨1, 0, "@EndAll".toList⟩, [], e.start, by decide, rfl,
        .action hwritten ⟨by decide, .inr (.inl rfl)⟩⟩
    exact ((evaluate_append (.inr rfl) (by decide) hobservers).1 hended).1
  · have hnot : ¬EndedWithin m "\n".toList e.start := by
      have hrun : (Text.lines "\n".toList).foldlM (visit m) e.start = .ok _ := rfl
      rw [endedWithin_iff, hrun]
      rintro ⟨ended, h⟩
      simp at h
    exact (evaluate_append (.inr rfl) (by decide) hobservers).2 hnot

end Evaluator

end PlatformRules
