import PlatformRules.Log.Documents
import PlatformRules.Proofs.Evaluation.Composition
import PlatformRules.Proofs.Evaluation.Registry
import PlatformRules.Proofs.Text.Marked
import PlatformRules.Proofs.Text.Parts

namespace PlatformRules

open Text

namespace Text

theorem length_le_byteLength (cs : List Char) : cs.length ≤ byteLength cs := by
  induction cs with
  | nil => exact Nat.le_refl 0
  | cons c cs ih =>
    have := c.utf8Size_pos
    rw [List.length_cons, byteLength_cons]
    omega

section

variable {text : List Char} {l : SourceLine} (h : StandsIn text l)
include h

theorem StandsIn.number_le : l.number ≤ byteLength text + 1 := by
  obtain ⟨front, back, rfl, -, -, -, hnumber⟩ := h
  have := List.count_le_length (a := '\n') (l := front)
  have := length_le_byteLength front
  rw [byteLength_append, byteLength_append]
  omega

theorem StandsIn.length_le : l.length ≤ byteLength text := by
  obtain ⟨front, back, rfl, -, -, -, -⟩ := h
  rw [byteLength_append, byteLength_append, SourceLine.length]
  omega

end

theorem takeWhile_number {text : List Char} {before after : List SourceLine} {l : SourceLine}
    (h : lines text = before ++ l :: after) :
    (lines text).takeWhile (fun k => k.number ≤ l.number) = before ++ [l] := by
  have hnumber := number_of_lines_eq h
  have hbefore : ∀ k ∈ before, decide (k.number ≤ l.number) := by
    intro k hk
    obtain ⟨front, back, rfl⟩ := List.append_of_mem hk
    rw [List.append_assoc] at h
    have hk := number_of_lines_eq h
    rw [List.length_append, List.length_cons] at hnumber
    exact decide_eq_true (by omega)
  rw [h, List.takeWhile_append_of_pos hbefore, List.takeWhile_cons_of_pos (by simp)]
  cases after with
  | nil => rfl
  | cons k after =>
    have happend : before ++ l :: k :: after = (before ++ [l]) ++ k :: after := by simp
    have hk := number_of_lines_eq (h.trans happend)
    rw [List.length_append, List.length_singleton] at hk
    rw [List.takeWhile_cons_of_neg (by simp; omega)]

end Text

theorem lookup_insertKey (key value other : String) (pairs : List (String × String)) :
    (insertKey key value pairs).lookup other =
      if other = key then some value else pairs.lookup other := by
  induction pairs with
  | nil => exact Registry.lookup_cons
  | cons p rest ih =>
    obtain ⟨k, v⟩ := p
    unfold insertKey
    split
    · exact Registry.lookup_cons
    · split
      · next h =>
        subst h
        rw [Registry.lookup_cons, Registry.lookup_cons]
        split <;> rfl
      · next h =>
        rw [Registry.lookup_cons, Registry.lookup_cons, ih]
        by_cases ho : other = k
        · rw [if_pos ho, if_pos ho, if_neg fun hkey => h (hkey.symm.trans ho)]
        · rw [if_neg ho, if_neg ho]

section

variable [Limits]

structure Clamps (message text : String) : Prop where
  front : message.toList <+: text.toList
  fits : message.utf8ByteSize ≤ maxMessageLength
  longest : ∀ cs, cs <+: text.toList → byteLength cs ≤ maxMessageLength →
    byteLength cs ≤ message.utf8ByteSize

theorem clamps_clampMessage (text : String) : Clamps (clampMessage text) text := by
  unfold clampMessage
  split
  · next hfits =>
    refine ⟨List.prefix_rfl, hfits, ?_⟩
    rintro cs ⟨back, hback⟩ -
    rw [utf8ByteSize_eq, ← hback, byteLength_append]
    exact Nat.le_add_right ..
  · refine ⟨?_, ?_, ?_⟩
    · rw [String.toList_ofList]
      exact ⟨_, splitWithin_append ..⟩
    · rw [utf8ByteSize_ofList]
      exact byteLength_splitWithin_le ..
    · rintro cs ⟨back, hback⟩ hlength
      rw [utf8ByteSize_ofList, ← hback]
      exact byteLength_front_le cs back hlength

end

namespace Event

variable {ev : Event} {l : SourceLine}

def IsSuccess (ev : Event) : Prop :=
  ev.level = .info ∧ ev.code ≠ "I000"

instance : DecidablePred IsSuccess :=
  fun _ => inferInstanceAs (Decidable (_ ∧ _))

structure Shows (ev : Event) (text : List Char) (l : SourceLine) : Prop where
  number : ev.context.lookup "line" = some (toString l.number)
  span : ∃ s, ev.span = some s ∧ s.start.offset = l.offset ∧ s.start.line.toNat = l.number ∧
    s.start.column = 1 ∧ s.stop.line = s.start.line ∧ s.stop.column.toNat = 1 + l.length ∧
    s.slice text = l.text

@[simp] theorem level_putAll (ev : Event) (pairs : List (String × String)) :
    (ev.putAll pairs).level = ev.level := by
  unfold putAll
  induction pairs generalizing ev with
  | nil => rfl
  | cons p pairs ih => exact ih (ev.put p.1 p.2)

@[simp] theorem code_putAll (ev : Event) (pairs : List (String × String)) :
    (ev.putAll pairs).code = ev.code := by
  unfold putAll
  induction pairs generalizing ev with
  | nil => rfl
  | cons p pairs ih => exact ih (ev.put p.1 p.2)

@[simp] theorem level_inDocument (document : Option String) (ev : Event) :
    (ev.inDocument document).level = ev.level := by
  cases document <;> rfl

@[simp] theorem code_inDocument (document : Option String) (ev : Event) :
    (ev.inDocument document).code = ev.code := by
  cases document <;> rfl

@[simp] theorem message_inDocument (document : Option String) (ev : Event) :
    (ev.inDocument document).message = ev.message := by
  cases document <;> rfl

@[simp] theorem span_inDocument (document : Option String) (ev : Event) :
    (ev.inDocument document).span = ev.span := by
  cases document <;> rfl

theorem lookup_put (ev : Event) (key value other : String) :
    (ev.put key value).context.lookup other =
      if other = key then some value else ev.context.lookup other :=
  lookup_insertKey ..

theorem lookup_inDocument (document : Option String) (ev : Event) {key : String}
    (h : key ≠ "document") :
    (ev.inDocument document).context.lookup key = ev.context.lookup key := by
  cases document with
  | none => rfl
  | some d => exact (lookup_put ..).trans (if_neg h)

@[simp] theorem isSuccess_inDocument (document : Option String) (ev : Event) :
    (ev.inDocument document).IsSuccess ↔ ev.IsSuccess := by
  simp [IsSuccess]

theorem ofLines_eq (report : SourceLine → List Event) (count : Nat) (text : String) :
    ofLines report count text =
      ((lines text.toList).takeWhile fun l => l.number ≤ count).flatMap report := by
  let collect (newest : List Event) (l : SourceLine) : Except (List Event) (List Event) :=
    if l.number ≤ count then .ok ((report l).reverse ++ newest) else .error newest
  -- the events so far stand in reverse, in front of those of the lines to come
  have hfold : ∀ (ls : List SourceLine) (newest : List Event), ∃ all : List Event,
      (ls.foldlM collect newest = .ok all ∨ ls.foldlM collect newest = .error all) ∧
        all.reverse =
          newest.reverse ++ (ls.takeWhile fun l => l.number ≤ count).flatMap report := by
    intro ls
    induction ls with
    | nil => exact fun newest => ⟨newest, .inl rfl, by simp⟩
    | cons l ls ih =>
      intro newest
      rw [List.foldlM_cons]
      by_cases hl : l.number ≤ count
      · obtain ⟨all, hall, hreverse⟩ := ih ((report l).reverse ++ newest)
        refine ⟨all, ?_, ?_⟩
        · have hcollect : collect newest l = .ok ((report l).reverse ++ newest) := if_pos hl
          rw [hcollect]
          exact hall
        · rw [hreverse, List.takeWhile_cons_of_pos (by simpa using hl), List.flatMap_cons]
          simp
      · refine ⟨newest, .inr ?_, ?_⟩
        · have hcollect : collect newest l = .error newest := if_neg hl
          rw [hcollect]
          rfl
        · rw [List.takeWhile_cons_of_neg (by simpa using hl)]
          simp
  obtain ⟨all, hall, hreverse⟩ := hfold (lines text.toList) []
  rw [← foldLines_eq_foldlM] at hall
  simp only [collect] at hall
  rcases hall with hall | hall <;> rw [ofLines, hall] <;> exact hreverse

section

variable [Limits]

theorem level_ofScan {scanned : Except ScanError Line} (h : ev ∈ ofScan scanned) :
    ev.level = .debug ∨ ev.level = .error ∧ ∃ e, scanned = .error e := by
  cases scanned with
  | ok raw =>
    obtain rfl := List.mem_singleton.1 h
    exact .inl (level_putAll ..)
  | error e =>
    cases e with
    | lineTooLong length =>
      obtain rfl := List.mem_singleton.1 h
      exact .inr ⟨level_putAll .., _, rfl⟩
    | tooManyTokens =>
      obtain rfl := List.mem_singleton.1 h
      exact .inr ⟨rfl, _, rfl⟩

theorem level_ofCanonical {raw : Line} {canonical : Except ShapeError Line}
    (h : ev ∈ ofCanonical raw canonical) : ev.level = .debug := by
  cases canonical with
  | ok line =>
    obtain rfl := List.mem_singleton.1 h
    exact level_putAll ..
  | error e => simp [ofCanonical] at h

theorem level_ofLine (h : ev ∈ ofLine l) : ev.level = .debug ∨
    ev.level = .error ∧ l.isBlank = false ∧ ∃ e, Document.readLine l.text = .error e := by
  unfold ofLine at h
  cases hblank : l.isBlank with
  | true => simp [hblank] at h
  | false =>
    rw [hblank, if_neg Bool.false_ne_true] at h
    rcases List.mem_append.1 h with h | h
    · rcases level_ofScan h with hdebug | ⟨herror, e, hscan⟩
      · exact .inl hdebug
      · exact .inr ⟨herror, rfl, .scan e, by rw [Document.readLine, hscan]⟩
    · cases hscan : Line.ofText l.text with
      | ok raw =>
        simp only [hscan] at h
        exact .inl (level_ofCanonical h)
      | error e => simp [hscan] at h

theorem level_ofEvaluatedLine {preferences : EvaluationPreferences}
    (h : ev ∈ ofEvaluatedLine preferences l) : ev.level = .debug ∨
      ev.level = .error ∧ l.isBlank = false ∧ ∃ e, Document.readLine l.text = .error e := by
  rcases List.mem_append.1 h with h | h
  · exact level_ofLine h
  · split at h
    · split at h
      · obtain rfl := List.mem_singleton.1 h
        exact .inl (level_putAll ..)
      · simp at h
    · simp at h

end

theorem not_isSuccess_of_level (h : ev.level ≠ .info) : ¬ev.IsSuccess :=
  fun hsuccess => h hsuccess.1

end Event

namespace Evaluation

variable {m : Machine} {s t : RunState} {l : SourceLine} {cause : DocumentError} {size : Nat}

theorem callAction_ne_tooLarge {name argument : String} :
    (callAction s name argument).1 ≠ some (.error (.tooLarge size)) := by
  unfold callAction callRegistered
  repeat' split
  all_goals simp

theorem effect_ne_tooLarge {st : Statement} :
    (st.effect m s).1 ≠ some (.error (.tooLarge size)) := by
  cases st with
  | blank => simp [Statement.effect]
  | comment text => simp [Statement.effect]
  | action name argument => exact callAction_ne_tooLarge
  | path o f value =>
    change followPath m _ ≠ _
    unfold followPath
    repeat' split
    all_goals simp

theorem visit_ne_tooLarge [Limits] : visit m s l ≠ .error (.error (.tooLarge size), t) := by
  intro h
  have hvisits := h ▸ visits m s l
  generalize hr : (.error (.error (.tooLarge size), t) : Except (Verdict × RunState) RunState) = r
    at hvisits
  cases hvisits with
  | blank hblank => simp at hr
  | unreadable hblank hread => simp at hr
  | ended hblank hread hx hend => simp at hr
  | @passed r st hblank hread hst hshown =>
    generalize heffect : st.effect m _ = r at hr
    obtain ⟨effect, u⟩ := r
    cases effect with
    | none => simp [outcome] at hr
    | some verdict =>
      obtain ⟨rfl, -⟩ := Prod.mk.inj (Except.error.inj hr)
      exact effect_ne_tooLarge (congrArg Prod.fst heffect)

end Evaluation

namespace Evaluator

open Evaluation

variable {e : Evaluator} {m : Machine} {l : SourceLine} {verdict : Verdict}

section

variable [Limits]

def EndsAt (e : Evaluator) (m : Machine) (l : SourceLine) (verdict : Verdict) : Prop :=
  ∃ after s t, e.Arrives m l after s ∧ visit m s l = .error (verdict, t)

theorem EndsAt.standsIn (h : e.EndsAt m l verdict) : StandsIn e.document.toList l := by
  obtain ⟨after, s, t, ⟨-, before, hlines, -⟩, -⟩ := h
  exact standsIn_lines l (by simp [hlines])

theorem EndsAt.evaluate (h : e.EndsAt m l verdict) :
    (e.evaluate m).1.verdict = verdict ∧ (e.evaluate m).1.line = some l := by
  obtain ⟨after, s, t, harrives, hvisit⟩ := h
  have hline := line_of_visit_eq_error hvisit
  rw [evaluate_of_arrives harrives, List.foldlM_cons, hvisit]
  exact ⟨rfl, hline⟩

theorem exists_readLine_of_visit {s t : RunState} (h : visit m s l = .ok t) :
    l.isBlank = true ∨ ∃ r, Document.readLine l.text = .ok r := by
  cases hblank : l.isBlank with
  | true => exact .inl rfl
  | false =>
    cases hread : Document.readLine l.text with
    | error e => simp [visit_of_error hblank hread] at h
    | ok r => exact .inr ⟨r, rfl⟩

theorem EndsAt.readable {selection : Selection} (h : e.EndsAt m l (.ok selection)) :
    ∀ k ∈ (lines e.document.toList).takeWhile fun k => k.number ≤ l.number,
      k.isBlank = true ∨ ∃ r, Document.readLine k.text = .ok r := by
  obtain ⟨after, s, t, ⟨-, before, hlines, hbefore⟩, hvisit⟩ := h
  rw [takeWhile_number hlines]
  intro k hk
  rcases List.mem_append.1 hk with hk | hk
  · obtain ⟨u, v, hvisit⟩ := exists_of_mem_of_foldlM_eq_ok hbefore hk
    exact exists_readLine_of_visit hvisit
  · obtain rfl := List.mem_singleton.1 hk
    cases hblank : k.isBlank with
    | true => exact .inl rfl
    | false =>
      cases hread : Document.readLine k.text with
      | error e => simp [visit_of_error hblank hread] at hvisit
      | ok r => exact .inr ⟨r, rfl⟩

theorem evaluate_cases (e : Evaluator) (m : Machine) :
    (e.evaluate m).1.verdict = .error (.tooLarge e.document.utf8ByteSize) ∨
    ((e.evaluate m).1.verdict = .ok none ∧
      ∀ k ∈ lines e.document.toList,
        k.isBlank = true ∨ ∃ r, Document.readLine k.text = .ok r) ∨
    ∃ l verdict, e.EndsAt m l verdict ∧ ∀ size, verdict ≠ .error (.tooLarge size) := by
  by_cases hsize : e.document.utf8ByteSize ≤ maxDocumentSize
  · right
    cases hrun : (lines e.document.toList).foldlM (visit m) e.start with
    | ok s =>
      rw [evaluate_of_size hsize, run_eq, hrun]
      refine .inl ⟨rfl, fun k hk => ?_⟩
      obtain ⟨u, v, hvisit⟩ := exists_of_mem_of_foldlM_eq_ok hrun hk
      exact exists_readLine_of_visit hvisit
    | error ended =>
      obtain ⟨verdict, t⟩ := ended
      obtain ⟨before, l, after, s, hlines, hbefore, hvisit⟩ := exists_of_foldlM_eq_error hrun
      refine .inr ⟨l, verdict, ⟨after, s, t, ⟨hsize, before, hlines, hbefore⟩, hvisit⟩, ?_⟩
      rintro size rfl
      exact visit_ne_tooLarge hvisit
  · rw [evaluate, if_pos (Nat.not_le.1 hsize)]
    exact .inl rfl

def place (e : Evaluator) (m : Machine) : SourceLine :=
  (e.evaluate m).1.line.getD ⟨0, 0, []⟩

def opening (e : Evaluator) (m : Machine) : Event :=
  (Event.info "Evaluating document").putAll
    [("bytes", toString e.document.utf8ByteSize), ("machine", m.display)]

def observerEvents (sightings : List Sighting) : List Event :=
  match sightings.getLast? with
  | some s =>
    if s.ended then
      [(Event.debug "Middleware ended evaluation").put "line" (toString s.view.number)]
    else []
  | none => []

theorem level_observerEvents {sightings : List Sighting} {ev : Event}
    (h : ev ∈ observerEvents sightings) : ev.level = .debug := by
  unfold observerEvents at h
  split at h
  · split at h
    · obtain rfl := List.mem_singleton.1 h
      rfl
    · simp at h
  · simp at h

end

section

variable [Limits] (hverdict : ∀ size, (e.evaluate m).1.verdict ≠ .error (.tooLarge size))
include hverdict

theorem ofEvaluation_eq : Event.ofEvaluation e m =
    opening e m :: Event.ofLines (Event.ofEvaluatedLine e.preferences) (e.place m).number
      e.document ++ observerEvents (e.evaluate m).1.sightings ++
        Event.ofVerdict e.preferences (e.place m) (e.evaluate m).1.verdict := by
  unfold Event.ofEvaluation place
  generalize (e.evaluate m).1 = report at hverdict
  obtain ⟨verdict, calls, sightings, line⟩ := report
  cases verdict with
  | ok selection => rfl
  | error cause =>
    cases cause with
    | tooLarge size => exact absurd rfl (hverdict size)
    | syntaxError n cause => rfl
    | undefinedAction name => rfl
    | actionFailed name code => rfl
    | raised message => rfl

theorem exists_progress : ∃ earlier, Event.ofEvaluation e m =
      earlier ++ Event.ofVerdict e.preferences (e.place m) (e.evaluate m).1.verdict ∧
    ∀ ev ∈ earlier, ¬ev.IsSuccess ∧ (ev.level = .error →
      ∃ k ∈ (lines e.document.toList).takeWhile fun k => k.number ≤ (e.place m).number,
        k.isBlank = false ∧ ∃ cause, Document.readLine k.text = .error cause) := by
  refine ⟨_, ofEvaluation_eq hverdict, ?_⟩
  intro ev hev
  rw [List.mem_append, List.mem_cons, Event.ofLines_eq, List.mem_flatMap] at hev
  rcases hev with (rfl | ⟨k, hk, hev⟩) | hev
  · have hlevel : (opening e m).level = .info := Event.level_putAll ..
    have hcode : (opening e m).code = "I000" := Event.code_putAll ..
    exact ⟨fun h => h.2 hcode, by simp [hlevel]⟩
  · rcases Event.level_ofEvaluatedLine hev with hdebug | ⟨herror, hblank, hread⟩
    · exact ⟨Event.not_isSuccess_of_level (by simp [hdebug]), by simp [hdebug]⟩
    · exact ⟨Event.not_isSuccess_of_level (by simp [herror]), fun _ => ⟨k, hk, hblank, hread⟩⟩
  · have hdebug := level_observerEvents hev
    exact ⟨Event.not_isSuccess_of_level (by simp [hdebug]), by simp [hdebug]⟩

end

section

variable [Limits]

theorem EndsAt.place (h : e.EndsAt m l verdict) : e.place m = l := by
  rw [Evaluator.place, h.evaluate.2, Option.getD_some]

theorem shows_failure {text : List Char} (hl : StandsIn text l)
    (hsize : byteLength text ≤ maxDocumentSize) (preferences : EvaluationPreferences)
    (cause : DocumentError) (document : Option String) :
    ∃ ev, (Event.ofVerdict preferences l (.error cause)).map (Event.inDocument document) = [ev] ∧
      ev.level = .error ∧ ev.code = cause.code ∧ Clamps ev.message cause.message ∧
        ev.Shows text l := by
  have hsmall := Limits.maxDocumentSize_le
  have hnumber : l.number < 4294967296 := by
    have := hl.number_le
    omega
  have hlength : 1 + l.length < 4294967296 := by
    have := hl.length_le
    omega
  refine ⟨_, rfl, ?_, ?_, ?_, ?_, ?_⟩
  · exact Event.level_inDocument ..
  · exact Event.code_inDocument ..
  · rw [Event.message_inDocument]
    exact clamps_clampMessage cause.message
  · rw [Event.lookup_inDocument document _ (by decide)]
    rfl
  · refine ⟨_, Event.span_inDocument .., rfl, ?_, rfl, rfl, ?_, ?_⟩
    · exact Nat.mod_eq_of_lt hnumber
    · have hcolumn : ((1 : UInt32) + UInt32.ofNat l.length).toNat = 1 + l.length := by
        rw [UInt32.toNat_add, UInt32.toNat_ofNat', UInt32.toNat_one]
        omega
      exact hcolumn
    · exact hl.standsAt.slice

def reported (e : Evaluator) (m : Machine) (document : Option String) : List Event :=
  (Event.ofEvaluation e m).map (Event.inDocument document)

structure TellsFailure (e : Evaluator) (m : Machine) (cause : DocumentError) (ev : Event) :
    Prop where
  level : ev.level = .error
  code : ev.code = cause.code
  line : (∀ size, cause ≠ .tooLarge size) → Clamps ev.message cause.message ∧
    ∃ l, e.EndsAt m l (.error cause) ∧ StandsIn e.document.toList l ∧
      ev.Shows e.document.toList l

inductive TellsResult (e : Evaluator) (m : Machine) (ev : Event) : Selection → Prop
  | value {value : String} {l : SourceLine} (hcode : ev.code = "I010")
    (hvalue : ev.context.lookup "value" = some value) (hends : e.EndsAt m l (.ok (some value)))
    (hmatched : (e.evaluate m).2.matchedLine = some l.number)
    (hline : ev.context.lookup "line" = some (toString l.number)) : TellsResult e m ev (some value)
  | none (hcode : ev.code = "I011") : TellsResult e m ev none

theorem exists_reported (document : Option String)
    (hverdict : ∀ size, (e.evaluate m).1.verdict ≠ .error (.tooLarge size)) :
    ∃ earlier, e.reported m document = earlier ++
        (Event.ofVerdict e.preferences (e.place m) (e.evaluate m).1.verdict).map
          (Event.inDocument document) ∧
      ∀ ev ∈ earlier, ¬ev.IsSuccess ∧ (ev.level = .error →
        ∃ k ∈ (lines e.document.toList).takeWhile fun k => k.number ≤ (e.place m).number,
          k.isBlank = false ∧ ∃ cause, Document.readLine k.text = .error cause) := by
  obtain ⟨earlier, hevents, hearlier⟩ := exists_progress hverdict
  refine ⟨earlier.map (Event.inDocument document), ?_, ?_⟩
  · rw [reported, hevents, List.map_append]
  · intro ev hev
    obtain ⟨plain, hplain, rfl⟩ := List.mem_map.1 hev
    rw [Event.isSuccess_inDocument, Event.level_inDocument]
    exact hearlier plain hplain

theorem reported_of_large {size : Nat} (document : Option String)
    (h : (e.evaluate m).1.verdict = .error (.tooLarge size)) :
    e.reported m document = [(Event.ofSize size).inDocument document] := by
  unfold reported Event.ofEvaluation
  simp [h]

theorem tellsFailure_of_large {size : Nat} (document : Option String) :
    e.TellsFailure m (.tooLarge size) ((Event.ofSize size).inDocument document) where
  level := Event.level_inDocument ..
  code := Event.code_inDocument ..
  line := fun h => absurd rfl (h size)

theorem readable_of_ok {selection : Selection} (h : (e.evaluate m).1.verdict = .ok selection) :
    ∀ k ∈ (lines e.document.toList).takeWhile fun k => k.number ≤ (e.place m).number,
      k.isBlank = true ∨ ∃ r, Document.readLine k.text = .ok r := by
  rcases evaluate_cases e m with hlarge | ⟨-, hlines⟩ | ⟨l, verdict, hends, -⟩
  · simp [h] at hlarge
  · exact fun k hk => hlines k ((List.takeWhile_prefix _).subset hk)
  · obtain rfl := hends.evaluate.1.symm.trans h
    rw [hends.place]
    exact hends.readable

theorem endsAt_of_value {value : String} (h : (e.evaluate m).1.verdict = .ok (some value)) :
    ∃ l, e.EndsAt m l (.ok (some value)) ∧ (e.evaluate m).2.matchedLine = some l.number := by
  rcases evaluate_cases e m with hlarge | ⟨hnone, -⟩ | ⟨l, verdict, hends, -⟩
  · simp [h] at hlarge
  · simp [h] at hnone
  · obtain rfl := hends.evaluate.1.symm.trans h
    refine ⟨l, hends, ?_⟩
    obtain ⟨after, s, t, harrives, hvisit⟩ := hends
    have hline := line_of_visit_eq_error hvisit
    rw [evaluate_of_arrives harrives, List.foldlM_cons, hvisit]
    exact congrArg (Option.map (·.number)) hline

theorem reported_of_failure {cause : DocumentError} (document : Option String)
    (hends : e.EndsAt m l (.error cause)) (hcause : ∀ size, cause ≠ .tooLarge size) :
    ∃ earlier last, e.reported m document = earlier ++ [last] ∧ e.TellsFailure m cause last ∧
      ∀ ev ∈ earlier, ¬ev.IsSuccess := by
  have hverdict := hends.evaluate.1
  have hnot : ∀ size, (e.evaluate m).1.verdict ≠ .error (.tooLarge size) := by
    intro size h
    exact hcause size (Except.error.inj (hverdict.symm.trans h))
  have hsize : byteLength e.document.toList ≤ maxDocumentSize := by
    obtain ⟨after, s, t, ⟨hsize, -⟩, -⟩ := hends
    rwa [← utf8ByteSize_eq]
  obtain ⟨earlier, hreported, hearlier⟩ := exists_reported document hnot
  obtain ⟨last, hlast, hlevel, hcode, hmessage, hshows⟩ := shows_failure hends.standsIn hsize
    e.preferences cause document
  rw [hverdict, hends.place, hlast] at hreported
  exact ⟨earlier, last, hreported,
    ⟨hlevel, hcode, fun _ => ⟨hmessage, l, hends, hends.standsIn, hshows⟩⟩,
    fun ev hev => (hearlier ev hev).1⟩

theorem reported_of_success {selection : Selection} (document : Option String)
    (h : (e.evaluate m).1.verdict = .ok selection) : ∃ earlier, e.reported m document =
        earlier ++ (Event.ofVerdict e.preferences (e.place m) (.ok selection)).map
          (Event.inDocument document) ∧
      ∀ ev ∈ earlier, ¬ev.IsSuccess ∧ ev.level ≠ .error := by
  have hnot : ∀ size, (e.evaluate m).1.verdict ≠ .error (.tooLarge size) := by simp [h]
  obtain ⟨earlier, hreported, hearlier⟩ := exists_reported document hnot
  rw [h] at hreported
  refine ⟨earlier, hreported, fun ev hev => ⟨(hearlier ev hev).1, fun herror => ?_⟩⟩
  obtain ⟨k, hk, hblank, cause, hread⟩ := (hearlier ev hev).2 herror
  rcases readable_of_ok h k hk with hblank' | ⟨r, hread'⟩
  · simp [hblank] at hblank'
  · simp [hread] at hread'

theorem exists_tellsResult {selection : Selection} (document : Option String)
    (h : (e.evaluate m).1.verdict = .ok selection) (hlog : e.preferences.logMatches = true) :
    ∃ ev, (Event.ofVerdict e.preferences (e.place m) (.ok selection)).map
        (Event.inDocument document) = [ev] ∧
      ev.IsSuccess ∧ e.TellsResult m ev selection := by
  cases selection with
  | none =>
    rw [Event.ofVerdict, if_pos hlog]
    refine ⟨_, rfl, ?_, ?_⟩
    · rw [Event.isSuccess_inDocument]
      exact ⟨rfl, (by decide : "I011" ≠ "I000")⟩
    · exact .none (Event.code_inDocument ..)
  | some value =>
    obtain ⟨l, hends, hmatched⟩ := endsAt_of_value h
    rw [Event.ofVerdict, if_pos hlog, hends.place]
    have hput : (Event.success "I010" "Document matched").putAll
        [("value", value), ("line", toString l.number)] =
          ((Event.success "I010" "Document matched").put "value" value).put "line"
            (toString l.number) := rfl
    refine ⟨_, rfl, ?_, ?_⟩
    · rw [Event.isSuccess_inDocument]
      exact ⟨rfl, (by decide : "I010" ≠ "I000")⟩
    · refine .value (Event.code_inDocument ..) ?_ hends hmatched ?_
      · rw [Event.lookup_inDocument document _ (by decide), hput, Event.lookup_put,
          if_neg (by decide), Event.lookup_put, if_pos rfl]
      · rw [Event.lookup_inDocument document _ (by decide), hput, Event.lookup_put, if_pos rfl]

theorem ofVerdict_of_not_logMatches {selection : Selection}
    (hlog : ¬e.preferences.logMatches = true) :
    Event.ofVerdict e.preferences (e.place m) (.ok selection) = [] := by
  cases selection <;> exact if_neg hlog

/-- An evaluation that fails ends its report with the failure; one that succeeds reports its result
once, if that is wanted, and nothing else that is a success or an error. -/
theorem evaluation_reported (e : Evaluator) (m : Machine) (document : Option String) :
    (∀ cause, (e.evaluate m).1.verdict = .error cause →
      ∃ earlier last, e.reported m document = earlier ++ [last] ∧ e.TellsFailure m cause last ∧
        ∀ ev ∈ earlier, ¬ev.IsSuccess) ∧
    ∀ selection, (e.evaluate m).1.verdict = .ok selection →
      (∀ ev ∈ e.reported m document, ev.level ≠ .error) ∧
        if e.preferences.logMatches then
          ∃ ev, (e.reported m document).filter (·.IsSuccess) = [ev] ∧ e.TellsResult m ev selection
        else ∀ ev ∈ e.reported m document, ¬ev.IsSuccess := by
  constructor
  · intro cause hcause
    rcases evaluate_cases e m with hlarge | ⟨hnone, -⟩ | ⟨l, verdict, hends, hverdict⟩
    · obtain rfl := Except.error.inj (hcause.symm.trans hlarge)
      exact ⟨[], _, reported_of_large document hlarge, tellsFailure_of_large document, by simp⟩
    · simp [hcause] at hnone
    · obtain rfl : verdict = .error cause := hends.evaluate.1.symm.trans hcause
      exact reported_of_failure document hends fun size h => hverdict size (congrArg _ h)
  · intro selection hselection
    obtain ⟨earlier, hreported, hearlier⟩ := reported_of_success document hselection
    rw [hreported]
    split
    · next hlog =>
      obtain ⟨ev, hev, hsuccess, htells⟩ := exists_tellsResult document hselection hlog
      have hnone : earlier.filter (·.IsSuccess) = [] := by
        rw [List.filter_eq_nil_iff]
        exact fun ev hev => by simpa using (hearlier ev hev).1
      rw [hev]
      refine ⟨?_, ev, ?_, htells⟩
      · intro ev' hev'
        rcases List.mem_append.1 hev' with hev' | hev'
        · exact (hearlier ev' hev').2
        · obtain rfl := List.mem_singleton.1 hev'
          simp [hsuccess.1]
      · rw [List.filter_append, hnone, List.nil_append,
          List.filter_cons_of_pos (by simpa using hsuccess), List.filter_nil]
    · next hlog =>
      rw [ofVerdict_of_not_logMatches hlog, List.map_nil, List.append_nil]
      exact ⟨fun ev hev => (hearlier ev hev).2, fun ev hev => (hearlier ev hev).1⟩

end

theorem evaluation_reported_umlaut :
    let failing : Evaluator := { document := "#ü\r\n\r\n@Nö x\r\n" }
    let matching : Evaluator := { document := "-> \"ü\"" }
    (failing.evaluate {}).1.verdict = .error (.undefinedAction "Nö") ∧
      (∃ earlier last, failing.reported {} (some "ü.rsml") = earlier ++ [last] ∧
        failing.TellsFailure {} (.undefinedAction "Nö") last) ∧
      (matching.evaluate {}).1.verdict = .ok (some "ü") ∧
      ∃ ev, (matching.reported {} none).filter (·.IsSuccess) = [ev] ∧
        matching.TellsResult {} ev (some "ü") := by
  intro failing matching
  have hfailing : (failing.evaluate {}).1.verdict = .error (.undefinedAction "Nö") := by
    decide +kernel
  have hmatching : (matching.evaluate {}).1.verdict = .ok (some "ü") := by decide +kernel
  obtain ⟨earlier, last, hreported, htells, -⟩ :=
    (evaluation_reported failing {} (some "ü.rsml")).1 _ hfailing
  exact ⟨hfailing, ⟨earlier, last, hreported, htells⟩, hmatching,
    ((evaluation_reported matching {} none).2 _ hmatching).2⟩

end Evaluator

end PlatformRules
