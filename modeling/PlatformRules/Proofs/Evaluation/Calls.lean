import PlatformRules.Proofs.Evaluation.Decisions
import PlatformRules.Proofs.Evaluation.Registry

namespace PlatformRules

open Text

namespace ActionAnswer

def effect (name : String) : ActionAnswer → Evaluation.Effect
  | reply .proceed | reply .reset => none
  | reply .stop => some (.ok none)
  | reply .error => some (.error (.actionFailed name 1))
  | unknownCode code => some (.error (.actionFailed name code))
  | raised message => some (.error (.raised message))

def leaves (registry : Registry) : ActionAnswer → Registry
  | reply .reset => {}
  | _ => registry

end ActionAnswer

theorem Written.of_action {name gap argument : List Char} (hname : IsActionName name)
    (hgap : IsBlankRun gap) (hne : argument ≠ [] → gap ≠ [])
    (hargument : trim argument = argument) :
    Written (.action name argument) (trim ('@' :: (name ++ (gap ++ argument)))) := by
  have hends : EndsWord (gap ++ argument) := by
    by_cases h : argument = []
    · rw [h, List.append_nil]
      exact fun c hc => hgap c (List.mem_of_mem_head? hc)
    · exact IsGap.endsWord ⟨hne h, hgap⟩
  have htext : trim (trimEnd (gap ++ argument)) = argument := by
    have happend : trim (gap ++ argument ++ []) = trim argument := trim_append hgap IsBlankRun.nil
    rw [List.append_nil] at happend
    rw [trim_trimEnd, happend, hargument]
  have hwritten := Written.action hname hname.isBlank_eq_false hends.trimEnd
  rw [htext] at hwritten
  rw [trim_cons _ (by decide), trimEnd_word_append hname.isBlank_eq_false]
  exact hwritten

namespace Evaluation

variable {m : Machine} {s : RunState} {l : SourceLine} {name argument : String} {c : Callback}

def called (s : RunState) (call : Call) (c : Callback) : RunState :=
  { s with
    registry := (c.call call.argument).1.leaves
      (s.registry.insert call.name (c.call call.argument).2)
    calls := call :: s.calls }

theorem callRegistered_of_eq_some (h : s.registry.get? name = some c) :
    callRegistered s name argument =
      ((c.call argument).1.effect name, called s ⟨name, argument⟩ c) := by
  unfold callRegistered Registry.invoke? called
  rw [h, Option.map_some]
  generalize c.call argument = r
  obtain ⟨answer, d⟩ := r
  cases answer with
  | reply r => cases r <;> rfl
  | raised message => rfl
  | unknownCode code => rfl

theorem callRegistered_of_eq_none (h : s.registry.get? name = none) :
    callRegistered s name argument = (some (.error (.undefinedAction name)), s) := by
  unfold callRegistered Registry.invoke?
  rw [h]
  rfl

theorem isBuiltIn_iff : Vocabulary.isBuiltIn name.toList = true ↔
    name = Vocabulary.voidAction ∨ name = Vocabulary.throwAction ∨ name = Vocabulary.endAction := by
  simp only [Vocabulary.isBuiltIn, Vocabulary.builtInActions, List.any_cons, List.any_nil,
    Bool.or_false, Bool.or_eq_true, beq_iff_eq, String.toList_inj, @eq_comm _ name]

theorem callAction_of_builtIn (h : Vocabulary.isBuiltIn name.toList = true) :
    (callAction s name argument).2 = s := by
  unfold callAction
  rcases isBuiltIn_iff.1 h with rfl | rfl | rfl <;> rfl

theorem callAction_of_not_builtIn (h : Vocabulary.isBuiltIn name.toList = false) :
    callAction s name argument = callRegistered s name argument := by
  have hnot : ¬Vocabulary.isBuiltIn name.toList = true := by simp [h]
  rw [isBuiltIn_iff, not_or, not_or] at hnot
  rw [callAction, if_neg hnot.1, if_neg hnot.2.1, if_neg hnot.2.2]

theorem callAction_cases (s : RunState) (name argument : String) :
    (callAction s name argument).2 = s ∨ ∃ c, s.registry.get? name = some c ∧
      callAction s name argument =
        ((c.call argument).1.effect name, called s ⟨name, argument⟩ c) := by
  cases hbuiltIn : Vocabulary.isBuiltIn name.toList with
  | true => exact .inl (callAction_of_builtIn hbuiltIn)
  | false =>
    rw [callAction_of_not_builtIn hbuiltIn]
    cases hget : s.registry.get? name with
    | none => exact .inl (congrArg Prod.snd (callRegistered_of_eq_none hget))
    | some c => exact .inr ⟨c, rfl, callRegistered_of_eq_some hget⟩

theorem effect_cases (m : Machine) (s : RunState) (st : Statement) :
    (st.effect m s).2 = s ∨ ∃ call c, st = .action call.name.toList call.argument.toList ∧
      s.registry.get? call.name = some c ∧
      st.effect m s = ((c.call call.argument).1.effect call.name, called s call c) := by
  cases st with
  | blank => exact .inl rfl
  | comment text => exact .inl rfl
  | path o f value => exact .inl rfl
  | action name argument =>
    rcases callAction_cases s (String.ofList name) (String.ofList argument) with h | ⟨c, hget, h⟩
    · exact .inl h
    · refine .inr ⟨⟨String.ofList name, String.ofList argument⟩, c, ?_, hget, h⟩
      rw [String.toList_ofList, String.toList_ofList]

theorem callAction_ne_value {value : String} :
    (callAction s name argument).1 ≠ some (.ok (some value)) := by
  unfold callAction callRegistered
  repeat' split
  all_goals simp

theorem exists_of_effect_eq_value {st : Statement} {value : String} (hst : st.IsLegal)
    (h : (st.effect m s).1 = some (.ok (some value))) :
    ∃ f, st = .path .returns f value.toList ∧ f.Denotes m := by
  cases st with
  | blank => simp [Statement.effect] at h
  | comment text => simp [Statement.effect] at h
  | action name argument => exact absurd h callAction_ne_value
  | path o f value' =>
    have hm : f.Denotes m := by
      rw [← followPath_ends_iff hst]
      exact Option.isSome_iff_exists.2 ⟨_, h⟩
    have hpath := @followPath_of_denotes m o f value' hst hm
    cases o with
    | returns =>
      obtain rfl : value = String.ofList value' := by simpa [hpath] using h.symm.trans hpath
      exact ⟨f, by rw [String.toList_ofList], hm⟩
    | throws => exact absurd (h.symm.trans hpath) (by simp)

section

variable {source : List Char} {t : Token} {ts : List Token}

theorem exists_of_checkTokens (ht : t.kind = .actionSign)
    (hcheck : Grammar.checkTokens source (t :: ts) = .ok ()) :
    ∃ n a, ts = [n, a] ∧ IsActionName (n.text source) := by
  simp only [Grammar.checkTokens, ht, Grammar.checkAction] at hcheck
  split at hcheck
  · next n a heq =>
    obtain ⟨-, rfl⟩ := List.cons.inj heq
    refine ⟨n, a, rfl, Vocabulary.isLegalActionName_iff.1 ?_⟩
    split at hcheck
    · split at hcheck
      · assumption
      · simp at hcheck
    · simp at hcheck
  · simp at hcheck

theorem exists_of_check {l : Line} (hcheck : l.check source = .ok ())
    (hkind : l.kind 0 = .actionSign) :
    ∃ t n a, (Document.openEnded l).tokens = [t, n, a] ∧ IsActionName (n.text source) := by
  obtain ⟨tokens, hlength⟩ := l
  cases tokens with
  | nil => simp [Line.kind, Line.get?] at hkind
  | cons t rest =>
    have ht : t.kind = .actionSign := hkind
    rw [Line.check] at hcheck
    rw [Document.openEnded]
    -- A lone token is checked with its end, and is too short for an action.
    cases rest with
    | nil =>
      rw [if_neg (by simp [Line.length])] at hcheck
      obtain ⟨n, a, h, -⟩ := exists_of_checkTokens ht hcheck
      simp at h
    | cons u rest =>
      by_cases hends : Line.endsLine ⟨t :: u :: rest, hlength⟩ = true
      · rw [if_pos (by simp [hends, Line.length]), List.dropLast_cons_cons] at hcheck
        obtain ⟨n, a, h, hname⟩ := exists_of_checkTokens ht hcheck
        rw [if_pos hends]
        exact ⟨t, n, a, congrArg (t :: ·) h, hname⟩
      · rw [if_neg (by simp [hends])] at hcheck
        obtain ⟨n, a, h, hname⟩ := exists_of_checkTokens ht hcheck
        rw [if_neg hends]
        exact ⟨t, n, a, congrArg (t :: ·) h, hname⟩

end

theorem name_of_check [Limits] {v : LineView} {l : Line} (hline : v.line = Document.openEnded l)
    (hcheck : l.check v.text = .ok ()) (hkind : l.kind 0 = .actionSign) :
    let name := v.tokenText 1
    (Vocabulary.isBuiltIn name = true ∧ ∀ m s, (dispatch m v s).2 = s) ∨
      (Vocabulary.isBuiltIn name = false ∧ ∀ r c, Registry.size r < maxActions →
        ∃ r', r.register (String.ofList name) c = .ok r') := by
  intro name
  obtain ⟨t, n, a, htokens, hname⟩ := exists_of_check hcheck hkind
  rw [← hline] at htokens
  have htext : name = n.text v.text := by
    simp only [name, LineView.tokenText, Line.get?, htokens]
    rfl
  have hdispatch (m : Machine) (s : RunState) :
      dispatch m v s = callAction s (String.ofList name) (String.ofList (v.tokenText 2)) := by
    have hlength : v.line.length = 3 := by rw [Line.length, htokens]; rfl
    rw [dispatch, hlength]
    rfl
  cases hbuiltIn : Vocabulary.isBuiltIn name with
  | true =>
    refine .inl ⟨rfl, fun m s => ?_⟩
    rw [hdispatch, callAction_of_builtIn]
    rw [String.toList_ofList, hbuiltIn]
  | false =>
    refine .inr ⟨rfl, fun r c hroom => ⟨r.insert (String.ofList name) c, ?_⟩⟩
    refine Registry.register_eq_ok_iff.2 ⟨⟨?_, ?_, .inr hroom⟩, rfl⟩
    · rw [String.toList_ofList, hbuiltIn]
    · rw [String.toList_ofList, htext]
      exact hname

end Evaluation

namespace Evaluator

open Evaluation

variable {e : Evaluator} {m : Machine} {l : SourceLine} {after : List SourceLine} {s : RunState}
  {name gap argument : List Char}

theorem evaluate_of_action [Limits] {r : ReadLine} (h : e.Arrives m l after s)
    (hname : Registry.IsRegistrable (String.ofList name)) (hread : Document.readLine l.text = .ok r)
    (hst : Written (.action name argument) (trim l.text))
    (hshown : ∀ x ∈ (s.chain.run (l.view r)).1, x.ended = false) :
    e.evaluate m = e.conclude (resume m after (callRegistered
      (atLine s l r) (String.ofList name) (String.ofList argument))) := by
  have hblank : l.isBlank = false := by
    by_contra h
    have htrim := SourceLine.isBlank_iff_trim.1 (by simpa using h)
    exact absurd (hst.eq_blank htrim) (by simp)
  rw [evaluate_of_arrives h, ending_cons (visit_of_passed hblank hread hst hshown),
    Statement.effect, callAction_of_not_builtIn (Registry.isRegistrable_iff.1 hname).1]

/-- A name that can be registered can be called by a line, and calls what is registered under it.
Conversely a legal line calls nothing else. -/
theorem evaluate_action [Limits] (e : Evaluator) (m : Machine) :
    (∀ l after s name gap argument, e.Arrives m l after s →
      Registry.IsRegistrable (String.ofList name) →
      l.text = withoutReturn ('@' :: (name ++ (gap ++ argument))) → IsBlankRun gap →
      (argument ≠ [] → gap ≠ []) → trim argument = argument →
      byteLength ('@' :: (name ++ (gap ++ argument))) ≤ maxLineLength →
      ∃ r, Document.readLine l.text = .ok r ∧
        ((∀ x ∈ (s.chain.run (l.view r)).1, x.ended = false) →
          let t := atLine s l r
          match s.registry.get? (String.ofList name) with
          | none =>
            e.evaluate m = e.conclude (.error (.undefinedAction (String.ofList name)), t)
          | some c =>
            e.evaluate m = e.conclude (resume m after
              ((c.call (String.ofList argument)).1.effect (String.ofList name),
                called t ⟨String.ofList name, String.ofList argument⟩ c)))) ∧
    ∀ (v : LineView) l, v.line = Document.openEnded l → l.check v.text = .ok () →
      l.kind 0 = .actionSign →
      let name := v.tokenText 1
      (Vocabulary.isBuiltIn name = true ∧ ∀ m s, (dispatch m v s).2 = s) ∨
        (Vocabulary.isBuiltIn name = false ∧ ∀ r c, Registry.size r < maxActions →
          ∃ r', r.register (String.ofList name) c = .ok r') := by
  constructor
  · intro l after s name gap argument h hname hline hgap hne hargument hlen
    have hname' := (Registry.isRegistrable_iff.1 hname).2
    rw [String.toList_ofList] at hname'
    have hwritten := Written.of_action hname' hgap hne hargument
    rw [← trim_withoutReturn, ← hline] at hwritten
    have hlen' : byteLength (withoutReturn l.text) ≤ maxLineLength := by
      rw [hline]
      exact (byteLength_withoutReturn_le _).trans ((byteLength_withoutReturn_le _).trans hlen)
    obtain ⟨r, hread, -⟩ := Document.exists_readLine_of_written hlen' hwritten
    refine ⟨r, hread, ?_⟩
    intro hshown t
    have heval := evaluate_of_action h hname hread hwritten hshown
    have hregistry : t.registry = s.registry := rfl
    cases hget : s.registry.get? (String.ofList name) with
    | none => rw [heval, callRegistered_of_eq_none (hregistry ▸ hget)]; rfl
    | some c => rw [heval, callRegistered_of_eq_some (hregistry ▸ hget)]
  · intro v l
    exact name_of_check

theorem evaluate_action_umlaut :
    let c : Callback := { answer := fun _ => .unknownCode 7 }
    let e : Evaluator := { document := "@größe\u2003groß\r\n@EndAll", registry := ⟨[("größe", c)]⟩ }
    let l : Line :=
      ⟨[⟨.actionSign, some ⟨0, 1⟩⟩, ⟨.actionName, some ⟨1, 8⟩⟩, ⟨.actionArgument, some ⟨8, 8⟩⟩],
        by decide⟩
    (e.evaluate {}).1.verdict = .error (.actionFailed "größe" 7) ∧
      (e.evaluate {}).1.calls = [⟨"größe", "groß"⟩] ∧ l.check "@größe".toList = .ok () ∧
      ∃ r, Registry.register {} "größe" c = .ok r := by
  intro c e l
  have harrives : e.Arrives {} ⟨1, 0, "@größe\u2003groß".toList⟩
      [⟨2, 18, "@EndAll".toList⟩] e.start :=
    ⟨by decide, [], by decide, rfl⟩
  have hname : Registry.IsRegistrable (String.ofList "größe".toList) :=
    Registry.isRegistrable_iff.2 ⟨by decide, by decide, forall_of_all (by decide)⟩
  obtain ⟨r, -, heval⟩ := (evaluate_action e {}).1 _ _ _ "größe".toList "\u2003".toList
    "groß".toList harrives hname (by decide) (by decide) (by decide) (by decide) (by decide)
  have hcall : e.evaluate {} = _ := heval (by rintro x (hx : x ∈ []); simp at hx)
  have hcheck : l.check "@größe".toList = .ok () := by decide
  refine ⟨by rw [hcall]; rfl, by rw [hcall]; rfl, hcheck, ?_⟩
  rcases (evaluate_action e {}).2 ⟨0, 1, l, "@größe".toList⟩ l rfl hcheck rfl with h | h
  · exact absurd h.1 (by decide)
  · exact h.2 {} c (by decide)

end Evaluator

end PlatformRules
