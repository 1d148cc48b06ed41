import PlatformRules.Proofs.Evaluation.Sessions
import PlatformRules.Proofs.Foreign.Evaluation

namespace PlatformRules

open Text

namespace Evaluation

variable [Limits] {m : Machine} {s : RunState} {l : SourceLine} {ls : List SourceLine} {call : Call}

theorem calls_left_suffix (m : Machine) (s : RunState) (l : SourceLine) :
    s.calls <:+ (left m s l).calls := by
  rcases registry_left m s l with ⟨-, h⟩ | ⟨call, c, -, h, -⟩
  · rw [h]
  · rw [h]
    exact List.suffix_cons call s.calls

theorem calls_left_suffix_cons (m : Machine) (s : RunState) (l : SourceLine)
    (ls : List SourceLine) :
    (left m s l).calls <:+ (ending ((l :: ls).foldlM (visit m) s)).2.calls := by
  cases hvisit : visit m s l with
  | error ended =>
    rw [ending_cons_of_error hvisit, left_of_error hvisit]
  | ok t =>
    rw [ending_cons_of_ok hvisit, left_of_ok hvisit]
    apply ending_induction (P := fun u => t.calls <:+ u.calls) _ (List.suffix_refl _)
    exact fun u k hu => hu.trans (calls_left_suffix m u k)

def emptied (s : RunState) : RunState :=
  { s with registry := {} }

omit [Limits] in
theorem effect_emptied (m : Machine) (s : RunState) (st : Statement) :
    (∃ call c, (st.effect m s).2 = called s call c ∧
      st.effect m (emptied s) = (some (.error (.undefinedAction call.name)), emptied s)) ∨
    (st.effect m s).2 = s ∧ st.effect m (emptied s) = ((st.effect m s).1, emptied s) := by
  cases st with
  | blank => exact .inr ⟨rfl, rfl⟩
  | comment text => exact .inr ⟨rfl, rfl⟩
  | path o f value => exact .inr ⟨rfl, rfl⟩
  | action name argument =>
    simp only [Statement.effect]
    generalize String.ofList name = name
    generalize String.ofList argument = argument
    cases hbuiltIn : Vocabulary.isBuiltIn name.toList with
    | true =>
      refine .inr ⟨callAction_of_builtIn hbuiltIn, ?_⟩
      unfold callAction
      rcases isBuiltIn_iff.1 hbuiltIn with rfl | rfl | rfl <;> rfl
    | false =>
      have hnone : (emptied s).registry.get? name = none := rfl
      rw [callAction_of_not_builtIn hbuiltIn, callAction_of_not_builtIn hbuiltIn,
        callRegistered_of_eq_none hnone]
      cases hget : s.registry.get? name with
      | none =>
        rw [callRegistered_of_eq_none hget]
        exact .inr ⟨rfl, rfl⟩
      | some c =>
        rw [callRegistered_of_eq_some hget]
        exact .inl ⟨⟨name, argument⟩, c, rfl, rfl⟩

theorem visit_emptied (m : Machine) (s : RunState) (l : SourceLine) :
    (∃ call u, (left m s l).calls = call :: s.calls ∧
      visit m (emptied s) l = .error (.error (.undefinedAction call.name), u)) ∨
    (left m s l).calls = s.calls ∧
      Except.Related (EndsBy id fun s t => t = emptied s) (fun s t => t = emptied s)
        (visit m s l) (visit m (emptied s) l) := by
  have hvisits := visits m s l
  generalize hx : visit m s l = x at hvisits
  cases hvisits with
  | blank hblank =>
    rw [visit_of_blank hblank]
    exact .inr ⟨by rw [left_of_ok hx], rfl⟩
  | unreadable hblank hread =>
    rw [visit_of_error hblank hread]
    exact .inr ⟨by rw [left_of_error hx], rfl, rfl⟩
  | @ended r x hblank hread hx' h =>
    have hemptied : visit m (emptied s) l = _ := visit_of_ended hblank hread hx' h
    rw [hemptied]
    exact .inr ⟨by rw [left_of_error hx]; rfl, rfl, rfl⟩
  | @passed r st hblank hread hst h =>
    have hemptied : visit m (emptied s) l = _ := visit_of_passed hblank hread hst h
    have hleft := left_of_outcome hx
    rw [hemptied]
    rcases effect_emptied m (atLine s l r) st with ⟨call, c, hcall, hmissing⟩ | ⟨hsame, heffect⟩
    · refine .inl ⟨call, _, ?_, congrArg outcome hmissing⟩
      rw [hleft, hcall]
      rfl
    · refine .inr ⟨by rw [hleft, hsame]; rfl, ?_⟩
      have hsecond : st.effect m (atLine (emptied s) l r) =
        ((st.effect m (atLine s l r)).1, emptied (atLine s l r)) := heffect
      rw [hsecond]
      apply outcome_related
      · rw [Option.map_id_fun, id]
      · rw [hsame]

theorem verdict_emptied {new : List Call}
    (hcalls : (ending (ls.foldlM (visit m) s)).2.calls = new ++ s.calls)
    (hfirst : new.getLast? = some call) :
    (ending (ls.foldlM (visit m) (emptied s))).1 = .error (.undefinedAction call.name) := by
  induction ls generalizing s with
  | nil =>
    obtain rfl := List.self_eq_append_left.1 hcalls
    simp at hfirst
  | cons l ls ih =>
    rcases visit_emptied m s l with ⟨first, u, hleft, hmissing⟩ | ⟨hleft, hrelated⟩
    · obtain ⟨more, hmore⟩ := calls_left_suffix_cons m s l ls
      rw [hcalls, hleft, List.append_cons, List.append_left_inj] at hmore
      obtain rfl : first = call := by simpa [← hmore] using hfirst
      rw [ending_cons_of_error hmissing]
    · cases hvisit : visit m s l with
      | error ended =>
        -- Nothing was called before the run ended.
        rw [left_of_error hvisit] at hleft
        rw [ending_cons_of_error hvisit] at hcalls
        obtain rfl := List.self_eq_append_left.1 (hleft.symm.trans hcalls)
        simp at hfirst
      | ok t =>
        rw [left_of_ok hvisit] at hleft
        rw [hvisit] at hrelated
        cases hemptied : visit m (emptied s) l with
        | error ended => simp [hemptied, Except.Related] at hrelated
        | ok t' =>
          rw [hemptied] at hrelated
          obtain rfl : t' = emptied t := hrelated
          rw [ending_cons_of_ok hvisit, ← hleft] at hcalls
          rw [ending_cons_of_ok hemptied]
          exact ih hcalls

end Evaluation

namespace Evaluator

open Evaluation

variable [Limits] {e e' : Evaluator} {m : Machine}

theorem verdict_of_empty {call : Call} (hdocument : e'.document = e.document)
    (hchain : e'.chain = e.chain) (hregistry : e'.registry = {})
    (hcall : (e.evaluate m).1.calls.head? = some call) :
    (e'.evaluate m).1.verdict = .error (.undefinedAction call.name) := by
  by_cases hsize : e.document.utf8ByteSize ≤ maxDocumentSize
  · have hsize' : e'.document.utf8ByteSize ≤ maxDocumentSize := hdocument ▸ hsize
    have hstart : e'.start = emptied e.start := by
      rw [start, hchain, hregistry]
      rfl
    rw [evaluate_of_size hsize, run_eq] at hcall
    rw [evaluate_of_size hsize', run_eq, hdocument, hstart]
    apply verdict_emptied (List.append_nil _).symm
    rw [← List.head?_reverse]
    exact hcall
  · rw [evaluate_of_large hsize] at hcall
    simp at hcall

theorem exists_call_of_resets (h : e.Resets m) :
    ∃ call, (e.evaluate m).1.calls.head? = some call := by
  obtain ⟨l, after, s, harrives, call, c, hcalls, -⟩ := h
  have hsuffix := calls_left_suffix_cons m s l after
  rw [hcalls] at hsuffix
  obtain ⟨more, hmore⟩ := hsuffix
  rw [evaluate_of_arrives harrives, conclude, ← hmore]
  simp

end Evaluator

namespace Foreign

section

variable [Limits]

/-- The evaluators that foreign code can hold. It evaluates them for a machine that it gives, or for
the host. -/
inductive IsHandle : Evaluator → Prop
  | new {document : ForeignBytes} {e : Evaluator} (h : newEvaluator document = .ok e) : IsHandle e
  | register {e e' : Evaluator} {name : ForeignBytes} {callback : Option Callback}
    (h : IsHandle e) (hregister : register (some e) name callback = .ok e') : IsHandle e'
  | evaluate {e : Evaluator} (h : IsHandle e) (m : Machine) : IsHandle (e.evaluate m).2

variable {host : Machine} {e : Evaluator} {machine : Option ForeignMachine} {m : Machine}
  {value : String}

theorem exists_of_register {e e' : Evaluator} {name : ForeignBytes} {callback : Option Callback}
    (h : register (some e) name callback = .ok e') :
    ∃ name c, e.register name c = .ok e' := by
  cases callback with
  | none => simp [register] at h
  | some c =>
    obtain ⟨text, -, h⟩ := exists_of_bind_eq_ok h
    refine ⟨text, c, ?_⟩
    cases hregister : e.register text c with
    | error cause => simp [hregister, Except.mapError] at h
    | ok e'' => simpa [hregister, Except.mapError] using h

omit [Limits] in
theorem exists_of_newEvaluator {document : ForeignBytes} (h : newEvaluator document = .ok e) :
    ∃ text, e = { document := text } := by
  obtain ⟨text, -, he⟩ := exists_of_bind_eq_ok h
  exact ⟨text, (Except.ok.inj he).symm⟩

theorem IsHandle.reachable (h : IsHandle e) : e.Reachable := by
  induction h with
  | new h =>
    obtain ⟨text, rfl⟩ := exists_of_newEvaluator h
    exact .new text {}
  | register _ hregister ih =>
    obtain ⟨name, c, hregister⟩ := exists_of_register hregister
    exact ih.register hregister
  | evaluate _ m ih => exact ih.evaluate m

theorem IsHandle.chain_eq (h : IsHandle e) : e.chain = {} := by
  induction h with
  | new h =>
    obtain ⟨text, rfl⟩ := exists_of_newEvaluator h
    rfl
  | @register e e' name callback _ hregister ih =>
    obtain ⟨name, c, hregister⟩ := exists_of_register hregister
    obtain ⟨r, -, rfl⟩ := Evaluator.exists_of_register_eq_ok hregister
    exact ih
  | @evaluate e _ m ih =>
    obtain ⟨hdeciders, hnext⟩ := Evaluator.chain_evaluate e m
    rw [ih] at hdeciders hnext
    generalize (e.evaluate m).2.chain = chain at hdeciders hnext
    obtain ⟨bound, next⟩ := chain
    obtain rfl := List.map_eq_nil_iff.1 hdeciders
    exact congrArg _ hnext

/-- The value of an evaluation can be had by a second one with room for it, however the first one
fared, unless that one emptied the registry. Then the second one ends at the first call. -/
theorem evaluate_again (he : IsHandle e)
    (hcallbacks : ∀ name g, e.registry.answers name = some g → IsStateless g)
    (hm : Asks host machine m) (hvalue : (e.evaluate m).1.verdict = .ok (some value)) (memory : ForeignBytes) :
    let first := evaluate host (some e) machine memory
    (first.reply.status = -1 ↔ ¬Fits value memory) ∧
    ∀ bytes, (Utf8.encode value).length + 1 ≤ bytes.length →
      let again := evaluate host first.evaluator machine (some bytes)
      (¬e.Resets m → again.reply = { status := 1, memory := some (Utf8.encode value ++
        0 :: bytes.drop ((Utf8.encode value).length + 1)) }) ∧
      (e.Resets m → ∃ call, (e.evaluate m).1.calls.head? = some call ∧ again.reply =
        { status := -1, memory := some bytes,
          error := some (.document (.undefinedAction call.name)) }) := by
  intro first
  have hfirst : first = _ := evaluate_of_asks hm
  rw [hfirst, hvalue]
  have hchain : (e.evaluate m).2.chain = e.chain := (he.evaluate m).chain_eq.trans he.chain_eq.symm
  obtain ⟨hdocument, -⟩ := Evaluator.document_evaluate e m
  obtain ⟨hreset, hkeep⟩ := Evaluator.registry_evaluate he.reachable.ordered m
  refine ⟨(tells_writeVerdict _ memory).failed_iff, fun bytes hle => ?_⟩
  intro again
  have hagain : again = _ := evaluate_of_asks hm
  rw [hagain]
  constructor
  · intro hnot
    have hstart : Evaluation.Lockstep e.start (e.evaluate m).2.start :=
      ⟨(hkeep hnot).answers, congrArg ObserverChain.deciders hchain, hcallbacks,
        by simp [Evaluator.start, he.chain_eq, ObserverChain.deciders], rfl, rfl, rfl⟩
    rw [(Evaluator.evaluate_of_lockstep hdocument hstart m).1, hvalue, writeVerdict_of_fits hle]
    rfl
  · intro hresets
    obtain ⟨call, hcall⟩ := Evaluator.exists_call_of_resets hresets
    refine ⟨call, hcall, ?_⟩
    rw [Evaluator.verdict_of_empty hdocument hchain (hreset hresets) hcall]
    rfl

end

theorem evaluate_again_hello :
    let hello : Callback := { answer := fun _ => .reply .proceed }
    let e : Evaluator := { document := "@hello\n-> \"x\"", registry := ⟨[("hello", hello)]⟩ }
    let first := evaluate {} (some e) (some {}) (some [255])
    IsHandle e ∧ first.reply.status = -1 ∧
      (evaluate {} first.evaluator (some {}) (some [255, 255, 255])).reply =
        { status := 1, memory := some [120, 0, 255] } := by
  intro hello e first
  have hnew : newEvaluator (some (Utf8.encode "@hello\n-> \"x\"")) =
      .ok { document := "@hello\n-> \"x\"" } := rfl
  have hregister : register (some { document := "@hello\n-> \"x\"" })
      (some (Utf8.encode "hello")) (some hello) = .ok e := rfl
  have he : IsHandle e := .register (.new hnew) hregister
  have hanswers : ∀ name g, e.registry.answers name = some g → g = hello.answer :=
    fun _ _ => Registry.eq_of_answers_singleton
  have hcallbacks : ∀ name g, e.registry.answers name = some g → IsStateless g :=
    fun name g hg => hanswers name g hg ▸ fun _ _ _ => rfl
  have hreset : ¬e.Resets {} := by
    apply Evaluator.not_resets_of_neverResets
    intro name g hg xs
    rw [hanswers name g hg]
    simp [hello]
  have hm : Asks {} (some {}) {} := ⟨trivial, trivial, trivial, trivial, rfl⟩
  have hvalue : (e.evaluate {}).1.verdict = .ok (some "x") := by decide +kernel
  obtain ⟨hfailed, hagain⟩ := evaluate_again he hcallbacks hm hvalue (some [255])
  refine ⟨he, hfailed.2 ?_, (hagain [255, 255, 255] (by decide)).1 hreset⟩
  rintro ⟨bytes, hbytes, hle⟩
  obtain rfl := Option.some.inj hbytes
  exact absurd hle (by decide)

/-- A callback that always asks for a reset: the second call does not get the value of the first. -/
theorem exists_evaluate_again_ne : ∃ (e : Evaluator) (f : ForeignMachine) (value : String)
    (bytes : List UInt8), IsHandle e ∧
      (∀ name g, e.registry.answers name = some g → IsStateless g) ∧
      let first := evaluate {} (some e) (some f) (some [255])
      first.reply.status = -1 ∧ first.report.map (·.verdict) = some (.ok (some value)) ∧
      (Utf8.encode value).length + 1 ≤ bytes.length ∧
      (evaluate {} first.evaluator (some f) (some bytes)).reply.status ≠ 1 := by
  let reset : Callback := { answer := fun _ => .reply .reset }
  let e : Evaluator := { document := "@R\n-> \"x\"", registry := ⟨[("R", reset)]⟩ }
  have hnew : newEvaluator (some (Utf8.encode "@R\n-> \"x\"")) =
      .ok { document := "@R\n-> \"x\"" } := rfl
  have hregister : register (some { document := "@R\n-> \"x\"" })
      (some (Utf8.encode "R")) (some reset) = .ok e := rfl
  have hanswers : ∀ name g, e.registry.answers name = some g → g = reset.answer :=
    fun _ _ => Registry.eq_of_answers_singleton
  refine ⟨e, {}, "x", [255, 255], .register (.new hnew) hregister, ?_, ?_, ?_, ?_, ?_⟩
  · exact fun name g hg => hanswers name g hg ▸ fun _ _ _ => rfl
  · decide +kernel
  · decide +kernel
  · decide
  · decide +kernel

end Foreign

end PlatformRules
