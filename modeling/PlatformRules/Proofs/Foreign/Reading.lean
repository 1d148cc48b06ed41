import PlatformRules.Proofs.Foreign.Evaluation

namespace PlatformRules

namespace Utf8

variable {bytes : List UInt8} {n : Nat} {c : Char}

theorem eq_zero_of_form (h : Form bytes n) (hzero : 0 ∈ bytes) : n = 0 := by
  have hsecond {a : UInt8} : ¬isSecond a 0 = true :=
    fun h => absurd (isSecond_iff.1 h).1.1 (by decide)
  have hcontinues : ¬isContinuation 0 = true := by decide
  cases h with
  | one ha =>
    obtain rfl := List.mem_singleton.1 hzero
    rfl
  | two ha hb =>
    simp only [List.mem_cons, List.not_mem_nil, or_false] at hzero
    rcases hzero with rfl | rfl
    · exact absurd ha.1 (by decide)
    · exact absurd hb hsecond
  | three ha hb hc =>
    simp only [List.mem_cons, List.not_mem_nil, or_false] at hzero
    rcases hzero with rfl | rfl | rfl
    · exact absurd ha.1 (by decide)
    · exact absurd hb hsecond
    · exact absurd hc hcontinues
  | four ha hb hc hd =>
    simp only [List.mem_cons, List.not_mem_nil, or_false] at hzero
    rcases hzero with rfl | rfl | rfl | rfl
    · exact absurd ha.1 (by decide)
    · exact absurd hb hsecond
    · exact absurd hc hcontinues
    · exact absurd hd hcontinues

theorem zero_mem_encode_iff : 0 ∈ String.utf8EncodeChar c ↔ c = '\x00' := by
  constructor
  · intro h
    exact Char.toNat_inj.1 (eq_zero_of_form (form_encode c) h)
  · rintro rfl
    decide

def untilZero (text : String) : String :=
  String.ofList (text.toList.takeWhile (· ≠ '\x00'))

theorem takeWhile_encode (text : String) :
    (encode text).takeWhile (· ≠ 0) = encode (untilZero text) := by
  rw [encode, encode, untilZero, String.toList_ofList]
  induction text.toList with
  | nil => rfl
  | cons c cs ih =>
    by_cases hc : c = '\x00'
    · subst hc
      rfl
    · have hbytes : ∀ b ∈ String.utf8EncodeChar c, decide (b ≠ 0) := by
        intro b hb
        have : b ≠ 0 := fun hzero => hc (zero_mem_encode_iff.1 (hzero ▸ hb))
        simpa using this
      rw [List.flatMap_cons, List.takeWhile_append_of_pos hbytes, ih,
        List.takeWhile_cons_of_pos (by simpa using hc), List.flatMap_cons]

theorem encode_injective {s t : String} (h : encode s = encode t) : s = t := by
  have hs := decode?_eq_some_iff.2 h
  have ht := decode?_eq_some_iff.2 (rfl : encode t = encode t)
  exact Option.some.inj (hs.symm.trans ht)

theorem untilZero_eq_self_iff {text : String} : untilZero text = text ↔ '\x00' ∉ text.toList := by
  rw [← String.toList_inj, untilZero, String.toList_ofList, List.takeWhile_eq_self_iff]
  constructor
  · intro h hmem
    exact absurd (h _ hmem) (by simp)
  · intro h c hc
    have : c ≠ '\x00' := fun hzero => h (hzero ▸ hc)
    simpa using this

end Utf8

namespace ForeignBytes

theorem toText_eq_ok_iff {b : ForeignBytes} {text : String} :
    b.toText = .ok text ↔ b = some (Utf8.encode text) := by
  cases b with
  | none => simp [toText]
  | some bytes =>
    rw [Option.some.injEq, eq_comm (b := Utf8.encode text), ← Utf8.decode?_eq_some_iff,
      toText]
    cases Utf8.decode? bytes <;> simp

end ForeignBytes

namespace Foreign

/-- What foreign code reads in the memory: the value as far as its first zero character, and so all
of it only if there is none. -/
def ReadsBack (value : String) (memory : ForeignBytes) : Prop :=
  memory.untilZero = some (Utf8.encode (Utf8.untilZero value)) ∧
    (memory.untilZero = some (Utf8.encode value) ↔ '\x00' ∉ value.toList)

variable {value : String} {verdict : Verdict} {memory : ForeignBytes}

theorem readsBack_of_written (value : String) (rest : List UInt8) :
    ReadsBack value (some (Utf8.encode value ++ 0 :: rest)) := by
  have hread : (Utf8.encode value ++ 0 :: rest).takeWhile (· ≠ 0) =
      Utf8.encode (Utf8.untilZero value) := by
    rw [← Utf8.takeWhile_encode, List.takeWhile_append]
    split
    · next hall =>
      rw [(List.takeWhile_prefix _).eq_of_length hall, List.takeWhile_cons_of_neg (by simp),
        List.append_nil]
    · rfl
  refine ⟨congrArg some hread, ?_⟩
  rw [← Utf8.untilZero_eq_self_iff, ForeignBytes.untilZero, Option.map_some, hread,
    Option.some.injEq]
  exact ⟨Utf8.encode_injective, congrArg Utf8.encode⟩

theorem Tells.readsBack {reply : CallReply ForeignBytes} (h : Tells reply verdict memory)
    (hstatus : reply.status = 1) :
    ∃ value, verdict = .ok (some value) ∧ ReadsBack value reply.memory := by
  obtain ⟨value, hverdict, hfits⟩ := h.matched.1 hstatus
  obtain ⟨bytes, hmemory, -⟩ := id hfits
  rw [h.written value bytes hverdict hmemory hfits]
  exact ⟨value, hverdict, readsBack_of_written ..⟩

/-- Behind the status of a match the memory holds the value, of which foreign code reads what stands
in front of a zero character. -/
theorem evaluate_reads_back [Limits] (host : Machine) (evaluator : Option Evaluator)
    (machine : Option ForeignMachine) (document memory : ForeignBytes) :
    ((evaluate host evaluator machine memory).reply.status = 1 → ∃ e m value,
      evaluator = some e ∧ Asks host machine m ∧ (e.evaluate m).1.verdict = .ok (some value) ∧
        ReadsBack value (evaluate host evaluator machine memory).reply.memory) ∧
    ((evaluateDocument host document memory).status = 1 → ∃ text value,
      document = some (Utf8.encode text) ∧
        (Evaluator.evaluate { document := text } host).1.verdict = .ok (some value) ∧
          ReadsBack value (evaluateDocument host document memory).memory) := by
  constructor
  · intro hstatus
    cases evaluator with
    | none => simp [evaluate, CallReply.ofResult, CallError.evaluationStatus] at hstatus
    | some e =>
      by_cases hasks : ∃ m, Asks host machine m
      · obtain ⟨m, hm⟩ := hasks
        rw [evaluate_of_asks hm] at hstatus ⊢
        obtain ⟨value, hverdict, hreads⟩ := (tells_writeVerdict _ memory).readsBack hstatus
        exact ⟨e, m, value, rfl, hm, hverdict, hreads⟩
      · obtain ⟨cause, hcause⟩ := evaluate_of_not_asks hasks e memory
        simp [hcause] at hstatus
  · intro hstatus
    cases htext : document.toText with
    | error cause =>
      simp [evaluateDocument, htext, bind, Except.bind, CallReply.ofResult,
        CallError.evaluationStatus] at hstatus
    | ok text =>
      have hdocument := ForeignBytes.toText_eq_ok_iff.1 htext
      have hreply : evaluateDocument host document memory =
          .ofResult CallError.evaluationStatus memory
            (writeVerdict (Evaluator.evaluate { document := text } host).1.verdict memory) := by
        simp only [evaluateDocument, htext, bind, Except.bind]
      rw [hreply] at hstatus ⊢
      obtain ⟨value, hverdict, hreads⟩ := (tells_writeVerdict _ memory).readsBack hstatus
      exact ⟨text, value, hdocument, hverdict, hreads⟩

theorem evaluate_reads_back_linux :
    let e : Evaluator := { document := "-> linux \"ü\"" }
    let f : ForeignMachine := { system := some [108, 105, 110, 117, 120, 0] }
    let r := evaluate {} (some e) (some f) (some [255, 255, 255])
    let d := evaluateDocument {} (some (Utf8.encode "-> \"x\"")) (some [255, 255, 255])
    r.reply.status = 1 ∧ d.status = 1 ∧
      (∃ value, r.report.map (·.verdict) = some (.ok (some value)) ∧
        ReadsBack value r.reply.memory) ∧
      ∃ value, ReadsBack value d.memory := by
  intro e f r d
  have hstatus : r.reply.status = 1 := by decide +kernel
  have hstatus' : d.status = 1 := by decide +kernel
  obtain ⟨hevaluate, hdocument⟩ := evaluate_reads_back {} (some e) (some f)
    (some (Utf8.encode "-> \"x\"")) (some [255, 255, 255])
  obtain ⟨e', m, value, he, hm, hverdict, hreads⟩ := hevaluate hstatus
  obtain ⟨text, value', -, -, hreads'⟩ := hdocument hstatus'
  obtain rfl := Option.some.inj he
  have hr : r = _ := evaluate_of_asks hm
  refine ⟨hstatus, hstatus', ⟨value, ?_, hreads⟩, value', hreads'⟩
  rw [hr]
  exact congrArg some hverdict

/-- A zero character between the quotes: foreign code is told of a match and reads its first
letter. -/
theorem exists_evaluate_not_read_back : ∃ (document : String) (value : String),
    let r := evaluate {} (some { document }) (some {}) (some (List.replicate 16 255))
    let d := evaluateDocument {} (some (Utf8.encode document)) (some (List.replicate 16 255))
    r.reply.status = 1 ∧ r.report.map (·.verdict) = some (.ok (some value)) ∧
      r.reply.memory.untilZero ≠ some (Utf8.encode value) ∧
      d.status = 1 ∧ d.memory.untilZero ≠ some (Utf8.encode value) := by
  refine ⟨"-> \"a\x00b\"", "a\x00b", ?_⟩
  decide +kernel

end Foreign

end PlatformRules
