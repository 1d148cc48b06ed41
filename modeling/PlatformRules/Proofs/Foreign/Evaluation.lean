import PlatformRules.Foreign.Call
import PlatformRules.Proofs.Folds
import PlatformRules.Proofs.Text.Encoding

namespace PlatformRules

def ForeignBytes.Spells (b : ForeignBytes) (field : Option String) : Prop :=
  match b, field with
  | none, none => True
  | some bytes, some text => Utf8.encode text = bytes.takeWhile (· ≠ 0)
  | _, _ => False

theorem ForeignBytes.spells_some_iff {bytes : List UInt8} {field : Option String} :
    Spells (some bytes) field ↔ ∃ text, field = some text ∧
      Utf8.encode text = bytes.takeWhile (· ≠ 0) := by
  cases field <;> simp [Spells]

namespace ForeignMachine

variable {f : ForeignMachine} {m : Machine} {b : ForeignBytes} {field : Option String}

structure Denotes (f : ForeignMachine) (m : Machine) : Prop where
  system : f.system.Spells m.system
  distro : f.distro.Spells m.distro
  family : f.family.Spells m.family
  architecture : f.architecture.Spells m.architecture
  version : m.version = if f.version < 0 then none else some f.version

def strings (f : ForeignMachine) : List ForeignBytes :=
  [f.system, f.distro, f.family, f.architecture]

theorem readField_eq_ok_iff : readField b = .ok field ↔ b.Spells field := by
  cases b with
  | none => cases field <;> simp [readField, ForeignBytes.Spells]
  | some bytes =>
    rw [ForeignBytes.spells_some_iff]
    simp only [readField, ForeignBytes.untilZero, Option.map_some, ForeignBytes.toText]
    cases hdecode : Utf8.decode? (bytes.takeWhile (· ≠ 0)) with
    | none =>
      refine iff_of_false (by simp [Except.map]) ?_
      rintro ⟨text, -, htext⟩
      exact absurd (hdecode.symm.trans (Utf8.decode?_eq_some_iff.2 htext)) (by simp)
    | some text =>
      have hunique : ∀ text', Utf8.encode text' = bytes.takeWhile (· ≠ 0) ↔ text' = text := by
        intro text'
        rw [← Utf8.decode?_eq_some_iff, hdecode, Option.some.injEq, eq_comm]
      simp only [hunique]
      simp [Except.map, eq_comm]

theorem toMachine_eq_ok_iff : f.toMachine = .ok m ↔ f.Denotes m := by
  constructor
  · intro h
    obtain ⟨system, hsystem, h⟩ := exists_of_bind_eq_ok h
    obtain ⟨distro, hdistro, h⟩ := exists_of_bind_eq_ok h
    obtain ⟨family, hfamily, h⟩ := exists_of_bind_eq_ok h
    obtain ⟨architecture, harchitecture, h⟩ := exists_of_bind_eq_ok h
    obtain rfl := Except.ok.inj h
    exact ⟨readField_eq_ok_iff.1 hsystem, readField_eq_ok_iff.1 hdistro,
      readField_eq_ok_iff.1 hfamily, readField_eq_ok_iff.1 harchitecture, rfl⟩
  · rintro ⟨hsystem, hdistro, hfamily, harchitecture, hversion⟩
    obtain ⟨system, distro, family, architecture, version⟩ := m
    obtain rfl : version = _ := hversion
    rw [toMachine, readField_eq_ok_iff.2 hsystem, readField_eq_ok_iff.2 hdistro,
      readField_eq_ok_iff.2 hfamily, readField_eq_ok_iff.2 harchitecture]
    rfl

theorem exists_denotes_iff : (∃ m, f.Denotes m) ↔
    ∀ bytes, some bytes ∈ f.strings → ∃ text, Utf8.encode text = bytes.takeWhile (· ≠ 0) := by
  have hspells : ∀ b : ForeignBytes, (∃ field, b.Spells field) ↔
      ∀ bytes, b = some bytes → ∃ text, Utf8.encode text = bytes.takeWhile (· ≠ 0) := by
    intro b
    cases b with
    | none => simpa using ⟨none, trivial⟩
    | some bytes =>
      simp only [ForeignBytes.spells_some_iff, Option.some.injEq, forall_eq']
      rw [exists_comm]
      simp
  constructor
  · rintro ⟨m, hm⟩ bytes hbytes
    simp only [strings, List.mem_cons, List.not_mem_nil, or_false] at hbytes
    rcases hbytes with h | h | h | h
    · exact (hspells f.system).1 ⟨_, hm.system⟩ bytes h.symm
    · exact (hspells f.distro).1 ⟨_, hm.distro⟩ bytes h.symm
    · exact (hspells f.family).1 ⟨_, hm.family⟩ bytes h.symm
    · exact (hspells f.architecture).1 ⟨_, hm.architecture⟩ bytes h.symm
  · intro h
    have hfield : ∀ b ∈ f.strings, ∃ field, b.Spells field :=
      fun b hb => (hspells b).2 fun bytes hbytes => h bytes (hbytes ▸ hb)
    obtain ⟨system, hsystem⟩ := hfield f.system (by simp [strings])
    obtain ⟨distro, hdistro⟩ := hfield f.distro (by simp [strings])
    obtain ⟨family, hfamily⟩ := hfield f.family (by simp [strings])
    obtain ⟨architecture, harchitecture⟩ := hfield f.architecture (by simp [strings])
    exact ⟨⟨system, distro, family, architecture, _⟩, hsystem, hdistro, hfamily, harchitecture, rfl⟩

end ForeignMachine

namespace Foreign

def Fits (value : String) (memory : ForeignBytes) : Prop :=
  ∃ bytes, memory = some bytes ∧ (Utf8.encode value).length + 1 ≤ bytes.length

variable {verdict : Verdict} {value : String} {bytes : List UInt8} {memory : ForeignBytes}

theorem writeVerdict_of_fits (h : (Utf8.encode value).length + 1 ≤ bytes.length) :
    writeVerdict (.ok (some value)) (some bytes) = .ok (1, some (Utf8.encode value ++
      0 :: bytes.drop ((Utf8.encode value).length + 1))) := by
  simp [writeVerdict, ForeignBytes.write, Nat.not_lt.2 h, Except.map]

theorem writeVerdict_of_not_fits (h : ¬Fits value memory) :
    ∃ cause, writeVerdict (.ok (some value)) memory = .error cause := by
  cases memory with
  | none => exact ⟨_, rfl⟩
  | some bytes =>
    have hlength : bytes.length < (Utf8.encode value).length + 1 :=
      Nat.not_le.1 fun hle => h ⟨bytes, rfl, hle⟩
    refine ⟨.bufferTooSmall ((Utf8.encode value).length + 1) bytes.length, ?_⟩
    simp [writeVerdict, ForeignBytes.write, hlength, Except.map]

structure Tells (reply : CallReply ForeignBytes) (verdict : Verdict) (memory : ForeignBytes) :
    Prop where
  status_mem : reply.status ∈ [1, 0, -1]
  matched : reply.status = 1 ↔ ∃ value, verdict = .ok (some value) ∧ Fits value memory
  unmatched : reply.status = 0 ↔ verdict = .ok none
  kept : reply.status ≠ 1 → reply.memory = memory
  written : ∀ value bytes, verdict = .ok (some value) → memory = some bytes →
    Fits value memory → reply.memory = some (Utf8.encode value ++
      0 :: bytes.drop ((Utf8.encode value).length + 1))

theorem tells_error {cause : CallError} (hsome : verdict ≠ .ok none)
    (hfits : ∀ value, verdict = .ok (some value) → ¬Fits value memory) :
    Tells (.ofResult CallError.evaluationStatus memory (.error cause)) verdict memory where
  status_mem := by simp [CallReply.ofResult, CallError.evaluationStatus]
  matched := by
    refine iff_of_false (by simp [CallReply.ofResult, CallError.evaluationStatus]) ?_
    rintro ⟨value, hvalue, h⟩
    exact hfits value hvalue h
  unmatched := iff_of_false (by simp [CallReply.ofResult, CallError.evaluationStatus]) hsome
  kept := fun _ => rfl
  written := fun value _ hvalue _ h => absurd h (hfits value hvalue)

theorem tells_writeVerdict (verdict : Verdict) (memory : ForeignBytes) : Tells
    (.ofResult CallError.evaluationStatus memory (writeVerdict verdict memory)) verdict memory := by
  cases verdict with
  | error cause => exact tells_error (by simp) (by simp)
  | ok selection =>
    cases selection with
    | none => exact ⟨by simp [writeVerdict, CallReply.ofResult],
        by simp [writeVerdict, CallReply.ofResult],
        by simp [writeVerdict, CallReply.ofResult], fun _ => rfl, by simp⟩
    | some value =>
      have hunique : ∀ value', (.ok (some value) : Verdict) = .ok (some value') → value = value' :=
        fun _ h => Option.some.inj (Except.ok.inj h)
      by_cases hfits : Fits value memory
      · obtain ⟨bytes, rfl, hle⟩ := hfits
        rw [writeVerdict_of_fits hle]
        refine ⟨by simp [CallReply.ofResult], ?_, by simp [CallReply.ofResult], ?_, ?_⟩
        · exact iff_of_true rfl ⟨value, rfl, bytes, rfl, hle⟩
        · exact fun hne => absurd rfl hne
        · rintro value' bytes' hvalue hbytes -
          obtain rfl := hunique value' hvalue
          obtain rfl := Option.some.inj hbytes
          rfl
      · obtain ⟨cause, hcause⟩ := writeVerdict_of_not_fits hfits
        rw [hcause]
        exact tells_error (by simp) fun value' hvalue => hunique value' hvalue ▸ hfits

theorem Tells.failed_iff {reply : CallReply ForeignBytes}
    (h : Tells reply (.ok (some value)) memory) : reply.status = -1 ↔ ¬Fits value memory := by
  have hmatched : reply.status = 1 ↔ Fits value memory := by
    rw [h.matched]
    constructor
    · rintro ⟨value', hvalue, hfits⟩
      obtain rfl : value = value' := Option.some.inj (Except.ok.inj hvalue)
      exact hfits
    · exact fun hfits => ⟨value, rfl, hfits⟩
  have hne : reply.status ≠ 0 := mt h.unmatched.1 (by simp)
  have hmem : reply.status = 1 ∨ reply.status = 0 ∨ reply.status = -1 := by
    simpa using h.status_mem
  rw [← hmatched]
  omega

variable {host : Machine} {e : Evaluator} {machine : Option ForeignMachine} {f : ForeignMachine}
  {m : Machine}

def Asks (host : Machine) : Option ForeignMachine → Machine → Prop
  | none, m => m = host
  | some f, m => f.Denotes m

theorem machineOr_eq_ok_iff : machineOr host machine = .ok m ↔ Asks host machine m := by
  cases machine with
  | none => exact ⟨fun h => (Except.ok.inj h).symm, fun h => congrArg Except.ok h.symm⟩
  | some f => exact ForeignMachine.toMachine_eq_ok_iff

section

variable [Limits]

theorem evaluate_of_asks (h : Asks host machine m) : evaluate host (some e) machine memory =
    { reply := .ofResult CallError.evaluationStatus memory
        (writeVerdict (e.evaluate m).1.verdict memory)
      report := some (e.evaluate m).1, evaluator := some (e.evaluate m).2 } := by
  simp only [evaluate, machineOr_eq_ok_iff.2 h]

theorem evaluate_of_not_asks (h : ¬∃ m, Asks host machine m) (e : Evaluator)
    (memory : ForeignBytes) : ∃ cause, evaluate host (some e) machine memory =
      { reply := { status := -1, memory, error := some cause }, evaluator := some e } := by
  cases hread : machineOr host machine with
  | error cause =>
    refine ⟨cause, ?_⟩
    simp only [evaluate, hread]
    rfl
  | ok m => exact absurd ⟨m, machineOr_eq_ok_iff.1 hread⟩ h

/-- Foreign code is told the verdict of the evaluation for its machine as far as the buffer has
room, and is left with the evaluator that the evaluation leaves. Without a machine there is no
evaluation. -/
theorem evaluate_refines (host : Machine) (e : Evaluator) (f : ForeignMachine)
    (memory : ForeignBytes) :
    let r := evaluate host (some e) (some f) memory
    (∀ m, f.Denotes m → Tells r.reply (e.evaluate m).1.verdict memory ∧
      r.evaluator = some (e.evaluate m).2) ∧
    ((¬∃ m, f.Denotes m) →
      r.reply.status = -1 ∧ r.reply.memory = memory ∧ r.evaluator = some e) ∧
    ((∃ m, f.Denotes m) ↔
      ∀ bytes, some bytes ∈ f.strings → ∃ text, Utf8.encode text = bytes.takeWhile (· ≠ 0)) := by
  intro r
  refine ⟨fun m hm => ?_, fun hnot => ?_, ForeignMachine.exists_denotes_iff⟩
  · have hr : r = _ := evaluate_of_asks hm
    rw [hr]
    exact ⟨tells_writeVerdict _ memory, rfl⟩
  · have hnone : ¬∃ m, Asks host (some f) m := hnot
    obtain ⟨cause, hcause⟩ := evaluate_of_not_asks hnone e memory
    have hr : r = _ := hcause
    rw [hr]
    exact ⟨rfl, rfl, rfl⟩

end

theorem evaluate_refines_linux :
    let e : Evaluator := { document := "-> linux \"x\"" }
    let f : ForeignMachine := { system := some [108, 105, 110, 117, 120, 0, 255] }
    let r := evaluate {} (some e) (some f) (some [255, 255, 255])
    f.Denotes { system := "linux" } ∧ r.reply.status = 1 ∧
      r.reply.memory = some [120, 0, 255] := by
  intro e f r
  have hf : f.Denotes { system := "linux" } := ⟨rfl, trivial, trivial, trivial, rfl⟩
  obtain ⟨htells, -⟩ := (evaluate_refines {} e f (some [255, 255, 255])).1 _ hf
  have hverdict : (e.evaluate { system := "linux" }).1.verdict = .ok (some "x") := by decide +kernel
  have hfits : Fits "x" (some [255, 255, 255]) := ⟨_, rfl, by decide⟩
  exact ⟨hf, htells.matched.2 ⟨"x", hverdict, hfits⟩, htells.written "x" _ hverdict rfl hfits⟩

end Foreign

end PlatformRules
