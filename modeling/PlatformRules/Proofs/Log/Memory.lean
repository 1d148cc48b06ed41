import Mathlib.Data.List.DropRight
import Mathlib.Data.List.Induction
import PlatformRules.Log.Memory

namespace PlatformRules

inductive LogCall where
  | log (e : Event)
  | clear

namespace LogCall

def isLog : LogCall → Bool
  | log _ => true
  | clear => false

def event? : LogCall → Option Event
  | log e => some e
  | clear => none

def sinceClear (calls : List LogCall) : List Event :=
  (calls.rtakeWhile isLog).filterMap event?

theorem sinceClear_log (calls : List LogCall) (e : Event) :
    sinceClear (calls ++ [log e]) = sinceClear calls ++ [e] := by
  rw [sinceClear, List.rtakeWhile_concat_pos _ _ _ rfl, List.filterMap_append]
  rfl

theorem sinceClear_clear (calls : List LogCall) : sinceClear (calls ++ [clear]) = [] := by
  rw [sinceClear, List.rtakeWhile_concat_neg _ _ _ (by simp [isLog]), List.filterMap_nil]

end LogCall

open LogCall

namespace EventMemory

variable [Limits]

structure Remembers (m : EventMemory) (es : List Event) : Prop where
  isSuffix : m.events <:+ es
  count_eq : m.count = min es.length memoryCapacity

variable {m : EventMemory} {es : List Event}

theorem Remembers.count_le (h : m.Remembers es) : m.count ≤ memoryCapacity := by
  rw [h.count_eq]
  exact Nat.min_le_right ..

theorem remembers_nil : Remembers {} [] :=
  ⟨List.suffix_refl _, rfl⟩

theorem makeRoom_isSuffix (m : EventMemory) : m.makeRoom.events <:+ m.events := by
  unfold makeRoom
  split
  · exact List.drop_suffix _ _
  · exact List.suffix_refl _

theorem count_makeRoom (h : m.count ≤ memoryCapacity) :
    m.makeRoom.count = min m.count (memoryCapacity - 1) := by
  have hpositive := Limits.memoryCapacity_pos
  unfold count at h ⊢
  unfold makeRoom count
  split
  · rw [List.length_drop]
    omega
  · omega

theorem Remembers.log (h : m.Remembers es) (e : Event) : (m.log e).Remembers (es ++ [e]) := by
  constructor
  case isSuffix =>
    obtain ⟨older, holder⟩ := (makeRoom_isSuffix m).trans h.isSuffix
    exact ⟨older, by rw [EventMemory.log, ← List.append_assoc, holder]⟩
  case count_eq =>
    have hroom := count_makeRoom h.count_le
    have hcount := h.count_eq
    have hpositive := Limits.memoryCapacity_pos
    unfold EventMemory.log
    unfold count at hroom hcount ⊢
    rw [List.length_append, List.length_append, List.length_singleton]
    omega

def call (m : EventMemory) : LogCall → EventMemory
  | .log e => m.log e
  | .clear => m.clear

def run (m : EventMemory) (calls : List LogCall) : EventMemory :=
  calls.foldl call m

theorem run_concat (m : EventMemory) (calls : List LogCall) (c : LogCall) :
    m.run (calls ++ [c]) = (m.run calls).call c := by
  simp [run]

theorem remembers_run (calls : List LogCall) : (run {} calls).Remembers (sinceClear calls) := by
  induction calls using List.reverseRecOn with
  | nil => exact remembers_nil
  | append_singleton calls c ih =>
    rw [run_concat]
    cases c with
    | log e =>
      rw [sinceClear_log]
      exact ih.log e
    | clear =>
      rw [sinceClear_clear]
      exact remembers_nil

end EventMemory

def LogCall.passes (level : LogLevel) : LogCall → Bool
  | log e => e.level.number ≤ level.number
  | clear => true

theorem LogCall.sinceClear_filter (level : LogLevel) (calls : List LogCall) :
    sinceClear (calls.filter (passes level)) =
      (sinceClear calls).filter fun e => e.level.number ≤ level.number := by
  induction calls using List.reverseRecOn with
  | nil => rfl
  | append_singleton calls c ih =>
    rw [List.filter_append]
    cases c with
    | log e =>
      rw [sinceClear_log, List.filter_append, ← ih]
      by_cases h : e.level.number ≤ level.number
      · simp [passes, h, sinceClear_log]
      · simp [passes, h]
    | clear =>
      rw [sinceClear_clear]
      exact sinceClear_clear _

namespace LogService

variable [Limits]

def call (s : LogService) : LogCall → LogService
  | .log e => s.log e
  | .clear => s.clear

def run (s : LogService) (calls : List LogCall) : LogService :=
  calls.foldl call s

theorem call_eq (s : LogService) (c : LogCall) :
    s.call c = if c.passes s.level then { s with memory := s.memory.call c } else s := by
  cases c with
  | log e => simp [call, log, admits, LogLevel.admits, passes, EventMemory.call]
  | clear => rfl

theorem run_eq (s : LogService) (calls : List LogCall) :
    s.run calls = { s with memory := s.memory.run (calls.filter (passes s.level)) } := by
  induction calls generalizing s with
  | nil => rfl
  | cons c calls ih =>
    rw [run, List.foldl_cons, ← run, ih, call_eq]
    by_cases h : c.passes s.level
    · simp [h, EventMemory.run]
    · simp [h]

/-- A memory has the most recent of the events that were logged since it was cleared, in the order
of their calls, and never more than it has room for. Behind a filter this holds of the events that
are as grave as the level of the filter, or graver. -/
theorem memory_remembers (calls : List LogCall) :
    (EventMemory.run {} calls).Remembers (sinceClear calls) ∧
    (EventMemory.run {} calls).count ≤ memoryCapacity ∧
    ∀ level, let s := run { level } calls
      s.level = level ∧ s.memory.count ≤ memoryCapacity ∧
      s.memory.Remembers ((sinceClear calls).filter fun e => e.level.number ≤ level.number) := by
  have hall := EventMemory.remembers_run calls
  refine ⟨hall, hall.count_le, ?_⟩
  intro level s
  have hpassed := EventMemory.remembers_run (calls.filter (passes level))
  rw [sinceClear_filter] at hpassed
  have hs : s = { level, memory := EventMemory.run {} (calls.filter (passes level)) } :=
    run_eq { level } calls
  rw [hs]
  exact ⟨rfl, hpassed.count_le, hpassed⟩

end LogService

end PlatformRules
