import PlatformRules.Log.Event

namespace PlatformRules

structure EventMemory where
  -- the oldest first
  events : List Event := []

namespace EventMemory

def count (m : EventMemory) : Nat :=
  m.events.length

variable [Limits]

def makeRoom (m : EventMemory) : EventMemory :=
  if memoryCapacity ≤ m.count then ⟨m.events.drop (m.count - memoryCapacity + 1)⟩ else m

def log (m : EventMemory) (e : Event) : EventMemory :=
  ⟨m.makeRoom.events ++ [e]⟩

def clear (_ : EventMemory) : EventMemory :=
  {}

def first? (m : EventMemory) : Option Event :=
  m.events.head?

def errors (m : EventMemory) : List Event :=
  m.events.filter fun e => e.level = .error

def withCode (m : EventMemory) (code : String) : List Event :=
  m.events.filter fun e => e.code = code

def hasError (m : EventMemory) (code : String) : Bool :=
  m.events.any fun e => e.level = .error ∧ e.code = code

def hasSuccess (m : EventMemory) (code : String) : Bool :=
  m.events.any fun e => e.level = .info ∧ e.code = code

end EventMemory

structure LogService where
  level : LogLevel
  memory : EventMemory := {}

namespace LogService

def admits (s : LogService) (l : LogLevel) : Bool :=
  s.level.admits l

variable [Limits]

def log (s : LogService) (e : Event) : LogService :=
  if s.admits e.level then { s with memory := s.memory.log e } else s

def logDirectly (s : LogService) (e : Event) : LogService :=
  { s with memory := s.memory.log e }

def clear (s : LogService) : LogService :=
  { s with memory := s.memory.clear }

end LogService

end PlatformRules
