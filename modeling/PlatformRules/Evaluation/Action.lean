import PlatformRules.Limits
import PlatformRules.Token.Vocabulary

/-!
Actions that a document can call by name. A callback answers from all arguments it has been given,
so one that keeps a state is covered too. The registry maps names to callbacks, in the order of the
names, and is bounded.
-/

namespace PlatformRules

inductive Reply where
  | proceed
  | error
  | stop
  | reset
deriving Repr, DecidableEq

namespace Reply

def all : List Reply :=
  [proceed, error, stop, reset]

def name : Reply → String
  | proceed => "Continue"
  | error => "Error"
  | stop => "Stop"
  | reset => "ResetRegistry"

def ofName? (s : String) : Option Reply :=
  all.find? fun r => r.name == s

def code : Reply → UInt8
  | proceed => 0
  | error => 1
  | stop => 250
  | reset => 251

def ofCode? (code : UInt8) : Option Reply :=
  all.find? fun r => r.code == code

end Reply

inductive ActionAnswer where
  | reply (r : Reply)
  | raised (message : String)
  | unknownCode (code : UInt8)
deriving Repr, DecidableEq

def ActionAnswer.ofCode (code : UInt8) : ActionAnswer :=
  match Reply.ofCode? code with
  | some r => reply r
  | none => unknownCode code

structure Callback where
  /-- The answer to the arguments so far, the newest first. -/
  answer : List String → ActionAnswer
  heard : List String := []

namespace Callback

def entry? {α : Type} : List α → List String → Option α
  | [], _ => none
  | [a], _ => some a
  | a :: _ :: _, [] | a :: _ :: _, [_] => some a
  | _ :: b :: script, _ :: heard => entry? (b :: script) heard

def scripted (script : List (String → ActionAnswer)) (default : ActionAnswer) : Callback where
  answer heard :=
    match entry? script heard with
    | some entry => entry (heard.headD "")
    | none => default

def call (c : Callback) (argument : String) : ActionAnswer × Callback :=
  let heard := argument :: c.heard
  (c.answer heard, { c with heard })

end Callback

inductive RegistrationError where
  | reservedName (name : String)
  | invalidName (name : String)
  | registryFull
  | observerLimit
deriving Repr, DecidableEq

namespace RegistrationError

def name : RegistrationError → String
  | reservedName _ => "ReservedName"
  | invalidName _ => "InvalidName"
  | registryFull => "RegistryFull"
  | observerLimit => "MiddlewareLimit"

def message [Limits] : RegistrationError → String
  | reservedName name => s!"'{name}' is a built-in special action and cannot be registered"
  | invalidName name => s!"'{name}' is not a valid special action name"
  | registryFull => s!"At most {maxActions} special actions can be registered"
  | observerLimit => s!"At most {maxObservers} middlewares can be bound"

def code (_ : RegistrationError) : String := "E064"

end RegistrationError

structure Registry where
  entries : List (String × Callback) := []

namespace Registry

def names (r : Registry) : List String :=
  r.entries.map (·.1)

def size (r : Registry) : Nat :=
  r.entries.length

def isEmpty (r : Registry) : Bool :=
  r.entries.isEmpty

def get? (r : Registry) (name : String) : Option Callback :=
  r.entries.lookup name

def contains (r : Registry) (name : String) : Bool :=
  (r.get? name).isSome

def insertEntry (name : String) (c : Callback) : List (String × Callback) → List (String × Callback)
  | [] => [(name, c)]
  | (n, d) :: rest =>
    if name < n then (name, c) :: (n, d) :: rest
    else if name = n then (name, c) :: rest
    else (n, d) :: insertEntry name c rest

def insert (r : Registry) (name : String) (c : Callback) : Registry :=
  ⟨insertEntry name c r.entries⟩

def erase (r : Registry) (name : String) : Registry :=
  ⟨r.entries.filter fun e => e.1 != name⟩

def register [Limits] (r : Registry) (name : String) (c : Callback) :
    Except RegistrationError Registry :=
  if Vocabulary.isBuiltIn name.toList then .error (.reservedName name)
  else if !Vocabulary.isActionName name.toList then .error (.invalidName name)
  else if !r.contains name && r.size ≥ maxActions then .error .registryFull
  else .ok (r.insert name c)

def invoke? (r : Registry) (name argument : String) : Option (ActionAnswer × Registry) :=
  (r.get? name).map fun c =>
    let (answer, c) := c.call argument
    (answer, r.insert name c)

end Registry

end PlatformRules
