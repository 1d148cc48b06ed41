import PlatformRules.Text.Basic
import PlatformRules.Text.Utf8

/-!
Programs that are run for what they print. A runner starts only the programs it allows, and gives
up on one that takes too long. What the programs do is a parameter.
-/

namespace PlatformRules

structure ProgramRun where
  output : List UInt8 := []
  errors : List UInt8 := []
  status : Option UInt8 := some 0
  -- in milliseconds
  duration : Nat := 0

inductive Program where
  | missing
  | denied
  | broken (reason : String)
  | runs (run : ProgramRun)

abbrev Programs := String → List String → Program

inductive CommandError where
  | notAllowed (program : String)
  | notFound (program : String)
  | denied (program : String)
  | failed (program reason : String)
  | nonZeroExit (program : String) (status : Int) (errors : String)
  | timeout (program : String) (limit : Nat)
deriving Repr, DecidableEq

namespace CommandError

def name : CommandError → String
  | notAllowed _ => "NotAllowed"
  | notFound _ => "ProgramNotFound"
  | denied _ => "PermissionDenied"
  | failed .. => "ExecutionFailed"
  | nonZeroExit .. => "NonZeroExit"
  | timeout .. => "Timeout"

def message : CommandError → String
  | notAllowed program => s!"Command '{program}' is not in the probe whitelist"
  | notFound program => s!"Program not found: {program}"
  | denied program => s!"Permission denied: {program}"
  | failed program reason => s!"Execution failed for '{program}': {reason}"
  | nonZeroExit program status errors => s!"'{program}' exited with {status}: {errors}"
  | timeout program limit => s!"'{program}' timed out after {limit}ms"

def code : CommandError → String
  | notAllowed _ => "E093"
  | timeout .. => "E092"
  | _ => "E091"

end CommandError

structure CommandRunner where
  allowed : List String := []
  limit : Nat
deriving Repr, DecidableEq

namespace CommandRunner

def versionLimit : Nat := 5000

def forVersions : CommandRunner :=
  ⟨["uname", "sw_vers"], versionLimit⟩

def allow (r : CommandRunner) (programs : List String) : CommandRunner :=
  { r with allowed := r.allowed ++ programs }

def allows (r : CommandRunner) (program : String) : Bool :=
  r.allowed.contains program

/-- The bytes that a stream holds until it is read; a program that writes more has to wait, and
streams are read only when the program has ended. -/
def streamCapacity : Nat := 65536

def trimmed (bytes : List UInt8) : String :=
  String.ofList (Text.trim (Utf8.decodeLeniently bytes).toList)

def read (r : CommandRunner) (programs : Programs) (program : String) (args : List String) :
    Except CommandError String :=
  if !r.allows program then .error (.notAllowed program)
  else match programs program args with
    | .missing => .error (.notFound program)
    | .denied => .error (.denied program)
    | .broken reason => .error (.failed program reason)
    | .runs run =>
      if run.duration > r.limit || run.output.length > streamCapacity ||
          run.errors.length > streamCapacity then .error (.timeout program r.limit)
      else if run.status = some 0 then .ok (trimmed run.output)
      else .error (.nonZeroExit program (run.status.elim (-1) (·.toNat)) (trimmed run.errors))

end CommandRunner

end PlatformRules
