import PlatformRules.Host.Command
import PlatformRules.Host.OsRelease
import PlatformRules.Log.Event
import PlatformRules.Machine

namespace PlatformRules

inductive ProbeError where
  | unreadable (path reason : String)
  | missingId
  | badVersion (text : String)
  | command (e : CommandError)
deriving Repr, DecidableEq

namespace ProbeError

def name : ProbeError → String
  | unreadable .. => "OsReleaseUnreadable"
  | missingId => "MissingDistroId"
  | badVersion _ => "UnparsableVersion"
  | command _ => "Command"

def message : ProbeError → String
  | unreadable path reason => s!"Cannot read {path}: {reason}"
  | missingId => "os-release has no ID entry"
  | badVersion text => s!"Unparsable version '{text}'"
  | command e => e.message

def code : ProbeError → String
  | unreadable .. => "E094"
  | command e => e.code
  | _ => "E090"

end ProbeError

structure HostProbe where
  system : Option String := none
  architecture : Option String := none
  releasePath : String := "/etc/os-release"
  release : Option (List UInt8) := none
  runner : CommandRunner := .forVersions
  programs : Programs := fun _ _ => .missing

namespace HostProbe

def readRelease (p : HostProbe) : Except ProbeError OsRelease :=
  match p.release with
  | none => .error (.unreadable p.releasePath "No such file or directory (os error 2)")
  | some bytes =>
    match Utf8.decode? bytes with
    | none => .error (.unreadable p.releasePath "stream did not contain valid UTF-8")
    | some text => .ok (.ofText text.toList)

def askVersion (p : HostProbe) (program : String) (args : List String) :
    Except ProbeError Int32 := do
  let text ← (p.runner.read p.programs program args).mapError .command
  match OsRelease.majorOf? text.toList with
  | some version => return version
  | none => throw (.badVersion text)

def target (p : HostProbe) : Machine :=
  { system := p.system, architecture := p.architecture }

def probe (p : HostProbe) : Except ProbeError Machine := do
  match p.system with
  | some "linux" =>
    let r ← p.readRelease
    if r.id.isNone then throw .missingId
    return { p.target with distro := r.distro?, family := r.family?, version := r.major? }
  | some "freebsd" => return { p.target with version := some (← p.askVersion "uname" ["-r"]) }
  | some "osx" =>
    return { p.target with version := some (← p.askVersion "sw_vers" ["-productVersion"]) }
  | _ => return p.target

def detect (p : HostProbe) : Machine :=
  match p.probe with
  | .ok m => m
  | .error _ => p.target

end HostProbe

namespace Event

variable [Limits]

def ofProbe : Except ProbeError Machine → List Event
  | .ok m => [(success "I020" "Host machine probed").put "machine" m.display]
  | .error _ => []

def ofDetection : Except ProbeError Machine → List Event
  | .ok m => ofProbe (.ok m)
  | .error e =>
    [(warning "Host probe failed; using build target only").putAll
      [("code", e.code), ("reason", e.message)]]

end Event

end PlatformRules
