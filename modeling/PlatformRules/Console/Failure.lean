import PlatformRules.Document.Error
import PlatformRules.Files.Discovery
import PlatformRules.Settings.Basic

namespace PlatformRules.Console

inductive Failure where
  | unreadable (path : Path) (reason : String)
  | noDocuments (path : Path)
  | document (path : Path) (e : DocumentError)
  | unwritable (path : Path) (e : FileError)
  | pathNotText
  | settingsUnreadable (path : Path) (e : FileError)
  | settingsInvalid
deriving Repr, DecidableEq

namespace Failure

def message [Limits] : Failure → String
  | unreadable path reason => s!"Cannot read {path.display}: {reason}"
  | noDocuments path => s!"No .{FileTree.documentExtension} documents found under {path.display}"
  | document path e => s!"{path.display}: {e.message}"
  | unwritable path e => s!"Cannot write {path.display}: {e.message}"
  | pathNotText => "JSON output failed: path contains invalid UTF-8 characters"
  | settingsUnreadable path e =>
    s!"Failed to read configuration file '{path.display}': {e.message}"
  | settingsInvalid => "Invalid runtime configuration"

def code : Failure → String
  | unreadable .. => "E100"
  | noDocuments _ => "E101"
  | document _ e => e.code
  | unwritable .. | pathNotText => "E102"
  | settingsUnreadable .. | settingsInvalid => Settings.errorCode

end Failure

end PlatformRules.Console
