import PlatformRules.Document.Reading
import PlatformRules.Json.Value

namespace PlatformRules

structure Summary where
  lines : Nat := 0
  blankLines : Nat := 0
  commentLines : Nat := 0
  actionLines : Nat := 0
  pathLines : Nat := 0
deriving Repr, DecidableEq

namespace Summary

def addBlank (s : Summary) : Summary :=
  { s with lines := s.lines + 1, blankLines := s.blankLines + 1 }

def addLine (s : Summary) (l : Line) : Summary :=
  let s := { s with lines := s.lines + 1 }
  match l.kind 0 with
  | .commentSign => { s with commentLines := s.commentLines + 1 }
  | .actionSign => { s with actionLines := s.actionLines + 1 }
  | .operator _ => { s with pathLines := s.pathLines + 1 }
  | _ => { s with blankLines := s.blankLines + 1 }

@[simp] theorem lines_addLine (s : Summary) (l : Line) : (s.addLine l).lines = s.lines + 1 := by
  unfold addLine
  split <;> rfl

def toJson (s : Summary) : Json :=
  .obj [
    ("lines", .int s.lines),
    ("blank_lines", .int s.blankLines),
    ("comment_lines", .int s.commentLines),
    ("special_action_lines", .int s.actionLines),
    ("logic_path_lines", .int s.pathLines)]

end Summary

namespace Document

variable [Limits]

def checkLine (s : Summary) (l : SourceLine) : Except DocumentError Summary :=
  if l.isBlank then .ok s.addBlank
  else match readLine l.text with
    | .error e => .error (.syntaxError l.number e)
    | .ok read => .ok (s.addLine read.line)

def check (text : String) : Except DocumentError Summary :=
  walk checkLine text {}

end Document

end PlatformRules
