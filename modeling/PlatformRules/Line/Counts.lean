import PlatformRules.Line.Basic

namespace PlatformRules

structure LineCounts where
  lines : Nat := 0
  blankLines : Nat := 0
  commentLines : Nat := 0
  actionLines : Nat := 0
  pathLines : Nat := 0
  undefinedTokens : Nat := 0
  totalTokens : Nat := 0
  maxLineLength : Nat := 0
deriving Repr, DecidableEq

namespace LineCounts

def add (m : LineCounts) (l : Line) (length : Nat) : LineCounts :=
  let m := { m with
    lines := m.lines + 1
    totalTokens := m.totalTokens + l.length
    maxLineLength := max m.maxLineLength length
    undefinedTokens := m.undefinedTokens + l.countKind .undefined }
  match l.kind 0 with
  | .lineEnd | .textEnd => { m with blankLines := m.blankLines + 1 }
  | .commentSign => { m with commentLines := m.commentLines + 1 }
  | .actionSign => { m with actionLines := m.actionLines + 1 }
  | _ => { m with pathLines := m.pathLines + 1 }

end LineCounts

end PlatformRules
