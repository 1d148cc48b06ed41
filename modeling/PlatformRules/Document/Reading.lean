import PlatformRules.Document.Error
import PlatformRules.Text.Lines

namespace PlatformRules

/-- A line that keeps the grammar: its tokens as they were scanned, and the canonical ones without
the end of the line. -/
structure ReadLine where
  raw : Line
  line : Line
deriving Repr, DecidableEq

namespace Document

def openEnded (l : Line) : Line :=
  if l.endsLine then l.pop else l

variable [Limits]

def readLine (text : List Char) : Except LineError ReadLine :=
  match Line.ofText text with
  | .error e => .error (.scan e)
  | .ok raw =>
    match raw.canonical with
    | .error e => .error (.shape e)
    | .ok line =>
      match line.check text with
      | .error e => .error (.grammar e)
      | .ok _ => .ok ⟨raw, openEnded line⟩

def walk {σ : Type} (visit : σ → SourceLine → Except DocumentError σ) (text : String) (s : σ) :
    Except DocumentError σ :=
  if text.utf8ByteSize > maxDocumentSize then .error (.tooLarge text.utf8ByteSize)
  else Text.foldLines visit text.toList s

end Document

end PlatformRules
