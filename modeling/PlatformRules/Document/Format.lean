import PlatformRules.Document.Reading
import PlatformRules.Line.Source

namespace PlatformRules.Document

variable [Limits]

def formatLine (done : List String) (l : SourceLine) : Except DocumentError (List String) :=
  if l.isBlank then .ok ("\n" :: done)
  else match readLine l.text with
    | .error e => .error (.syntaxError l.number e)
    | .ok read => .ok (String.ofList (read.raw.source l.text) :: done)

def format (text : String) : Except DocumentError String :=
  (walk formatLine text []).map fun lines => String.join lines.reverse

end PlatformRules.Document
