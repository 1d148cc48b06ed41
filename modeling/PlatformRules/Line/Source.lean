import PlatformRules.Line.Basic
import PlatformRules.Token.Vocabulary

namespace PlatformRules

def Token.part? (source : List Char) (t : Token) : Option (List Char) :=
  match t.kind with
  | .lineEnd | .textEnd | .actionSign => none
  | .commentSign => some ['#']
  | .actionName => some ('@' :: t.text source)
  | .value => some ('"' :: t.text source ++ ['"'])
  | kind =>
    if t.isSynthetic then kind.syntheticText?.map String.toList
    else if t.text source = [] then none
    else some (t.text source)

def Line.source (source : List Char) (l : Line) : List Char :=
  List.intercalate [' '] (l.tokens.filterMap (·.part? source)) ++
    if l.endsLine then ['\n'] else []

end PlatformRules
