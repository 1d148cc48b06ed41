import PlatformRules.Document.Reading
import PlatformRules.Json.Value
import PlatformRules.Line.Counts

namespace PlatformRules

structure TokenLine where
  number : Nat
  text : List Char
  line : Line
deriving Repr, DecidableEq

structure TokenList where
  lines : List TokenLine
  counts : LineCounts
deriving Repr, DecidableEq

namespace Document

variable [Limits]

def tokensLine (s : List TokenLine × LineCounts) (l : SourceLine) :
    Except DocumentError (List TokenLine × LineCounts) :=
  if l.isBlank then .ok s
  else match Line.ofText l.text with
    | .error e => .error (.syntaxError l.number (.scan e))
    | .ok line =>
      let length := Text.byteLength (Text.withoutReturn l.text)
      .ok (⟨l.number, l.text, line⟩ :: s.1, s.2.add line length)

def tokens (text : String) : Except DocumentError TokenList :=
  (walk tokensLine text ([], {})).map fun (lines, counts) => ⟨lines.reverse, counts⟩

end Document

def LineCounts.toJson (m : LineCounts) : Json :=
  .obj [
    ("lines", .int m.lines),
    ("blank_lines", .int m.blankLines),
    ("comment_lines", .int m.commentLines),
    ("special_action_lines", .int m.actionLines),
    ("logic_path_lines", .int m.pathLines),
    ("undefined_tokens", .int m.undefinedTokens),
    ("total_tokens", .int m.totalTokens),
    ("max_line_length", .int m.maxLineLength)]

def Token.toJson (source : List Char) (t : Token) : Json :=
  .obj [
    ("kind", .str t.kind.name),
    ("range", .ofOption (fun r => .arr [.int r.start, .int r.stop]) t.range),
    ("text", .str (String.ofList (t.text source)))]

def TokenLine.toJson (l : TokenLine) : Json :=
  .obj [
    ("number", .int l.number),
    ("text", .str (String.ofList l.text)),
    ("tokens", .arr (l.line.tokens.map (Token.toJson l.text)))]

def TokenList.toJson (l : TokenList) : Json :=
  .obj [("lines", .arr (l.lines.map TokenLine.toJson)), ("metrics", l.counts.toJson)]

end PlatformRules
