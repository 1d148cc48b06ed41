import PlatformRules.Host.Utility

/-!
Programs to try a runner with, in the place of those of a machine: a small command language with
quotes, parameters and redirected output, and a few programs that it starts.
-/

namespace PlatformRules.Shell

inductive Part where
  | text (quoted : Bool) (cs : List Char)
  | parameter (quoted : Bool) (name : List Char) (default : Option (List Char))
deriving Repr, DecidableEq

inductive Stream where
  | output
  | errors
  | nowhere
deriving Repr, DecidableEq

inductive Item where
  | word (parts : List Part)
  | redirect (source target : Stream)
  | semicolon
  | both
  | either
  | pipe
  | background
deriving Repr, DecidableEq

def isNameChar (c : Char) : Bool :=
  c.isAlphanum || c == '_'

def parameter (quoted : Bool) (cs : List Char) : Part × Nat :=
  match cs with
  | '\x7b' :: cs =>
    let inner := cs.takeWhile (· != '\x7d')
    let name := inner.takeWhile isNameChar
    let default := match inner.drop name.length with
      | ':' :: '-' :: d | '-' :: d => some d
      | _ => none
    (.parameter quoted name default, inner.length + 2)
  | c :: cs =>
    if c.isAlpha || c == '_' then
      let name := (c :: cs).takeWhile isNameChar
      (.parameter quoted name none, name.length)
    else if c.isDigit || "$?#@*".toList.contains c then (.parameter quoted [c] none, 1)
    else (.text quoted ['$'], 0)
  | [] => (.text quoted ['$'], 0)

def quotedParts (fuel : Nat) (cs : List Char) : List Part × List Char :=
  match fuel, cs with
  | 0, cs => ([], cs)
  | _, [] => ([], [])
  | _, '"' :: cs => ([], cs)
  | fuel + 1, '\\' :: c :: cs =>
    let kept := if "$\"\\".toList.contains c || c.toNat == 96 then [c] else ['\\', c]
    let (parts, rest) := quotedParts fuel cs
    (.text true kept :: parts, rest)
  | fuel + 1, '$' :: cs =>
    let (part, used) := parameter true cs
    let (parts, rest) := quotedParts fuel (cs.drop used)
    (part :: parts, rest)
  | fuel + 1, c :: cs =>
    let (parts, rest) := quotedParts fuel cs
    (.text true [c] :: parts, rest)

def close (word : Option (List Part)) (items : List Item) : List Item :=
  match word with
  | none => items
  | some parts => .word parts :: items

def redirection? (cs : List Char) : Option (Item × Nat) :=
  let forms : List (String × Stream × Stream) := [
    ("1>&2", .output, .errors), (">&2", .output, .errors),
    ("2>&1", .errors, .output), (">&1", .output, .output),
    ("2>/dev/null", .errors, .nowhere), ("2> /dev/null", .errors, .nowhere),
    ("1>/dev/null", .output, .nowhere), (">/dev/null", .output, .nowhere),
    ("> /dev/null", .output, .nowhere)]
  (forms.find? fun f => f.1.toList.isPrefixOf cs).map fun (form, source, target) =>
    (.redirect source target, form.length)

def items (fuel : Nat) (word : Option (List Part)) (cs : List Char) : List Item :=
  match fuel, cs with
  | 0, _ | _, [] => close word []
  | fuel + 1, c :: cs' =>
    let add (parts : List Part) (rest : List Char) :=
      items fuel (some (word.getD [] ++ parts)) rest
    let separated (i : Item) (rest : List Char) := close word (i :: items fuel none rest)
    match if word.isNone || c == '>' then redirection? (c :: cs') else none with
    | some (i, used) => separated i (cs'.drop (used - 1))
    | none =>
      match c, cs' with
      | '\'', cs => add [.text true (cs.takeWhile (· != '\''))] ((cs.dropWhile (· != '\'')).drop 1)
      | '"', cs =>
        let (parts, rest) := quotedParts cs.length cs
        add (.text true [] :: parts) rest
      | '\\', c :: cs => add (if c = '\n' then [] else [.text true [c]]) cs
      | '$', cs =>
        let (part, used) := parameter false cs
        add [part] (cs.drop used)
      | ';', cs | '\n', cs => separated .semicolon cs
      | '&', '&' :: cs => separated .both cs
      | '|', '|' :: cs => separated .either cs
      | '|', cs => separated .pipe cs
      | '&', cs => separated .background cs
      | '#', cs =>
        if word.isNone then items fuel none (cs.dropWhile (· != '\n')) else add [.text false ['#']] cs
      | c, cs =>
        if c == ' ' || c == '\t' then close word (items fuel none cs)
        else add [.text false [c]] cs

structure State where
  bindings : List (List Char × List Char)
  args : List (List Char)
  run : ProgramRun := {}
  ended : Bool := false

def State.status (s : State) : UInt8 :=
  s.run.status.getD 0

def State.value? (s : State) (name : List Char) : Option (List Char) :=
  match name with
  | ['?'] => some (toString s.status.toNat).toList
  | ['$'] => some ['1']
  | ['#'] => some (toString (s.args.length - 1)).toList
  | ['@'] | ['*'] => some (Utility.joined s.args.tail)
  | [c] => if c.isDigit then s.args[c.toNat - '0'.toNat]? else s.bindings.lookup name
  | name => s.bindings.lookup name

def State.expand (s : State) : Part → Bool × List Char
  | .text quoted cs => (quoted, cs)
  | .parameter quoted name default =>
    let value := (s.value? name).getD []
    (quoted, if value.isEmpty then default.getD [] else value)

def cut (fields : List (List Char)) (current : Option (List Char)) :
    List (Bool × Char) → List (List Char)
  | [] => fields ++ current.toList
  | (splits, c) :: cs =>
    if splits && (c == ' ' || c == '\t' || c == '\n') then cut (fields ++ current.toList) none cs
    else cut fields (some (current.getD [] ++ [c])) cs

def State.fields (s : State) (parts : List Part) : List (List Char) :=
  let cs := parts.flatMap fun p =>
    let (quoted, cs) := s.expand p
    cs.map fun c => (!quoted && p matches .parameter .., c)
  let whole := parts.any fun p => (s.expand p).1
  cut [] (if whole then some [] else none) cs

def State.assignment? (s : State) (parts : List Part) : Option (List Char × List Char) :=
  match parts.takeWhile (· != .text false ['=']), parts.dropWhile (· != .text false ['=']) with
  | p :: ps, _ :: value =>
    let name := (p :: ps).flatMap fun p => match p with
      | .text false cs => cs
      | _ => ['=']
    if name.all isNameChar then some (name, value.flatMap fun p => (s.expand p).2) else none
  | _, _ => none

def targets : List (Stream × Stream) → Stream × Stream → Stream × Stream
  | [], t => t
  | (source, target) :: rest, (o, e) =>
    let goal := match target with
      | .output => o
      | .errors => e
      | .nowhere => .nowhere
    targets rest (if source = .output then (goal, e) else (o, goal))

def killed : ProgramRun :=
  { status := none }

def command (s : State) (input : List UInt8) (name : List Char) (args : List (List Char)) :
    ProgramRun × Bool :=
  let number (cs : List Char) := UInt8.ofNat (Utility.numeral 10 cs % 256)
  match String.ofList name with
  | ":" => ({}, false)
  | "exit" => ({ status := some (args.head?.elim s.status number) }, true)
  | "kill" => if args.contains ['1'] then (killed, true) else ({}, false)
  | "echo" =>
    let line := args.head? != some ['-', 'n']
    (Utility.echoWith (some Utility.plainStyle) line (if line then args else args.tail), false)
  | name =>
    match Utility.find? name with
    | some run => (run input args, false)
    | none => (Utility.complaint s!"sh: 1: {name}: not found" 127, false)

def State.add (s : State) (run : ProgramRun) (goal : Stream × Stream) (ended : Bool) : State :=
  let sent (target : Stream) := (if goal.1 = target then run.output else []) ++
    (if goal.2 = target then run.errors else [])
  { s with
    run := { output := s.run.output ++ sent .output, errors := s.run.errors ++ sent .errors
             status := run.status, duration := s.run.duration + run.duration }
    ended }

def simple (s : State) (input : List UInt8) (piped : Bool) (is : List Item) :
    State × List UInt8 :=
  let words := is.filterMap fun
    | .word parts => some parts
    | _ => none
  let moves := is.filterMap fun
    | .redirect source target => some (source, target)
    | _ => none
  let sets := words.takeWhile fun w => (s.assignment? w).isSome
  let named := { s with bindings := (sets.filterMap s.assignment?).reverse ++ s.bindings }
  match (words.drop sets.length).flatMap s.fields with
  | [] => if words.isEmpty then (s, []) else ({ named with run.status := some 0 }, [])
  | name :: args =>
    let (run, ended) := command s input name args
    let (o, e) := targets moves (.output, .errors)
    if piped && o = .output then
      (s.add { run with output := [] } (o, e) false, run.output)
    else (s.add run (o, e) (ended && !piped), [])

def isSeparator : Item → Bool
  | .word _ | .redirect .. => false
  | _ => true

def runItems (fuel : Nat) (runs : Bool) (input : List UInt8) (is : List Item) (s : State) : State :=
  match fuel with
  | 0 => s
  | fuel + 1 =>
    if s.ended then s
    else
      let separator := is.find? isSeparator
      let rest := (is.dropWhile (!isSeparator ·)).drop 1
      let current := is.takeWhile (!isSeparator ·)
      let (after, passed) := if runs then simple s input (separator == some .pipe) current
        else (s, [])
      match separator with
      | none => after
      | some .pipe => runItems fuel runs passed rest after
      | some .both => runItems fuel (runs && after.status == 0) [] rest after
      | some .either => runItems fuel (if runs then after.status != 0 else after.status != 0) []
          rest after
      | some .background =>
        runItems fuel true [] rest { after with run.duration := s.run.duration }
      | some _ => runItems fuel true [] rest after

def searchPath : String := "/usr/bin:/bin:/usr/sbin:/sbin"

def runScript (script : List Char) (args : List (List Char)) : ProgramRun :=
  let is := items (script.length + 1) none script
  (runItems (is.length + 1) true [] is
    { bindings := [("PATH".toList, searchPath.toList), ("PWD".toList, ['/'])]
      args := if args.isEmpty then ["sh".toList] else args }).run

def run (args : List (List Char)) : ProgramRun :=
  match args with
  | ['-', 'c'] :: script :: args => runScript script args
  | [['-', 'c']] => Utility.complaint "sh: 0: -c requires an argument" 2
  | [] => {}
  | name :: _ => Utility.complaint s!"sh: 0: cannot open {String.ofList name}: No such file" 2

def deniedPlaces : List String :=
  ["/", ".", "..", "./", "../", "/etc", "/etc/", "/tmp", "/tmp/", "/usr", "/usr/bin", "/bin", "/dev",
    "/dev/null", "/etc/passwd", "/etc/group", "/etc/hosts", "/etc/hostname", "/etc/os-release",
    "/root", "/home", "/var", "/proc", "/sys"]

def maxArgument : Nat := 131072

def programs : Programs := fun name args =>
  if (name :: args).any (·.contains '\x00') then .broken "nul byte found in provided data"
  else if deniedPlaces.contains name then .denied
  else if (name :: args).any (·.utf8ByteSize ≥ maxArgument) then
    .broken "Argument list too long (os error 7)"
  else
    let args := args.map String.toList
    let places := (searchPath.splitOn ":").map (· ++ "/")
    let base := (places.findSome? fun p =>
      if p.toList.isPrefixOf name.toList then some (String.ofList (name.toList.drop p.length))
      else none).getD name
    if base = "sh" then .runs (run args)
    else match Utility.find? base with
      | some utility => .runs (utility [] args)
      | none => .missing

end PlatformRules.Shell
