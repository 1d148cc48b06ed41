import PlatformRules.Host.Command
import PlatformRules.Text.Reader

namespace PlatformRules.Utility

def bytesOf (cs : List Char) : List UInt8 :=
  Utf8.encode (String.ofList cs)

def complaint (message : String) (status : UInt8 := 1) : ProgramRun :=
  { errors := Utf8.encode (message ++ "\n"), status := some status }

def controlByte? (c : Char) : Option UInt8 :=
  [('a', 7), ('b', 8), ('t', 9), ('n', 10), ('v', 11), ('f', 12), ('r', 13), ('\\', 92)].lookup c

def numeral (base : Nat) (ds : List Char) : Nat :=
  ds.foldl (fun n c => n * base + (TextReader.hexDigit? c).getD 0) 0

def isOctal (c : Char) : Bool :=
  '0' ≤ c && c ≤ '7'

def digitsUpTo (count : Nat) (p : Char → Bool) (cs : List Char) : List Char :=
  (cs.take count).takeWhile p

structure EscapeStyle where
  zeroFirst : Bool
  extended : Bool

def formatStyle : EscapeStyle := ⟨false, true⟩

def echoStyle : EscapeStyle := ⟨true, true⟩

def plainStyle : EscapeStyle := ⟨true, false⟩

def escaped (style : EscapeStyle) (cs : List Char) : Option (List UInt8 × Nat) :=
  match cs with
  | [] => some ([92], 0)
  | 'c' :: _ => none
  | c :: rest =>
    let byte (base : Nat) (ds : List Char) (used : Nat) :=
      some ([UInt8.ofNat (numeral base ds)], used)
    match controlByte? c with
    | some b => some ([b], 1)
    | none =>
      if style.zeroFirst && c == '0' then
        let ds := digitsUpTo 3 isOctal rest
        byte 8 ds (ds.length + 1)
      else if !style.zeroFirst && isOctal c then
        let ds := digitsUpTo 3 isOctal cs
        byte 8 ds ds.length
      else if style.extended && c == 'x' && rest.head?.any (TextReader.hexDigit? · |>.isSome) then
        let ds := digitsUpTo 2 (TextReader.hexDigit? · |>.isSome) rest
        byte 16 ds (ds.length + 1)
      else if style.extended && c == 'e' then some ([27], 1)
      else if style.extended && !style.zeroFirst && c == '"' then some ([34], 1)
      else some ([92], 0)

def unescape (style : EscapeStyle) (skip : Nat) : List Char → List UInt8 × Bool
  | [] => ([], false)
  | c :: cs =>
    match skip with
    | skip + 1 => unescape style skip cs
    | 0 =>
      if c = '\\' then
        match escaped style cs with
        | none => ([], true)
        | some (bytes, used) =>
          let (rest, stops) := unescape style used cs
          (bytes ++ rest, stops)
      else
        let (rest, stops) := unescape style 0 cs
        (bytesOf [c] ++ rest, stops)

def joined (args : List (List Char)) : List Char :=
  [' '].intercalate args

def echoWith (style : Option EscapeStyle) (line : Bool) (args : List (List Char)) : ProgramRun :=
  let (bytes, stops) := match style with
    | none => (bytesOf (joined args), false)
    | some style => unescape style 0 (joined args)
  { output := if line && !stops then bytes ++ [10] else bytes }

def echo (style : Option EscapeStyle) (line : Bool) : List (List Char) → ProgramRun
  | [] => echoWith style line []
  | arg :: args =>
    match arg with
    | '-' :: c :: cs =>
      if (c :: cs).all ("neE".toList.contains ·) then
        let style := (c :: cs).foldl (fun s c =>
          if c = 'e' then some echoStyle else if c = 'E' then none else s) style
        echo style (line && !(c :: cs).contains 'n') args
      else echoWith style line (arg :: args)
    | _ => echoWith style line (arg :: args)

structure Directive where
  left : Bool := false
  zeros : Bool := false
  width : Nat := 0
  precision : Option Nat := none
  conversion : Char

def directive? (cs : List Char) : Option (Directive × List Char) :=
  let flags := cs.takeWhile ("-0 +#".toList.contains ·)
  let cs := cs.drop flags.length
  let width := cs.takeWhile Char.isDigit
  let cs := cs.drop width.length
  let (precision, cs) := match cs with
    | '.' :: cs => (some (cs.takeWhile Char.isDigit), cs.dropWhile Char.isDigit)
    | cs => (none, cs)
  match cs with
  | [] => none
  | c :: cs => some ({
      left := flags.contains '-', zeros := flags.contains '0', width := numeral 10 width
      precision := precision.map (numeral 10), conversion := c }, cs)

def pad (d : Directive) (bytes : List UInt8) : List UInt8 :=
  let missing := d.width - bytes.length
  if d.left then bytes ++ List.replicate missing 32
  else if d.zeros && d.conversion != 's' then
    match bytes with
    | 45 :: digits => 45 :: (List.replicate missing 48 ++ digits)
    | digits => List.replicate missing 48 ++ digits
  else List.replicate missing 32 ++ bytes

def integer? (cs : List Char) : Option Int :=
  let natural (cs : List Char) : Option Int :=
    let based (base : Nat) (p : Char → Bool) (ds : List Char) : Option Int :=
      if ds ≠ [] ∧ ds.all p then some (numeral base ds) else none
    match cs with
    | '0' :: 'x' :: ds => based 16 (TextReader.hexDigit? · |>.isSome) ds
    | '0' :: ds => based 8 isOctal ('0' :: ds)
    | ds => based 10 Char.isDigit ds
  match cs with
  | [] => some 0
  | '\'' :: c :: _ | '"' :: c :: _ => some c.toNat
  | '-' :: ds => (natural ds).map (- ·)
  | '+' :: ds => natural ds
  | ds => natural ds

def converted (d : Directive) (arg : List Char) : List UInt8 × Option String :=
  let digits (base : Nat) : List UInt8 × Option String :=
    let value := integer? arg
    let i := value.getD 0
    let sign := if i < 0 then ['-'] else []
    (pad d (bytesOf (sign ++ Nat.toDigits base i.natAbs)),
      if value.isSome then none else some s!"printf: '{String.ofList arg}': expected a numeric value")
  match d.conversion with
  | 'd' | 'i' | 'u' => digits 10
  | 'o' => digits 8
  | 'x' => digits 16
  | 'c' => (pad d (bytesOf (arg.take 1)), none)
  | _ =>
    let bytes := bytesOf arg
    (pad d (d.precision.elim bytes bytes.take), none)

structure Printing where
  output : List UInt8 := []
  complaints : List String := []
  args : List (List Char)
  stopped : Bool := false

def Printing.put (p : Printing) (bytes : List UInt8) : Printing :=
  { p with output := p.output ++ bytes }

def printOnce (fuel : Nat) (cs : List Char) (p : Printing) : Printing :=
  match fuel, cs with
  | 0, _ | _, [] => p
  | fuel + 1, '\\' :: cs =>
    match escaped formatStyle cs with
    | none => { p with stopped := true }
    | some (bytes, used) => printOnce fuel (cs.drop used) (p.put bytes)
  | fuel + 1, '%' :: '%' :: cs => printOnce fuel cs (p.put [37])
  | fuel + 1, '%' :: cs =>
    match directive? cs with
    | none => { p with complaints := p.complaints ++ ["printf: %: invalid conversion specification"],
                       stopped := true }
    | some (d, rest) =>
      let arg := p.args.headD []
      let p := { p with args := p.args.tail }
      if d.conversion = 'b' then
        let (bytes, stops) := unescape echoStyle 0 arg
        let p := p.put (pad d bytes)
        if stops then { p with stopped := true } else printOnce fuel rest p
      else if "diuoxcs".toList.contains d.conversion then
        let (bytes, complaint) := converted d arg
        printOnce fuel rest
          { p.put bytes with complaints := p.complaints ++ complaint.toList }
      else
        let directive := String.ofList (cs.take (cs.length - rest.length))
        { p with stopped := true, complaints := p.complaints ++
            [s!"printf: %{directive}: invalid conversion specification"] }
  | fuel + 1, c :: cs => printOnce fuel cs (p.put (bytesOf [c]))

def printAll (fuel : Nat) (format : List Char) (p : Printing) : Printing :=
  match fuel with
  | 0 => p
  | fuel + 1 =>
    let q := printOnce format.length format p
    if q.stopped || q.args.isEmpty || q.args.length == p.args.length then q
    else printAll fuel format q

def printf : List (List Char) → ProgramRun
  | [] => complaint "printf: missing operand\nTry 'printf --help' for more information."
  | format :: args =>
    let p := printAll (args.length + 1) format { args }
    { output := p.output
      errors := p.complaints.flatMap fun c => Utf8.encode (c ++ "\n")
      status := some (if p.complaints.isEmpty then 0 else 1) }

def milliseconds? (cs : List Char) : Option Nat :=
  let whole := cs.takeWhile Char.isDigit
  let rest := cs.drop whole.length
  let (fraction, unit) := match rest with
    | '.' :: rest => (rest.takeWhile Char.isDigit, rest.dropWhile Char.isDigit)
    | rest => ([], rest)
  let factor : Option Nat :=
    [([], 1000), (['s'], 1000), (['m'], 60000), (['h'], 3600000), (['d'], 86400000)].lookup unit
  if whole.isEmpty && fraction.isEmpty then none
  else factor.map fun f =>
    f * numeral 10 whole + f * numeral 10 (fraction.take 9) / Nat.pow 10 (fraction.take 9).length

def sleep (args : List (List Char)) : ProgramRun :=
  let hint := "\nTry 'sleep --help' for more information."
  match args.find? (fun arg => (milliseconds? arg).isNone) with
  | some arg => complaint (s!"sleep: invalid time interval '{String.ofList arg}'" ++ hint)
  | none =>
    if args.isEmpty then complaint ("sleep: missing operand" ++ hint)
    else { duration := (args.filterMap milliseconds?).foldl (· + ·) 0 }

def cat (input : List UInt8) (args : List (List Char)) : ProgramRun :=
  let names := if args.isEmpty then [['-']] else args
  names.foldl (fun run name =>
    if name = ['-'] then { run with output := run.output ++ input }
    else if name = "/dev/null".toList then run
    else
      let run' := complaint s!"cat: {String.ofList name}: No such file or directory"
      { run' with output := run.output, errors := run.errors ++ run'.errors }) {}

def find? (name : String) : Option (List UInt8 → List (List Char) → ProgramRun) :=
  match name with
  | "echo" => some fun _ args => echo none true args
  | "printf" => some fun _ args => printf args
  | "true" => some fun _ _ => {}
  | "false" => some fun _ _ => { status := some 1 }
  | "sleep" => some fun _ args => sleep args
  | "cat" => some cat
  | "uname" => some fun _ _ => { output := Utf8.encode "Linux\n" }
  | _ => none

end PlatformRules.Utility
