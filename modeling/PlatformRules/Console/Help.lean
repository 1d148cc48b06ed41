import PlatformRules.Console.Arguments

namespace PlatformRules.Console

def programName : String := "rsml"

def versionText : String := "rsml 0.1.0\n"

def columns (rows : List (String × String)) : String :=
  let width := rows.foldl (fun w r => max w r.1.length) 0
  String.join (rows.map fun (name, help) =>
    "  " ++ name ++ String.ofList (List.replicate (width - name.length + 2) ' ') ++ help ++ "\n")

def optionRow (o : OptionSpec) : String × String :=
  (s!"    --{o.name}" ++ (o.value.elim "" fun v => s!" <{v}>"), o.help)

def interleave : List OptionSpec → List OptionSpec → List OptionSpec
  | [], os => os
  | os, [] => os
  | a :: as, b :: bs =>
    if a.name < b.name then a :: b :: interleave as bs else b :: a :: interleave as bs

def helpRow : String × String := ("-h, --help", "Print help")

def usage (command : Option CommandSpec) : String :=
  match command with
  | none => s!"Usage: {programName} [OPTIONS] <COMMAND>"
  | some c => s!"Usage: {programName} {c.name} [OPTIONS]" ++ c.path.elim "" fun p => s!" <{p}>"

def helpName : String := "help"

def helpOfHelp : String := "Print this message or the help of the given subcommand(s)"

def topHelp : String :=
  "Evaluate and inspect RSML documents\n\n" ++ usage none ++ "\n\nCommands:\n" ++
    columns (commands.map (fun c => (c.name, c.help)) ++ [(helpName, helpOfHelp)]) ++
    "\nOptions:\n" ++ columns (globalOptions.map optionRow ++
      [helpRow, ("-V, --version", "Print version")])

def commandHelp (c : CommandSpec) : String :=
  c.help ++ "\n\n" ++ usage (some c) ++ "\n" ++
    c.path.elim "" (fun p => "\nArguments:\n" ++ columns [(s!"<{p}>", "")]) ++
    "\nOptions:\n" ++ columns ((interleave globalOptions c.options).map optionRow ++ [helpRow])

def helpHelp : String :=
  let words := "[COMMAND]..."
  s!"{helpOfHelp}\n\nUsage: {programName} {helpName} {words}\n\nArguments:\n" ++
    columns [(words, "Print help for the subcommand(s)")]

def help (command : Option String) : String :=
  match command.bind fun name => commands.find? (·.name == name) with
  | some c => commandHelp c
  | none => if command = some helpName then helpHelp else topHelp

end PlatformRules.Console
