/-!
TOML documents as trees. A table remembers how it came about, since that decides what may still be
added to it: a table with a heading of its own is closed to dotted keys, and one that dotted keys
built is closed to headings.
-/

namespace PlatformRules

inductive Toml where
  | str (s : String)
  | bool (b : Bool)
  | number
  | date
  | array (items : List Toml)
  | inline (entries : List (String × Toml))
  | table (implicit dotted : Bool) (entries : List (String × Toml))
  | tables (items : List (List (String × Toml)))

namespace Toml

structure Table where
  implicit : Bool := false
  dotted : Bool := false
  entries : List (String × Toml) := []

namespace Table

def get? (t : Table) (key : String) : Option Toml :=
  t.entries.lookup key

def add (t : Table) (key : String) (v : Toml) : Table :=
  { t with entries := t.entries ++ [(key, v)] }

def replace (t : Table) (key : String) (v : Toml) : Table :=
  { t with entries := t.entries.map fun e => if e.1 = key then (key, v) else e }

def toToml (t : Table) : Toml :=
  .table t.implicit t.dotted t.entries

def descend (dotted : Bool) (change : Table → Option Table) : List String → Table → Option Table
  | [], t => change t
  | key :: path, t =>
    match t.get? key with
    | none =>
      (descend dotted change path { implicit := true, dotted }).map fun u => t.add key u.toToml
    | some (.table implicit byDots entries) =>
      if dotted && !implicit then none
      else (descend dotted change path { implicit, dotted := byDots, entries }).map fun u =>
        t.replace key u.toToml
    | some (.tables items) =>
      match items.getLast? with
      | none => none
      | some entries =>
        (descend dotted change path { entries }).map fun u =>
          t.replace key (.tables (items.dropLast ++ [u.entries]))
    | some _ => none

def assign (t : Table) (path : List String) (key : String) (v : Toml) : Option Table :=
  descend true (fun u =>
    if u.dotted == path.isEmpty || (u.get? key).isSome then none else some (u.add key v)) path t

def openTable (t : Table) (path : List String) (key : String) : Option Table :=
  descend false (fun u =>
    match u.get? key with
    | none => some (u.add key (.table false false []))
    | some (.table true false entries) => some (u.replace key (.table false false entries))
    | some _ => none) path t

def openNext (t : Table) (path : List String) (key : String) : Option Table :=
  descend false (fun u =>
    match u.get? key with
    | none => some (u.add key (.tables [[]]))
    | some (.tables items) => some (u.replace key (.tables (items ++ [[]])))
    | some _ => none) path t

end Table

def entries? : Toml → Option (List (String × Toml))
  | inline entries => some entries
  | table _ _ entries => some entries
  | _ => none

end Toml

end PlatformRules
