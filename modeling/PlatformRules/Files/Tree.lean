import PlatformRules.Text.Utf8

/-!
Files in folders, and the paths that lead to them. A place is the list of the names on the way
from the working folder. The name `/` in front means that the way starts at the root, and names
`..` in front that it starts above the working folder. Names are bytes, and need not be text.
-/

namespace PlatformRules

inductive FileError where
  | missing
  | notFolder
  | isFolder
  | taken
  | longName
  | notText
  | system (reason : String) (number : Nat)
deriving Repr, DecidableEq

def FileError.message : FileError → String
  | missing => "No such file or directory (os error 2)"
  | notFolder => "Not a directory (os error 20)"
  | isFolder => "Is a directory (os error 21)"
  | taken => "File exists (os error 17)"
  | longName => "File name too long (os error 36)"
  | notText => "stream did not contain valid UTF-8"
  | system reason number => s!"{reason} (os error {number})"

abbrev FileName := List UInt8

abbrev Path := List UInt8

namespace Path

def slash : UInt8 := 47

def dot : UInt8 := 46

def display (path : Path) : String :=
  Utf8.decodeLeniently path

end Path

abbrev Place := List FileName

namespace Place

def root : FileName := [Path.slash]

def here : FileName := [Path.dot]

def up : FileName := [Path.dot, Path.dot]

def voids : List Place :=
  ["null", "stdin"].map fun name => [root, Utf8.encode "dev", Utf8.encode name]

def rootFolders : List FileName :=
  ["bin", "boot", "dev", "etc", "home", "lib", "media", "mnt", "opt", "proc", "root", "run",
   "sbin", "srv", "sys", "tmp", "usr", "var"].map Utf8.encode

def isGiven (p : Place) : Bool :=
  p == [root] || rootFolders.any (p == [root, ·]) || p.all (· == up)

def parent (p : Place) : Place :=
  if p == [root] then p
  else if p.all (· == up) then p ++ [up]
  else p.dropLast

def enter (p : Place) (name : FileName) : Place :=
  if name = [] || name = here then p
  else if name = up then p.parent
  else p ++ [name]

def below? (folder p : Place) : Option Place :=
  match p.drop folder.length with
  | [] => none
  | name :: names =>
    if folder.isPrefixOf p && name != root && name != up then some (name :: names) else none

end Place

/-- A file with its bytes, and with what the system says where they cannot be read or written. -/
structure File where
  bytes : List UInt8 := []
  unreadable : Option FileError := none
  unwritable : Option FileError := none
deriving Repr, DecidableEq

def File.read (f : File) : Except FileError (List UInt8) :=
  match f.unreadable with
  | some e => .error e
  | none => .ok f.bytes

structure FileTree where
  files : List (Place × File) := []
  folders : List Place := []
deriving Repr, DecidableEq

namespace FileTree

def file? (t : FileTree) (p : Place) : Option File :=
  t.files.lookup p

def content? (t : FileTree) (p : Place) : Option File :=
  if p ∈ Place.voids then some {} else t.file? p

def hasFolder (t : FileTree) (p : Place) : Bool :=
  p.isGiven || t.folders.any (p.isPrefixOf ·) ||
    t.files.any fun f => p != f.1 && p.isPrefixOf f.1

def names (path : Path) : List FileName :=
  match path.splitOn Path.slash with
  | [] => []
  | [] :: rest => if path.isEmpty then [] else Place.root :: rest
  | names => names

def nameLimit : Nat := 255

def step (t : FileTree) (p : Place) (name : FileName) : Except FileError Place :=
  if !t.hasFolder p then .error (if (t.content? p).isSome then .notFolder else .missing)
  else if name.length > nameLimit then .error .longName
  else .ok (p.enter name)

def pathLimit : Nat := 4095

def follow (t : FileTree) (path : Path) (names : List FileName) : Except FileError Place :=
  if path.isEmpty then .error .missing
  else if path.length > pathLimit then .error .longName
  else names.foldlM t.step []

def place (t : FileTree) (path : Path) : Except FileError Place :=
  t.follow path (names path)

def read (t : FileTree) (path : Path) : Except FileError (List UInt8) := do
  let p ← t.place path
  match t.content? p with
  | some f => f.read
  | none => throw (if t.hasFolder p then .isFolder else .missing)

def readText (t : FileTree) (path : Path) : Except FileError String := do
  match Utf8.decode? (← t.read path) with
  | some text => return text
  | none => throw .notText

def put (t : FileTree) (p : Place) (bytes : List UInt8) : FileTree :=
  if p ∈ Place.voids then t
  else if (t.file? p).isSome then
    { t with files := t.files.map fun f => if f.1 = p then (p, { f.2 with bytes }) else f }
  else { t with files := t.files ++ [(p, { bytes })] }

def endsInSlash (path : Path) : Bool :=
  path.getLast? == some Path.slash

/-- Add a file with all folders on its way, in place of one that is there; a path that ends in a
slash stands for an empty folder. -/
def add (t : FileTree) (path : Path) (f : File) : FileTree :=
  let p := (names path).foldl Place.enter []
  if endsInSlash path then { t with folders := t.folders ++ [p] }
  else { t with files := t.files.filter (·.1 != p) ++ [(p, f)] }

def stop (t : FileTree) (path : Path) : Except FileError Place :=
  t.follow path ((names path).reverse.dropWhile (· == [])).reverse

def target (t : FileTree) (path : Path) : Except FileError Place := do
  let p ← t.stop path
  if t.hasFolder p || endsInSlash path then throw .isFolder
  match (t.file? p).bind (·.unwritable) with
  | some e => throw e
  | none => return p

def write (t : FileTree) (path : Path) (bytes : List UInt8) : Except FileError FileTree :=
  (t.target path).map fun p => t.put p bytes

def append (t : FileTree) (path : Path) (bytes : List UInt8) : Except FileError FileTree :=
  (t.target path).map fun p => t.put p (((t.file? p).elim [] (·.bytes)) ++ bytes)

def addFolders (t : FileTree) (p : Place) : List FileName → Except FileError FileTree
  | [] => .ok t
  | name :: rest => do
    let q ← t.step p name
    if t.hasFolder q then t.addFolders q rest
    else if (t.content? q).isSome then throw (if rest.isEmpty then .taken else .notFolder)
    else ({ t with folders := t.folders ++ [q] }).addFolders q rest

def addParents (t : FileTree) (path : Path) : Except FileError FileTree :=
  t.addFolders [] ((names path).filter fun n => n != [] && n != Place.here).dropLast

end FileTree

end PlatformRules
