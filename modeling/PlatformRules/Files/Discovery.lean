import PlatformRules.Files.Tree

namespace PlatformRules

namespace FileTree

def documentExtension : String := "rsml"

def extension? (name : FileName) : Option (List UInt8) :=
  let reversed := name.reverse
  match reversed.dropWhile (· != Path.dot) with
  | _ :: _ :: _ => some (reversed.takeWhile (· != Path.dot)).reverse
  | _ => none

def isDocument (p : Place) : Bool :=
  (p.getLast?.bind extension?).any fun e =>
    e.map UInt8.toAsciiLower = Utf8.encode documentExtension

def documentBelow? (folder p : Place) : Option Place :=
  (folder.below? p).filter isDocument

def documentsBelow (t : FileTree) (p : Place) : List Place :=
  (t.files.filterMap fun f => documentBelow? p f.1).mergeSort fun a b => !decide (b < a)

def foldersBelow (t : FileTree) (p : Place) : List Place :=
  let ways := (t.files.filterMap fun f => p.below? f.1).map List.dropLast ++
    t.folders.filterMap p.below?
  ways.flatMap fun way => (List.range way.length).map fun n => way.take (n + 1)

def join (folder : Path) (p : Place) : Path :=
  let rest := [Path.slash].intercalate p
  if endsInSlash folder then folder ++ rest else folder ++ Path.slash :: rest

def deepFolder? (t : FileTree) (path : Path) (p : Place) : Option Path :=
  let deep := (t.foldersBelow p).filter fun q => (join path q).length > pathLimit
  (deep.mergeSort fun a b => !decide (b < a)).head?.map (join path)

structure Unreadable where
  path : Path
  reason : String
deriving Repr, DecidableEq

namespace Unreadable

def missing (path : Path) : Unreadable :=
  ⟨path, "no such file or directory"⟩

def deep (folder : Path) : Unreadable :=
  ⟨folder, s!"IO error for operation on {folder.display}: {FileError.longName.message}"⟩

end Unreadable

/-- The paths of the documents that a path stands for. A folder that cannot be opened ends the
search. -/
def documents (t : FileTree) (path : Path) : Except Unreadable (List Path) :=
  match t.place path with
  | .error _ => .error (.missing path)
  | .ok p =>
    if (t.file? p).isSome then .ok [path]
    else if t.hasFolder p then
      match t.deepFolder? path p with
      | some folder => .error (.deep folder)
      | none => .ok ((t.documentsBelow p).map (join path))
    else .error (.missing path)

end FileTree

end PlatformRules
