import PlatformRules.Text.Basic
import PlatformRules.Text.Integer

namespace PlatformRules

structure Assignment where
  key : List Char
  value : List Char
deriving Repr, DecidableEq

namespace Assignment

def isKeyChar (c : Char) : Bool :=
  c.isUpper || c == '_'

def ofLine? (line : List Char) : Option Assignment :=
  match line.takeWhile isKeyChar, line.dropWhile isKeyChar with
  | c :: cs, '=' :: value => some ⟨c :: cs, Text.trimEnd value⟩
  | _, _ => none

def unquote (cs : List Char) : List Char :=
  let isQuote (c : Char) := c == '"' || c == '\''
  ((cs.dropWhile isQuote).reverse.dropWhile isQuote).reverse

theorem length_dropWhile_le {α : Type} (p : α → Bool) (as : List α) :
    (as.dropWhile p).length ≤ as.length :=
  (List.dropWhile_sublist p).length_le

def all (cs : List Char) : List Assignment :=
  let start := cs.dropWhile Text.isBlank
  let found := (ofLine? (start.takeWhile (· != '\n'))).toList
  match ended : start.dropWhile (· != '\n') with
  | [] => found
  | _ :: rest =>
    have : rest.length < cs.length := by
      have h₁ := length_dropWhile_le (· != '\n') start
      have h₂ : start.length ≤ cs.length := length_dropWhile_le Text.isBlank cs
      simp only [ended, List.length_cons] at h₁
      omega
    found ++ all rest
termination_by cs.length

end Assignment

structure OsRelease where
  id : Option (List Char) := none
  idLike : Option (List Char) := none
  version : Option (List Char) := none
deriving Repr, DecidableEq

namespace OsRelease

def assign (r : OsRelease) (a : Assignment) : OsRelease :=
  let value := Assignment.unquote a.value
  if value.isEmpty then r
  else if a.key = "ID".toList then { r with id := some value }
  else if a.key = "ID_LIKE".toList then { r with idLike := some value }
  else if a.key = "VERSION_ID".toList then { r with version := some value }
  else r

def ofText (cs : List Char) : OsRelease :=
  (Assignment.all cs).foldl assign {}

def spelling (id : List Char) : String :=
  if id = "arch".toList then "archlinux" else String.ofList id

def distro? (r : OsRelease) : Option String :=
  r.id.map spelling

def firstWord? (cs : List Char) : Option (List Char) :=
  match (cs.dropWhile Text.isBlank).takeWhile (!Text.isBlank ·) with
  | [] => none
  | word => some word

/-- Fedora is a family of its own; otherwise the family is the first that the distribution is like,
or the distribution itself. -/
def family? (r : OsRelease) : Option String :=
  r.distro?.map fun name =>
    if name = "fedora" then name
    else match r.idLike.bind firstWord? with
      | some word => String.ofList word
      | none => name

def majorOf? (cs : List Char) : Option Int32 :=
  (Text.readDigits? ((Text.trim cs).takeWhile Char.isDigit)).bind fun n => Text.toInt32? n

def major? (r : OsRelease) : Option Int32 :=
  r.version.bind majorOf?

end OsRelease

end PlatformRules
