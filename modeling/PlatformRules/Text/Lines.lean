import PlatformRules.Text.Basic

/-!
The lines of a text. Lines end at a line feed; a carriage return in front of it, or at the end of
the text, belongs to the terminator too. `foldLines_eq_foldlM` says that walking over the text is
folding over the list of its lines.
-/

namespace PlatformRules

structure SourceLine where
  number : Nat
  offset : Nat
  text : List Char
deriving Repr, DecidableEq

namespace SourceLine

def isBlank (l : SourceLine) : Bool :=
  l.text.all Text.isBlank

def length (l : SourceLine) : Nat :=
  Text.byteLength l.text

end SourceLine

namespace Text

def closeLine (number offset : Nat) (reversed : List Char) : SourceLine :=
  ⟨number, offset, withoutReturn reversed.reverse⟩

def linesFrom (number offset : Nat) : List Char → List Char → List SourceLine
  | [], reversed => if reversed = [] then [] else [closeLine number offset reversed]
  | c :: cs, reversed =>
    if c = '\n' then
      closeLine number offset reversed ::
        linesFrom (number + 1) (offset + byteLength reversed + 1) cs []
    else linesFrom number offset cs (c :: reversed)

def lines (cs : List Char) : List SourceLine :=
  linesFrom 1 0 cs []

def foldLinesFrom {ρ σ : Type} (visit : σ → SourceLine → Except ρ σ) (number offset : Nat) :
    List Char → List Char → σ → Except ρ σ
  | [], reversed, s => if reversed = [] then .ok s else visit s (closeLine number offset reversed)
  | c :: cs, reversed, s =>
    if c = '\n' then
      match visit s (closeLine number offset reversed) with
      | .error r => .error r
      | .ok s => foldLinesFrom visit (number + 1) (offset + byteLength reversed + 1) cs [] s
    else foldLinesFrom visit number offset cs (c :: reversed) s

def foldLines {ρ σ : Type} (visit : σ → SourceLine → Except ρ σ) (cs : List Char) (s : σ) :
    Except ρ σ :=
  foldLinesFrom visit 1 0 cs [] s

theorem foldLinesFrom_eq_foldlM {ρ σ : Type} (visit : σ → SourceLine → Except ρ σ)
    (number offset : Nat) (cs reversed : List Char) (s : σ) :
    foldLinesFrom visit number offset cs reversed s =
      (linesFrom number offset cs reversed).foldlM visit s := by
  induction cs generalizing number offset reversed s with
  | nil =>
    rw [foldLinesFrom, linesFrom]
    split
    · rfl
    · simp
  | cons c cs ih =>
    rw [foldLinesFrom, linesFrom]
    split
    · rw [List.foldlM_cons]
      cases visit s (closeLine number offset reversed) with
      | error r => rfl
      | ok s => exact ih ..
    · exact ih ..

theorem foldLines_eq_foldlM {ρ σ : Type} (visit : σ → SourceLine → Except ρ σ) (cs : List Char)
    (s : σ) : foldLines visit cs s = (lines cs).foldlM visit s :=
  foldLinesFrom_eq_foldlM ..

end Text

end PlatformRules
