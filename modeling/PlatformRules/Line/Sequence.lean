import PlatformRules.Line.Scan

namespace PlatformRules

structure ScannedLine where
  line : Line
  text : List Char
  start : Nat
  stop : Nat
deriving Repr, DecidableEq

namespace ScannedLine

def length (s : ScannedLine) : Nat :=
  Text.byteLength s.text

def textOf (s : ScannedLine) (t : Token) : List Char :=
  match t.range with
  | none => []
  | some r => (⟨r.start - s.start, r.stop - s.start⟩ : ByteRange).slice s.text

end ScannedLine

namespace Buffer

variable [Limits]

theorem eq_advance_of_scanLine {b c : Buffer} {l : Line} (h : b.scanLine = (.ok l, c)) :
    c = b.advance (b.rawLine.length + 1) := by
  unfold scanLine at h
  split at h <;> simp_all

omit [Limits] in
theorem length_rest_advance_lt {b : Buffer} {n : Nat} (h : (b.advance n).rest ≠ []) (hn : 0 < n) :
    (b.advance n).rest.length < b.rest.length := by
  have := List.length_pos_iff.2 h
  simp only [advance, List.length_drop] at *
  omega

def scanLinesFrom (done : List ScannedLine) (b : Buffer) :
    List ScannedLine × Option (ScanError × Nat) :=
  match scanned : b.scanLine with
  | (.error e, c) => (done.reverse, some (e, c.position))
  | (.ok l, c) =>
    let done := ⟨l, b.lineRest, b.position, c.position⟩ :: done
    if ended : c.rest = [] then (done.reverse, none)
    else
      have : c.rest.length < b.rest.length := by
        have hc := eq_advance_of_scanLine scanned
        subst hc
        exact length_rest_advance_lt ended (Nat.succ_pos _)
      scanLinesFrom done c
termination_by b.rest.length

def scanLines (b : Buffer) : List ScannedLine × Option (ScanError × Nat) :=
  scanLinesFrom [] b

end Buffer

end PlatformRules
