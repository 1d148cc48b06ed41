import PlatformRules.Proofs.Text.Lines

namespace PlatformRules

open Text

def SourceLine.unplaced (l : SourceLine) : SourceLine :=
  { l with offset := 0 }

namespace Text

inductive AddsReturns : List Char → List Char → Prop
  | nil : AddsReturns [] []
  | cons (c : Char) {cs ds : List Char} (h : AddsReturns cs ds) : AddsReturns (c :: cs) (c :: ds)
  | feed {cs ds : List Char} (h : AddsReturns cs ds) :
      AddsReturns ('\n' :: cs) ('\r' :: '\n' :: ds)

theorem withoutReturn_of_not_mem {cs : List Char} (h : '\r' ∉ cs) : withoutReturn cs = cs :=
  if_neg fun hlast => h (List.mem_of_getLast? hlast)

theorem withoutReturn_concat (cs : List Char) : withoutReturn (cs ++ ['\r']) = cs := by
  rw [withoutReturn, List.getLast?_concat, if_pos rfl, List.dropLast_concat]

theorem unplaced_closeLine (number offset offset' : Nat) (reversed : List Char) :
    (closeLine number offset reversed).unplaced =
      (closeLine number offset' reversed).unplaced := rfl

theorem unplaced_closeLine_return (number offset offset' : Nat) {reversed : List Char}
    (h : '\r' ∉ reversed) : (closeLine number offset ('\r' :: reversed)).unplaced =
      (closeLine number offset' reversed).unplaced := by
  have hreturn : '\r' ∉ reversed.reverse := fun hm => h (List.mem_reverse.1 hm)
  simp only [closeLine, SourceLine.unplaced, List.reverse_cons, withoutReturn_concat,
    withoutReturn_of_not_mem hreturn]

theorem unplaced_linesFrom {cs ds : List Char} (h : AddsReturns cs ds) (hcs : '\r' ∉ cs)
    (number offset offset' : Nat) {reversed : List Char} (hreversed : '\r' ∉ reversed) :
    (linesFrom number offset' ds reversed).map (·.unplaced) =
      (linesFrom number offset cs reversed).map (·.unplaced) := by
  -- both texts have come to the same line with the same text of it read; only offsets drift apart
  induction h generalizing number offset offset' reversed with
  | nil =>
    rw [linesFrom, linesFrom]
    split
    · rfl
    · rfl
  | @cons c cs ds h ih =>
    obtain ⟨hc, hcs⟩ := List.ne_and_not_mem_of_not_mem_cons hcs
    rw [linesFrom, linesFrom]
    split
    · rw [List.map_cons, List.map_cons, ih hcs (number + 1) _ _ List.not_mem_nil,
        unplaced_closeLine number offset' offset]
    · exact ih hcs number _ _ (List.not_mem_cons_of_ne_of_not_mem hc hreversed)
  | @feed cs ds h ih =>
    obtain ⟨-, hcs⟩ := List.ne_and_not_mem_of_not_mem_cons hcs
    rw [linesFrom, if_neg (by decide), linesFrom, if_pos rfl, linesFrom, if_pos rfl, List.map_cons,
      List.map_cons, ih hcs (number + 1) _ _ List.not_mem_nil,
      unplaced_closeLine_return number offset' offset hreversed]

theorem unplaced_lines {cs ds : List Char} (h : AddsReturns cs ds) (hcs : '\r' ∉ cs) :
    (lines ds).map (·.unplaced) = (lines cs).map (·.unplaced) :=
  unplaced_linesFrom h hcs 1 0 0 List.not_mem_nil

end Text

end PlatformRules
