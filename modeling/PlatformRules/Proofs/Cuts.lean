import Mathlib.Data.List.SplitBy

namespace PlatformRules

variable {α : Type} {ends : α → Bool} {xs : List α} {x : α}

def cutBehind (ends : α → Bool) (xs : List α) : List (List α) :=
  xs.splitBy fun x _ => !ends x

theorem cutBehind_of_open (h : ∀ x ∈ xs.dropLast, ends x = false) (hne : xs ≠ []) :
    cutBehind ends xs = [xs] := by
  apply List.splitBy_of_isChain hne
  rw [List.isChain_iff_getElem]
  intro i hi
  have hmem : xs[i] ∈ xs.dropLast := by
    rw [List.mem_iff_getElem]
    exact ⟨i, by rw [List.length_dropLast]; omega, List.getElem_dropLast _⟩
  simp [h _ hmem]

theorem cutBehind_append_cons (h : ∀ x ∈ xs, ends x = false) (hx : ends x = true) (more : List α) :
    cutBehind ends (xs ++ x :: more) = (xs ++ [x]) :: cutBehind ends more := by
  have hpiece : cutBehind ends (xs ++ [x]) = [xs ++ [x]] :=
    cutBehind_of_open (by rwa [List.dropLast_concat]) (by simp)
  have happend : xs ++ x :: more = xs ++ [x] ++ more := by simp
  rw [happend, cutBehind, List.splitBy_append (by simp [hx])]
  exact congrArg (· ++ cutBehind ends more) hpiece

end PlatformRules
