import Mathlib.Data.List.Forall2
import PlatformRules.Evaluation.Observer

namespace PlatformRules

variable {γ : Type} {π : LineView → γ}

namespace Observer

def LooksThrough (π : LineView → γ) (o : Observer) : Prop :=
  ∀ vs ws : List LineView, vs.map π = ws.map π → o.ends vs = o.ends ws

structure AlikeThrough (π : LineView → γ) (o p : Observer) : Prop where
  ends : o.ends = p.ends
  seen : o.seen.map π = p.seen.map π
  looks : o.LooksThrough π

variable {o p : Observer} {v w : LineView}

theorem AlikeThrough.ends_cons (h : o.AlikeThrough π p) (hview : π v = π w) :
    o.ends (v :: o.seen) = p.ends (w :: p.seen) := by
  rw [← h.ends]
  apply h.looks
  rw [List.map_cons, List.map_cons, h.seen, hview]

theorem AlikeThrough.see (h : o.AlikeThrough π p) (hview : π v = π w) :
    AlikeThrough π { o with seen := v :: o.seen } { p with seen := w :: p.seen } where
  ends := h.ends
  seen := by rw [List.map_cons, List.map_cons, h.seen, hview]
  looks := h.looks

end Observer

def Sighting.of (v : LineView) (said : Nat × Bool) : Sighting :=
  ⟨said.1, v, said.2⟩

namespace ObserverChain

def AllAlikeThrough (π : LineView → γ) : List (Nat × Observer) → List (Nat × Observer) → Prop :=
  List.Forall₂ fun x y => x.1 = y.1 ∧ x.2.AlikeThrough π y.2

theorem allAlikeThrough_self {xs : List (Nat × Observer)} (h : ∀ x ∈ xs, x.2.LooksThrough π) :
    AllAlikeThrough π xs xs :=
  List.forall₂_same.2 fun x hx => ⟨rfl, rfl, rfl, h x hx⟩

theorem AllAlikeThrough.looksThrough {xs ys : List (Nat × Observer)}
    (h : AllAlikeThrough π xs ys) : ∀ x ∈ xs, x.2.LooksThrough π := by
  induction h with
  | nil => simp
  | cons hxy _ ih =>
    intro x hx
    rcases List.mem_cons.1 hx with rfl | hx
    · exact hxy.2.looks
    · exact ih x hx

theorem showTo_through {v w : LineView} (hview : π v = π w) {xs ys : List (Nat × Observer)}
    (h : AllAlikeThrough π xs ys) :
    (∃ said : List (Nat × Bool), (showTo v xs).1 = said.map (.of v) ∧
      (showTo w ys).1 = said.map (.of w)) ∧
      AllAlikeThrough π (showTo v xs).2 (showTo w ys).2 := by
  induction h with
  | nil => exact ⟨⟨[], rfl, rfl⟩, .nil⟩
  | @cons x y xs ys hxy hrest ih =>
    obtain ⟨handle, o⟩ := x
    obtain ⟨handle', p⟩ := y
    obtain ⟨rfl, halike⟩ := hxy
    have hended : o.ends (v :: o.seen) = p.ends (w :: p.seen) := halike.ends_cons hview
    simp only [showTo, hended]
    -- an observer that ends the run leaves those behind it as they are, in both chains
    cases p.ends (w :: p.seen) with
    | true => exact ⟨⟨[(handle, true)], rfl, rfl⟩, .cons ⟨rfl, halike.see hview⟩ hrest⟩
    | false =>
      obtain ⟨⟨said, hxs, hys⟩, hbound⟩ := ih
      refine ⟨⟨(handle, false) :: said, ?_, ?_⟩, .cons ⟨rfl, halike.see hview⟩ hbound⟩
      · exact congrArg (Sighting.of v (handle, false) :: ·) hxs
      · exact congrArg (Sighting.of w (handle, false) :: ·) hys

theorem run_through {v w : LineView} (hview : π v = π w) {c d : ObserverChain}
    (h : AllAlikeThrough π c.bound d.bound) :
    (∃ said : List (Nat × Bool), (c.run v).1 = said.map (.of v) ∧
      (d.run w).1 = said.map (.of w)) ∧ AllAlikeThrough π (c.run v).2.bound (d.run w).2.bound :=
  showTo_through hview h

end ObserverChain

end PlatformRules
