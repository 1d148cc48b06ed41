import Mathlib.Data.List.Forall2
import Mathlib.Data.List.Induction

namespace PlatformRules

theorem map_eq_map_iff_forall₂ {α β γ : Type} {f : α → γ} {g : β → γ} {xs : List α} {ys : List β} :
    xs.map f = ys.map g ↔ List.Forall₂ (fun x y => f x = g y) xs ys := by
  rw [← List.forall₂_map_right_iff (R := fun x z => f x = z),
    ← List.forall₂_map_left_iff (R := Eq), List.forall₂_eq_eq_eq]

def Except.Related {ε δ σ τ : Type} (E : ε → δ → Prop) (R : σ → τ → Prop) :
    Except ε σ → Except δ τ → Prop
  | .ok s, .ok t => R s t
  | .error a, .error b => E a b
  | _, _ => False

theorem Except.eq_of_related {ε σ : Type} {x y : Except ε σ} (h : Except.Related Eq Eq x y) :
    x = y := by
  cases x with
  | error a =>
    cases y with
    | error b => exact congrArg _ h
    | ok t => exact h.elim
  | ok s =>
    cases y with
    | error b => exact h.elim
    | ok t => exact congrArg _ h

theorem Except.Related.bind {ε δ σ τ σ' τ' : Type} {E : ε → δ → Prop} {R : σ → τ → Prop}
    {R' : σ' → τ' → Prop} {x : Except ε σ} {y : Except δ τ} {f : σ → Except ε σ'}
    {g : τ → Except δ τ'} (h : Except.Related E R x y)
    (hfg : ∀ s t, R s t → Except.Related E R' (f s) (g t)) :
    Except.Related E R' (x >>= f) (y >>= g) := by
  cases x with
  | error a =>
    cases y with
    | error b => exact h
    | ok t => exact h.elim
  | ok s =>
    cases y with
    | error b => exact h.elim
    | ok t => exact hfg s t h

theorem exists_of_bind_eq_ok {α β ε : Type} {x : Except ε α} {f : α → Except ε β} {b : β}
    (h : x >>= f = .ok b) : ∃ a, x = .ok a ∧ f a = .ok b := by
  cases x with
  | error e => simp [bind, Except.bind] at h
  | ok a => exact ⟨a, rfl, h⟩

theorem foldlM_related {α β ε δ σ τ : Type} {E : ε → δ → Prop} {R : σ → τ → Prop}
    {S : α → β → Prop} {f : σ → α → Except ε σ} {g : τ → β → Except δ τ}
    (hstep : ∀ s t x y, R s t → S x y → Except.Related E R (f s x) (g t y))
    {xs : List α} {ys : List β} (h : List.Forall₂ S xs ys) {s : σ} {t : τ} (hst : R s t) :
    Except.Related E R (xs.foldlM f s) (ys.foldlM g t) := by
  induction h generalizing s t with
  | nil => exact hst
  | cons hxy _ ih =>
    rw [List.foldlM_cons, List.foldlM_cons]
    exact (hstep _ _ _ _ hst hxy).bind fun _ _ => ih

theorem foldlM_filter_related {α β ε δ σ τ : Type} {E : ε → δ → Prop} {R : σ → τ → Prop}
    {S : α → β → Prop} {f : σ → α → Except ε σ} {g : τ → β → Except δ τ} {keep : β → Bool}
    (hstep : ∀ s t x y, R s t → S x y → Except.Related E R (f s x) (g t y))
    {xs : List α} {ys : List β}
    (hskip : ∀ s t, ∀ y ∈ ys, keep y = false → R s t → ∃ u, g t y = .ok u ∧ R s u)
    (h : List.Forall₂ S xs (ys.filter keep)) {s : σ} {t : τ} (hst : R s t) :
    Except.Related E R (xs.foldlM f s) (ys.foldlM g t) := by
  induction ys generalizing xs s t with
  | nil =>
    obtain rfl := List.forall₂_nil_right_iff.1 h
    exact hst
  | cons y ys ih =>
    have hskip' := fun s t z hz => hskip s t z (List.mem_cons_of_mem y hz)
    rw [List.foldlM_cons]
    cases hkeep : keep y with
    | false =>
      obtain ⟨u, hu, hsu⟩ := hskip s t y List.mem_cons_self hkeep hst
      rw [List.filter_cons_of_neg (by simp [hkeep])] at h
      rw [hu]
      exact ih hskip' h hsu
    | true =>
      rw [List.filter_cons_of_pos hkeep] at h
      obtain ⟨x, xs, hxy, hrest, rfl⟩ := List.forall₂_cons_right_iff.1 h
      rw [List.foldlM_cons]
      exact (hstep _ _ _ _ hst hxy).bind fun _ _ => ih hskip' hrest

theorem foldlM_congr {α ε σ : Type} {f g : σ → α → Except ε σ} {xs : List α}
    (h : ∀ x ∈ xs, ∀ s, f s x = g s x) (s : σ) : xs.foldlM f s = xs.foldlM g s := by
  induction xs generalizing s with
  | nil => rfl
  | cons x xs ih =>
    rw [List.foldlM_cons, List.foldlM_cons, h x (by simp)]
    cases g s x with
    | error a => rfl
    | ok t => exact ih (fun y hy => h y (List.mem_cons_of_mem x hy)) t

theorem exists_of_mem_of_foldlM_eq_ok {α ε σ : Type} {f : σ → α → Except ε σ} {xs : List α}
    {s t : σ} (h : xs.foldlM f s = .ok t) {x : α} (hx : x ∈ xs) : ∃ u v, f u x = .ok v := by
  induction xs generalizing s with
  | nil => simp at hx
  | cons y ys ih =>
    rw [List.foldlM_cons] at h
    cases hf : f s y with
    | error a => simp [hf, bind, Except.bind] at h
    | ok u =>
      rw [hf] at h
      rcases List.mem_cons.1 hx with rfl | hx
      · exact ⟨s, u, hf⟩
      · exact ih h hx

theorem exists_of_foldlM_eq_error {α ε σ : Type} {f : σ → α → Except ε σ} {xs : List α} {s : σ}
    {a : ε} (h : xs.foldlM f s = .error a) : ∃ before x after t, xs = before ++ x :: after ∧
      before.foldlM f s = .ok t ∧ f t x = .error a := by
  induction xs generalizing s with
  | nil => simp [pure, Except.pure] at h
  | cons y ys ih =>
    rw [List.foldlM_cons] at h
    cases hf : f s y with
    | error b =>
      rw [hf] at h
      exact ⟨[], y, ys, s, rfl, rfl, hf.trans h⟩
    | ok u =>
      rw [hf] at h
      obtain ⟨before, x, after, t, rfl, hbefore, hx⟩ := ih h
      refine ⟨y :: before, x, after, t, rfl, ?_, hx⟩
      rw [List.foldlM_cons, hf]
      exact hbefore

theorem foldlM_eq_error_iff {α ε σ : Type} {f : σ → α → Except ε σ} {xs : List α} {s : σ} {a : ε} :
    xs.foldlM f s = .error a ↔ ∃ before x after t, xs = before ++ x :: after ∧
      before.foldlM f s = .ok t ∧ f t x = .error a := by
  constructor
  · exact exists_of_foldlM_eq_error
  · rintro ⟨before, x, after, t, rfl, hbefore, hx⟩
    rw [List.foldlM_append, hbefore]
    change List.foldlM f t (x :: after) = _
    rw [List.foldlM_cons, hx]
    rfl

theorem mapM_eq_ok_iff {α β ε : Type} {f : α → Except ε β} {xs : List α} {ys : List β} :
    xs.mapM f = .ok ys ↔ List.Forall₂ (fun x y => f x = .ok y) xs ys := by
  induction xs generalizing ys with
  | nil => cases ys <;> simp [pure, Except.pure]
  | cons x xs ih =>
    rw [List.mapM_cons]
    cases hx : f x with
    | error a => cases ys <;> simp [hx, bind, Except.bind]
    | ok y =>
      cases hxs : xs.mapM f with
      | error a => cases ys <;> simp [← ih, hx, hxs, bind, Except.bind]
      | ok zs => cases ys <;> simp [← ih, hx, hxs, bind, Except.bind, pure, Except.pure]

theorem exists_of_mapM_eq_error {α β ε : Type} {f : α → Except ε β} {xs : List α} {a : ε}
    (h : xs.mapM f = .error a) : ∃ x ∈ xs, f x = .error a := by
  induction xs with
  | nil => simp [pure, Except.pure] at h
  | cons x xs ih =>
    rw [List.mapM_cons] at h
    cases hx : f x with
    | error b =>
      have hb : b = a := by simpa [hx, bind, Except.bind] using h
      exact ⟨x, List.mem_cons_self, hb ▸ hx⟩
    | ok y =>
      cases hxs : xs.mapM f with
      | error b =>
        have hb : b = a := by simpa [hx, hxs, bind, Except.bind] using h
        obtain ⟨z, hz, hfz⟩ := ih (hb ▸ hxs)
        exact ⟨z, List.mem_cons_of_mem x hz, hfz⟩
      | ok ys => simp [hx, hxs, bind, Except.bind, pure, Except.pure] at h

theorem foldlM_induction {α ε σ : Type} {f : σ → α → Except ε σ} {P : List α → σ → Prop}
    {xs : List α} {s t : σ} (hnil : P [] s)
    (hstep : ∀ before x after u v, xs = before ++ x :: after → before.foldlM f s = .ok u →
      P before u → f u x = .ok v → P (before ++ [x]) v)
    (h : xs.foldlM f s = .ok t) : P xs t := by
  induction xs using List.reverseRecOn generalizing t with
  | nil =>
    obtain rfl := Except.ok.inj h
    exact hnil
  | append_singleton xs x ih =>
    rw [List.foldlM_append] at h
    cases hxs : xs.foldlM f s with
    | error a => simp [hxs, bind, Except.bind] at h
    | ok u =>
      have hx : f u x = .ok t := by
        rw [hxs] at h
        exact (bind_pure (f u x)).symm.trans h
      apply hstep xs x [] u t rfl hxs _ hx
      apply ih _ hxs
      intro before y after u v hcut
      apply hstep before y (after ++ [x]) u v
      simp [hcut]

end PlatformRules
