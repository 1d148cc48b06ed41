import PlatformRules.Line.Slots
import Mathlib.Data.List.Basic

namespace PlatformRules

namespace Slots

def ofTokens (ts : List Token) : Slots :=
  ⟨Vector.ofFn fun i => ts[i.val]?.getD .vacant, ts.length⟩

variable {ts : List Token} {t : Token} {index : Nat}

@[simp] theorem taken_ofTokens (ts : List Token) : (ofTokens ts).taken = ts.length := rfl

@[simp] theorem getElem_ofTokens (ts : List Token) {i : Nat} (hi : i < lineCapacity) :
    (ofTokens ts).cells[i] = ts[i]?.getD .vacant := by
  simp [ofTokens]

theorem getElem?_ofTokens (ts : List Token) {i : Nat} (hi : i < lineCapacity) :
    (ofTokens ts).cells[i]? = some (ts[i]?.getD .vacant) := by
  rw [Vector.getElem?_eq_getElem hi, getElem_ofTokens]

theorem eq_ofTokens {s : Slots} (hlength : s.taken = ts.length)
    (hcells : ∀ i (hi : i < lineCapacity), s.cells[i] = ts[i]?.getD .vacant) : s = ofTokens ts := by
  obtain ⟨cells, taken⟩ := s
  obtain rfl : taken = ts.length := hlength
  have hsame : cells = (ofTokens ts).cells := by
    apply Vector.ext
    intro i hi
    rw [getElem_ofTokens]
    exact hcells i hi
  rw [hsame]
  rfl

theorem ofTokens_nil : ofTokens [] = empty := by
  refine (eq_ofTokens rfl ?_).symm
  intro i hi
  simp [empty]

theorem get?_ofTokens (h : ts.length ≤ lineCapacity) (i : Nat) : (ofTokens ts).get? i = ts[i]? := by
  unfold get?
  rw [taken_ofTokens]
  split
  · next hi => rw [getElem?_ofTokens ts (by omega), List.getElem?_eq_getElem hi, Option.getD_some]
  · next hi => rw [List.getElem?_eq_none (Nat.le_of_not_lt hi)]

theorem tokens_ofTokens (h : ts.length ≤ lineCapacity) : (ofTokens ts).tokens = ts := by
  apply List.ext_getElem?
  intro i
  rw [tokens, List.getElem?_take, ← get?_ofTokens h i]
  simp only [get?, Vector.getElem?_toList]

theorem cells_ofTokens (l : Line) : (ofTokens l.tokens).cells.toList = l.slots := by
  apply List.ext_getElem
  · rw [Vector.length_toList, Line.length_slots]
  · intro i hi hslots
    rw [Vector.getElem_toList, getElem_ofTokens]
    simp only [Line.slots, List.getElem_append, List.getElem_replicate]
    split
    · next hlt => rw [List.getElem?_eq_getElem hlt, Option.getD_some]
    · next hge => rw [List.getElem?_eq_none (Nat.le_of_not_lt hge), Option.getD_none]

theorem isFull_ofTokens (ts : List Token) : (ofTokens ts).isFull = (ts.length == lineCapacity) := rfl

theorem put_ofTokens (ts : List Token) (t : Token) :
    (⟨(ofTokens ts).cells.setIfInBounds ts.length t, ts.length + 1⟩ : Slots) =
      ofTokens (ts ++ [t]) := by
  refine eq_ofTokens (by simp) ?_
  intro i hi
  rw [Vector.getElem_setIfInBounds, getElem_ofTokens, List.getElem?_append]
  grind

theorem ite_isFull_ofTokens {α : Type} (h : ts.length ≤ lineCapacity) (a b : α) :
    (if (ofTokens ts).isFull = true then a else b) = if ts.length < lineCapacity then b else a := by
  rw [isFull_ofTokens]
  by_cases hfull : ts.length = lineCapacity
  · rw [if_pos (beq_iff_eq.2 hfull), if_neg (by omega)]
  · rw [if_neg (by simpa using hfull), if_pos (by omega)]

theorem push?_ofTokens (h : ts.length ≤ lineCapacity) (t : Token) : (ofTokens ts).push? t =
    if ts.length < lineCapacity then some (ofTokens (ts ++ [t])) else none := by
  rw [push?, ite_isFull_ofTokens h, taken_ofTokens, put_ofTokens]

theorem push?_of_lt (h : ts.length < lineCapacity) (t : Token) :
    (ofTokens ts).push? t = some (ofTokens (ts ++ [t])) := by
  rw [push?_ofTokens (Nat.le_of_lt h), if_pos h]

theorem pop_ofTokens (h : ts.length ≤ lineCapacity) :
    (ofTokens ts).pop = (ts.getLast?, ofTokens ts.dropLast) := by
  unfold pop
  rw [taken_ofTokens]
  split
  · next hzero =>
    obtain rfl := List.length_eq_zero_iff.1 hzero
    rfl
  · next hne =>
    have hlast : ts.length - 1 < ts.length := by omega
    congr 1
    · rw [getElem?_ofTokens ts (by omega), List.getLast?_eq_getElem?,
        List.getElem?_eq_getElem hlast, Option.getD_some]
    · refine eq_ofTokens (by simp) ?_
      intro i hi
      rw [Vector.getElem_setIfInBounds, getElem_ofTokens, List.getElem?_dropLast]
      grind

theorem getElem_copied (h : ts.length ≤ lineCapacity) (start target : Nat) {i : Nat}
    (hi : i < lineCapacity) : (copied (ofTokens ts).cells start ts.length target)[i] =
      if target ≤ i ∧ i < target + (ts.length - start) then
        ts[start + (i - target)]?.getD .vacant
      else ts[i]?.getD .vacant := by
  simp only [copied, Vector.getElem_ofFn, Fin.getElem_fin, getElem_ofTokens]
  split
  · next hmoved =>
    rw [getElem?_ofTokens ts (by omega), Option.getD_some]
  · rfl

theorem insert?_ofTokens (h : ts.length ≤ lineCapacity) (index : Nat) (t : Token) :
    (ofTokens ts).insert? index t =
      if ts.length < lineCapacity then some (ofTokens (ts.insertIdx (min index ts.length) t))
      else none := by
  have hmin : min index ts.length ≤ ts.length := Nat.min_le_right ..
  rw [insert?, ite_isFull_ofTokens h]
  simp only [taken_ofTokens]
  generalize min index ts.length = place at hmin
  congr 2
  apply eq_ofTokens
  · simp only [List.length_insertIdx_of_le_length hmin]
  · intro i hi
    rw [Vector.getElem_setIfInBounds, getElem_copied h, List.getElem?_insertIdx]
    grind

theorem insert?_of_lt (h : ts.length < lineCapacity) (hindex : index ≤ ts.length) (t : Token) :
    (ofTokens ts).insert? index t = some (ofTokens (ts.insertIdx index t)) := by
  rw [insert?_ofTokens (Nat.le_of_lt h), if_pos h, Nat.min_eq_left hindex]

theorem erase_ofTokens (h : ts.length ≤ lineCapacity) (index : Nat) :
    (ofTokens ts).erase index = (ts[index]?, ofTokens (ts.eraseIdx index)) := by
  unfold erase
  rw [taken_ofTokens]
  split
  · next hout => rw [List.getElem?_eq_none hout, List.eraseIdx_of_length_le hout]
  · next hin =>
    have hlt : index < ts.length := by omega
    congr 1
    · rw [getElem?_ofTokens ts (by omega), List.getElem?_eq_getElem hlt, Option.getD_some]
    · refine eq_ofTokens (by simp [List.length_eraseIdx_of_lt hlt]) ?_
      intro i hi
      rw [Vector.getElem_setIfInBounds, getElem_copied h, List.getElem?_eraseIdx]
      grind

theorem foldlM_push? (us : List Token) (h : ts.length ≤ lineCapacity) :
    us.foldlM push? (ofTokens ts) =
      if ts.length + us.length ≤ lineCapacity then some (ofTokens (ts ++ us)) else none := by
  induction us generalizing ts with
  | nil => simp [h]
  | cons u us ih =>
    rw [List.foldlM_cons, push?_ofTokens h]
    by_cases hroom : ts.length < lineCapacity
    · have happend : (ts ++ [u]).length ≤ lineCapacity := by
        rw [List.length_append]
        exact hroom
      rw [if_pos hroom, Option.bind_eq_bind, Option.bind_some, ih happend]
      simp [Nat.add_comm, Nat.add_left_comm]
    · rw [if_neg hroom, if_neg (by simp; omega)]
      rfl

theorem ofList?_eq (ts : List Token) :
    ofList? ts = if ts.length ≤ lineCapacity then some (ofTokens ts) else none := by
  have hempty : ([] : List Token).length ≤ lineCapacity := Nat.zero_le _
  rw [ofList?, ← ofTokens_nil, foldlM_push? ts hempty, List.length_nil, Nat.zero_add,
    List.nil_append]

theorem ofCells_eq (cells : Vector Token lineCapacity) :
    ofCells cells = ofTokens (cells.toList.filter fun t => !t.isVacant) := by
  have hfold (us ts : List Token) :
      us.foldl (fun s t => (⟨s.cells.setIfInBounds s.taken t, s.taken + 1⟩ : Slots)) (ofTokens ts) =
        ofTokens (ts ++ us) := by
    induction us generalizing ts with
    | nil => simp
    | cons u us ih => rw [List.foldl_cons, taken_ofTokens, put_ofTokens, ih, List.append_assoc]; rfl
  rw [ofCells, ← ofTokens_nil, hfold, List.nil_append]

/-! Canonical form -/

theorem endsLine_ofTokens (h : ts.length ≤ lineCapacity) :
    (ofTokens ts).endsLine = ts.getLast?.any fun t => t.kind == .lineEnd := by
  rw [endsLine, last?, get?_ofTokens h, taken_ofTokens, List.getLast?_eq_getElem?]

theorem completeComment?_ofTokens (ts : List Token) :
    (ofTokens ts).completeComment? = (Canonical.comment? ts).map ofTokens := by
  match ts with
  | [] => rfl
  | [_] => exact push?_of_lt (by simp [lineCapacity]) _
  | [_, _] => rfl
  | _ :: _ :: _ :: _ => rfl

theorem completeAction?_ofTokens (ts : List Token) :
    (ofTokens ts).completeAction? = (Canonical.action? ts).map ofTokens := by
  match ts with
  | [] => rfl
  | [_] => rfl
  | [_, _] => exact push?_of_lt (by simp [lineCapacity]) _
  | [_, _, _] => rfl
  | _ :: _ :: _ :: _ :: _ => rfl

theorem addWildcards?_cons (h : ts.length < lineCapacity) (hindex : index ≤ ts.length)
    (places : List Nat) : (ofTokens ts).addWildcards? (index :: places) =
      (ofTokens (ts.insertIdx index Canonical.wildcard)).addWildcards? places := by
  rw [addWildcards?, List.foldlM_cons, insert?_of_lt h hindex]
  rfl

@[simp] theorem addWildcards?_nil (s : Slots) : s.addWildcards? [] = some s := rfl

theorem completePath?_ofTokens (ts : List Token) :
    (ofTokens ts).completePath? = (Canonical.path? ts).map ofTokens := by
  match ts with
  | [] => rfl
  | [_] => rfl
  | [o, value] =>
    change (ofTokens [o, value]).addWildcards? [1, 1, 1] = _
    rw [addWildcards?_cons, addWildcards?_cons, addWildcards?_cons] <;>
      simp [lineCapacity, Canonical.path?]
  | [o, system, value] =>
    change (ofTokens [o, system, value]).addWildcards? [2, 2] = _
    rw [addWildcards?_cons, addWildcards?_cons] <;> simp [lineCapacity, Canonical.path?]
  | [o, system, arch, value] =>
    change (ofTokens [o, system, arch, value]).addWildcards? [2] = _
    rw [addWildcards?_cons] <;> simp [lineCapacity, Canonical.path?]
  | [_, _, _, _, _] => rfl
  | [_, _, _, _, _, _] => rfl
  | _ :: _ :: _ :: _ :: _ :: _ :: _ :: _ => rfl

theorem rule?_eq (k : Token.Kind) : match Canonical.rule? k with
    | none => rule? k = none
    | some f => ∃ g, rule? k = some g ∧ ∀ ts, g (ofTokens ts) = (f ts).map ofTokens := by
  cases k with
  | commentSign => exact ⟨_, rfl, completeComment?_ofTokens⟩
  | actionSign => exact ⟨_, rfl, completeAction?_ofTokens⟩
  | operator o => exact ⟨_, rfl, completePath?_ofTokens⟩
  | _ => rfl

end Slots

namespace Canonical

def withoutEnd (ts : List Token) : List Token :=
  if ts.getLast?.any fun t => t.kind == .lineEnd then ts.dropLast else ts

def tokens (ts : List Token) : Except ShapeError (List Token) :=
  match ts.head? with
  | none => .error .emptyLine
  | some first =>
    if first.kind.isTerminator then .ok ts
    else match rule? first.kind with
      | none => .error (.unexpectedLeading first.kind)
      | some f => match f (withoutEnd ts) with
        | none => .error (.malformed first.kind ts.length)
        | some us => .ok (us ++ [.synthetic .lineEnd])

theorem tokens_eq (l : Line) : tokens l.tokens = l.canonical.map (·.tokens) := by
  have hcontent : withoutEnd l.tokens = l.content := rfl
  unfold Line.canonical
  split
  · next hhead => simp [tokens, hhead, Except.map]
  · next first hhead =>
    split
    · next hfirst => simp [tokens, hhead, hfirst, Except.map]
    · next hfirst =>
      split
      · next hrule => simp [tokens, hhead, hfirst, hrule, Except.map]
      · next f hrule =>
        split
        · next hf =>
          simp [tokens, hhead, hfirst, hrule, hcontent, hf, Line.length, Except.map]
        · next us hf => simp [tokens, hhead, hfirst, hrule, hcontent, hf, Except.map]

theorem length_le_of_tokens {ts us : List Token} (h : tokens ts = .ok us)
    (hts : ts.length ≤ lineCapacity) : us.length ≤ lineCapacity := by
  rw [tokens_eq ⟨ts, hts⟩] at h
  cases hcanonical : Line.canonical ⟨ts, hts⟩ with
  | error e => simp [hcanonical, Except.map] at h
  | ok c =>
    obtain rfl : c.tokens = us := by simpa [hcanonical, Except.map] using h
    exact c.length_le

end Canonical

namespace Slots

variable {ts : List Token}

theorem reshape_ofTokens (h : ts.length ≤ lineCapacity) {k : Token.Kind}
    {f : List Token → Option (List Token)} {g : Slots → Option Slots}
    (hf : Canonical.rule? k = some f) (hg : ∀ us, g (ofTokens us) = (f us).map ofTokens) :
    (ofTokens ts).reshape k g = match f (Canonical.withoutEnd ts) with
      | none => .error (.malformed k ts.length)
      | some us => .ok (ofTokens (us ++ [.synthetic .lineEnd])) := by
  have hcontent : (if (ofTokens ts).endsLine then (ofTokens ts).pop.2 else ofTokens ts) =
      ofTokens (Canonical.withoutEnd ts) := by
    rw [endsLine_ofTokens h, pop_ofTokens h, Canonical.withoutEnd, apply_ite ofTokens]
  rw [reshape, hcontent, hg]
  cases hus : f (Canonical.withoutEnd ts) with
  | none => rfl
  | some us =>
    have hroom := Canonical.length_of_rule? hf hus
    rw [Option.map_some, Option.bind_some, push?_of_lt hroom]

theorem normalize_ofTokens (h : ts.length ≤ lineCapacity) : (ofTokens ts).normalize =
    match Canonical.tokens ts with
    | .ok us => (.ok us.length, ofTokens us)
    | .error e => (.error e, empty) := by
  unfold normalize Canonical.tokens
  rw [get?_ofTokens h, ← List.head?_eq_getElem?]
  cases hhead : ts.head? with
  | none =>
    obtain rfl := List.head?_eq_none_iff.1 hhead
    rw [ofTokens_nil]
  | some first =>
    simp only [shaped]
    cases first.kind.isTerminator with
    | true => rfl
    | false =>
      have hrule := rule?_eq first.kind
      cases hf : Canonical.rule? first.kind with
      | none =>
        rw [hf] at hrule
        simp [hrule]
      | some f =>
        rw [hf] at hrule
        obtain ⟨g, hg, hcomplete⟩ := hrule
        simp only [hg, reshape_ofTokens h hf hcomplete, Bool.false_eq_true, if_false]
        cases f (Canonical.withoutEnd ts) with
        | none => rfl
        | some us => rfl

end Slots

end PlatformRules
