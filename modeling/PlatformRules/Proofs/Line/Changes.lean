import PlatformRules.Proofs.Line.Slots
import Mathlib.Data.List.Basic

namespace PlatformRules

inductive LineChange where
  | push (t : Token)
  | pop
  | insert (index : Nat) (t : Token)
  | erase (index : Nat)
  | clear
  | ofList (ts : List Token)
  | ofCells (cells : Vector Token lineCapacity)
  | normalize

inductive LineAnswer where
  | made
  | refused
  | removed (t : Option Token)
  | shaped (r : Except ShapeError Nat)
deriving DecidableEq

def LineAnswer.ofChanged {σ : Type} (s : σ) : Option σ → LineAnswer × σ
  | some s' => (.made, s')
  | none => (.refused, s)

namespace LineChange

def inPlace (s : Slots) : LineChange → LineAnswer × Slots
  | push t => LineAnswer.ofChanged s (s.push? t)
  | pop => (.removed s.pop.1, s.pop.2)
  | insert index t => LineAnswer.ofChanged s (s.insert? index t)
  | erase index => (.removed (s.erase index).1, (s.erase index).2)
  | clear => (.made, .empty)
  | ofList ts => LineAnswer.ofChanged s (Slots.ofList? ts)
  | ofCells cells => (.made, .ofCells cells)
  | normalize => (.shaped s.normalize.1, s.normalize.2)

def onLine (l : Line) : LineChange → LineAnswer × Line
  | push t => LineAnswer.ofChanged l (l.push? t)
  | pop => (.removed l.last?, l.pop)
  | insert index t => LineAnswer.ofChanged l (l.insert? index t)
  | erase index => (.removed (l.get? index), l.erase index)
  | clear => (.made, .empty)
  | ofList ts => LineAnswer.ofChanged l (Line.ofList? ts)
  | ofCells cells => (.made, .ofSlots cells.toList)
  | normalize => match l.canonical with
    | .ok c => (.shaped (.ok c.length), c)
    | .error e => (.shaped (.error e), .empty)

def onList (ts : List Token) : LineChange → LineAnswer × List Token
  | push t => if ts.length < lineCapacity then (.made, ts ++ [t]) else (.refused, ts)
  | pop => (.removed ts.getLast?, ts.dropLast)
  | insert index t =>
    if ts.length < lineCapacity then (.made, ts.insertIdx (min index ts.length) t)
    else (.refused, ts)
  | erase index => (.removed ts[index]?, ts.eraseIdx index)
  | clear => (.made, [])
  | ofList us => if us.length ≤ lineCapacity then (.made, us) else (.refused, ts)
  | ofCells cells => (.made, cells.toList.filter fun t => !t.isVacant)
  | normalize => match Canonical.tokens ts with
    | .ok us => (.shaped (.ok us.length), us)
    | .error e => (.shaped (.error e), [])

def runs {σ : Type} (step : σ → LineChange → LineAnswer × σ) (s : σ) :
    List LineChange → List LineAnswer × σ
  | [] => ([], s)
  | c :: cs => ((step s c).1 :: (runs step (step s c).2 cs).1, (runs step (step s c).2 cs).2)

variable {ts : List Token}

theorem length_onList (h : ts.length ≤ lineCapacity) (c : LineChange) :
    (onList ts c).2.length ≤ lineCapacity := by
  cases c with
  | push t =>
    rw [onList]
    split
    · next hroom =>
      rw [List.length_append]
      exact hroom
    · exact h
  | pop =>
    rw [onList, List.length_dropLast]
    exact Nat.le_trans (Nat.sub_le _ _) h
  | insert index t =>
    rw [onList]
    split
    · next hroom =>
      rw [List.length_insertIdx_of_le_length (Nat.min_le_right ..)]
      exact hroom
    · exact h
  | erase index => exact Nat.le_trans (List.length_eraseIdx_le _ _) h
  | clear => exact Nat.zero_le _
  | ofList us =>
    rw [onList]
    split
    · next hfits => exact hfits
    · exact h
  | ofCells cells => exact Nat.le_trans (List.length_filter_le _ _) (Nat.le_of_eq (by simp))
  | normalize =>
    rw [onList]
    cases hus : Canonical.tokens ts with
    | ok us => exact Canonical.length_le_of_tokens hus h
    | error e => exact Nat.zero_le _

theorem inPlace_ofTokens (h : ts.length ≤ lineCapacity) (c : LineChange) :
    inPlace (.ofTokens ts) c = ((onList ts c).1, .ofTokens (onList ts c).2) := by
  cases c with
  | push t =>
    simp only [inPlace, onList, Slots.push?_ofTokens h]
    split <;> rfl
  | pop => simp only [inPlace, onList, Slots.pop_ofTokens h]
  | insert index t =>
    simp only [inPlace, onList, Slots.insert?_ofTokens h]
    split <;> rfl
  | erase index => simp only [inPlace, onList, Slots.erase_ofTokens h]
  | clear => simp only [inPlace, onList, Slots.ofTokens_nil]
  | ofList us =>
    simp only [inPlace, onList, Slots.ofList?_eq]
    split <;> rfl
  | ofCells cells => simp only [inPlace, onList, Slots.ofCells_eq]
  | normalize =>
    simp only [inPlace, onList, Slots.normalize_ofTokens h]
    cases Canonical.tokens ts with
    | ok us => rfl
    | error e => simp only [Slots.ofTokens_nil]

theorem take_append_cons_drop (ts : List Token) (index : Nat) (t : Token) :
    ts.take index ++ t :: ts.drop index = ts.insertIdx (min index ts.length) t := by
  induction ts generalizing index with
  | nil => cases index <;> rfl
  | cons u us ih =>
    cases index with
    | zero => rfl
    | succ index =>
      rw [List.take_succ_cons, List.drop_succ_cons, List.cons_append, ih, List.length_cons,
        Nat.add_min_add_right, List.insertIdx_succ_cons]

theorem ofChanged_ofList? (l : Line) {us : List Token} (h : us.length = l.tokens.length + 1) :
    (if l.tokens.length < lineCapacity then (LineAnswer.made, us) else (.refused, l.tokens)) =
      ((LineAnswer.ofChanged l (Line.ofList? us)).1,
        (LineAnswer.ofChanged l (Line.ofList? us)).2.tokens) := by
  rw [Line.ofList?]
  by_cases hroom : l.tokens.length < lineCapacity
  · rw [if_pos hroom, dif_pos (by omega)]
    rfl
  · rw [if_neg hroom, dif_neg (by omega)]
    rfl

theorem onList_tokens (l : Line) (c : LineChange) :
    onList l.tokens c = ((onLine l c).1, (onLine l c).2.tokens) := by
  cases c with
  | push t => exact ofChanged_ofList? l (List.length_append ..)
  | pop => rfl
  | insert index t =>
    simp only [onList, onLine, Line.insert?, take_append_cons_drop]
    exact ofChanged_ofList? l (List.length_insertIdx_of_le_length (Nat.min_le_right ..) t)
  | erase index => rfl
  | clear => rfl
  | ofList us =>
    simp only [onList, onLine, Line.ofList?]
    split <;> rfl
  | ofCells cells =>
    have hall : cells.toList.take lineCapacity = cells.toList :=
      List.take_of_length_le (Nat.le_of_eq cells.length_toList)
    simp only [onList, onLine, Line.ofSlots, hall]
  | normalize =>
    simp only [onList, onLine, Canonical.tokens_eq]
    cases l.canonical with
    | ok c => rfl
    | error e => rfl

theorem runs_onList_tokens (l : Line) (cs : List LineChange) :
    runs onList l.tokens cs = ((runs onLine l cs).1, (runs onLine l cs).2.tokens) := by
  induction cs generalizing l with
  | nil => rfl
  | cons c cs ih =>
    rw [runs, onList_tokens, ih]
    rfl

theorem runs_inPlace_ofTokens (h : ts.length ≤ lineCapacity) (cs : List LineChange) :
    runs inPlace (.ofTokens ts) cs = ((runs onList ts cs).1, .ofTokens (runs onList ts cs).2) := by
  -- cells hold the list only as long as it fits, so the bound goes through the induction
  induction cs generalizing ts with
  | nil => rfl
  | cons c cs ih =>
    rw [runs, inPlace_ofTokens h, ih (length_onList h c)]
    rfl

theorem runs_inPlace_eq (cs : List LineChange) : runs inPlace .empty cs =
    ((runs onList [] cs).1, .ofTokens (runs onList [] cs).2) := by
  rw [← Slots.ofTokens_nil]
  exact runs_inPlace_ofTokens (Nat.zero_le _) cs

theorem length_runs_onList (h : ts.length ≤ lineCapacity) (cs : List LineChange) :
    (runs onList ts cs).2.length ≤ lineCapacity := by
  induction cs generalizing ts with
  | nil => exact h
  | cons c cs ih => exact ih (length_onList h c)

/-- Whatever is done to a line in place, starting with an empty one: the answers are those of a plain
list, its tokens fill the first cells, no more than there are, and nothing is behind them. So lines
differ only if their tokens do, and the cells are the slots of the bounded list of the same tokens. -/
theorem inPlace_acts_on_list (cs : List LineChange) :
    (runs inPlace .empty cs).1 = (runs onList [] cs).1 ∧
    (runs inPlace .empty cs).2.tokens = (runs onList [] cs).2 ∧
    (runs inPlace .empty cs).2.taken = (runs onList [] cs).2.length ∧
    (runs inPlace .empty cs).2.taken ≤ lineCapacity ∧
    (∀ i (hi : i < lineCapacity), (runs inPlace .empty cs).2.taken ≤ i →
      (runs inPlace .empty cs).2.cells[i] = .vacant) ∧
    (∀ ds, (runs inPlace .empty cs).2 = (runs inPlace .empty ds).2 ↔
      (runs inPlace .empty cs).2.tokens = (runs inPlace .empty ds).2.tokens) ∧
    (runs inPlace .empty cs).1 = (runs onLine .empty cs).1 ∧
    (runs inPlace .empty cs).2.tokens = (runs onLine .empty cs).2.tokens ∧
    (runs inPlace .empty cs).2.cells.toList = (runs onLine .empty cs).2.slots := by
  have hlength (ds : List LineChange) : (runs onList [] ds).2.length ≤ lineCapacity :=
    length_runs_onList (Nat.zero_le _) ds
  have htokens (ds : List LineChange) :
      (runs inPlace .empty ds).2.tokens = (runs onList [] ds).2 := by
    rw [runs_inPlace_eq, Slots.tokens_ofTokens (hlength ds)]
  have hanswers : (runs onList [] cs).1 = (runs onLine .empty cs).1 :=
    congrArg Prod.fst (runs_onList_tokens .empty cs)
  have hline : (runs onList [] cs).2 = (runs onLine .empty cs).2.tokens :=
    congrArg Prod.snd (runs_onList_tokens .empty cs)
  refine ⟨?answers, htokens cs, ?taken, ?bound, ?behind, ?equal, ?lineAnswers, ?lineTokens, ?slots⟩
  case answers => rw [runs_inPlace_eq]
  case taken => rw [runs_inPlace_eq, Slots.taken_ofTokens]
  case bound =>
    rw [runs_inPlace_eq, Slots.taken_ofTokens]
    exact hlength cs
  case behind =>
    intro i hi hbehind
    simp only [runs_inPlace_eq, Slots.taken_ofTokens] at hbehind ⊢
    rw [Slots.getElem_ofTokens, List.getElem?_eq_none hbehind, Option.getD_none]
  case equal =>
    intro ds
    refine ⟨congrArg Slots.tokens, fun hsame => ?_⟩
    rw [htokens, htokens] at hsame
    rw [runs_inPlace_eq cs, runs_inPlace_eq ds, hsame]
  case lineAnswers => rw [runs_inPlace_eq, hanswers]
  case lineTokens => rw [htokens, hline]
  case slots => rw [runs_inPlace_eq, hline, Slots.cells_ofTokens]

theorem vacant_after_full_line :
    (runs inPlace .empty (List.replicate 9 (push (.synthetic .wildcard)) ++ [erase 3])).2.taken = 7 ∧
    ∀ hi : 7 < lineCapacity, (runs inPlace .empty
      (List.replicate 9 (push (.synthetic .wildcard)) ++ [erase 3])).2.cells[7] = .vacant := by
  obtain ⟨-, -, htaken, -, hbehind, -⟩ := inPlace_acts_on_list
    (List.replicate 9 (push (.synthetic .wildcard)) ++ [erase 3])
  have hseven : (runs onList [] (List.replicate 9 (push (.synthetic .wildcard)) ++
      [erase 3])).2.length = 7 := by decide
  rw [hseven] at htaken
  exact ⟨htaken, fun hi => hbehind 7 hi (Nat.le_of_eq htaken)⟩

end LineChange

end PlatformRules
