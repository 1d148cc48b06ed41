import PlatformRules.Line.Segments
import PlatformRules.Proofs.Cuts
import PlatformRules.Proofs.Folds
import PlatformRules.Proofs.Line.Sequence

namespace PlatformRules

namespace Grammar

variable {source : List Char} {ts front seg : List Token} {n m k : Nat} {e : GrammarError}

def segments (ts : List Token) : List (List Token) :=
  cutBehind (fun t => t.kind == .lineEnd) (ts.takeWhile fun t => t.kind != .textEnd)

def Accepts (source : List Char) (ts : List Token) : Prop :=
  ∃ l : Line, l.tokens = ts ∧ l.check source = .ok ()

inductive Refuses (source : List Char) (ts : List Token) : GrammarError → Prop
  | overlong (h : lineCapacity < ts.length) : Refuses source ts (.unrecognizedOverload ts.length)
  | broken {l : Line} {e : GrammarError} (htokens : l.tokens = ts) (h : l.check source = .error e) :
      Refuses source ts e

theorem Accepts.length_le (h : Accepts source ts) : ts.length ≤ lineCapacity := by
  obtain ⟨l, rfl, -⟩ := h
  exact l.length_le

theorem checkSegment_of_length_le (h : ts.length ≤ lineCapacity) :
    checkSegment source ts = Line.check source ⟨ts, h⟩ := by
  rw [checkSegment, Line.ofList?, dif_pos h]

theorem checkSegment_of_lt_length (h : lineCapacity < ts.length) :
    checkSegment source ts = .error (.unrecognizedOverload ts.length) := by
  rw [checkSegment, Line.ofList?, dif_neg (Nat.not_le.2 h)]

theorem checkSegment_eq_ok_iff : checkSegment source ts = .ok () ↔ Accepts source ts := by
  constructor
  · intro h
    rcases Nat.lt_or_ge lineCapacity ts.length with hlt | hle
    · simp [checkSegment_of_lt_length hlt] at h
    · exact ⟨⟨ts, hle⟩, rfl, (checkSegment_of_length_le hle).symm.trans h⟩
  · rintro ⟨l, rfl, h⟩
    exact (checkSegment_of_length_le l.length_le).trans h

theorem checkSegment_eq_error_iff : checkSegment source ts = .error e ↔ Refuses source ts e := by
  constructor
  · intro h
    rcases Nat.lt_or_ge lineCapacity ts.length with hlt | hle
    · rw [checkSegment_of_lt_length hlt] at h
      exact Except.error.inj h ▸ .overlong hlt
    · exact .broken rfl ((checkSegment_of_length_le hle).symm.trans h)
  · rintro (h | ⟨rfl, h⟩)
    · exact checkSegment_of_lt_length h
    · exact (checkSegment_of_length_le (Line.length_le _)).trans h

/-! The fold over the segments -/

theorem countSegment_eq_ok_iff :
    countSegment source n ts = .ok m ↔ m = n + 1 ∧ Accepts source ts := by
  rw [countSegment, ← checkSegment_eq_ok_iff]
  cases checkSegment source ts <;> simp [eq_comm]

theorem countSegment_eq_error_iff :
    countSegment source n ts = .error ⟨k, e⟩ ↔ k = n ∧ Refuses source ts e := by
  rw [countSegment, ← checkSegment_eq_error_iff]
  cases checkSegment source ts <;> simp [eq_comm]

theorem foldlM_countSegment_eq_ok_iff {pieces : List (List Token)} :
    pieces.foldlM (countSegment source) n = .ok m ↔
      m = n + pieces.length ∧ ∀ p ∈ pieces, Accepts source p := by
  induction pieces generalizing n with
  | nil => simp [pure, Except.pure, eq_comm]
  | cons p pieces ih =>
    rw [List.foldlM_cons, List.forall_mem_cons]
    cases hp : countSegment source n p with
    | error e =>
      have hrefused : ¬ Accepts source p := by
        intro h
        rw [countSegment_eq_ok_iff.2 ⟨rfl, h⟩] at hp
        simp at hp
      simp [hrefused, bind, Except.bind]
    | ok k =>
      obtain ⟨rfl, haccepted⟩ := countSegment_eq_ok_iff.1 hp
      have hlength : n + 1 + pieces.length = n + (p :: pieces).length := by
        rw [List.length_cons]
        omega
      exact ih.trans (by rw [hlength, and_iff_right haccepted])

theorem foldlM_countSegment_eq_error_iff {pieces : List (List Token)} :
    pieces.foldlM (countSegment source) 0 = .error ⟨k, e⟩ ↔ ∃ before p after,
      pieces = before ++ p :: after ∧ before.length = k ∧ (∀ q ∈ before, Accepts source q) ∧
        Refuses source p e := by
  rw [foldlM_eq_error_iff]
  constructor
  · rintro ⟨before, p, after, m, hpieces, hbefore, hp⟩
    obtain ⟨rfl, haccepted⟩ := foldlM_countSegment_eq_ok_iff.1 hbefore
    obtain ⟨hk, hrefused⟩ := countSegment_eq_error_iff.1 hp
    exact ⟨before, p, after, hpieces, by omega, haccepted, hrefused⟩
  · rintro ⟨before, p, after, hpieces, rfl, haccepted, hrefused⟩
    exact ⟨before, p, after, _, hpieces, foldlM_countSegment_eq_ok_iff.2 ⟨rfl, haccepted⟩,
      countSegment_eq_error_iff.2 ⟨by omega, hrefused⟩⟩

theorem checkSequence.go_open {t : Token} (hline : t.kind ≠ .lineEnd) (htext : t.kind ≠ .textEnd)
    (ts seg : List Token) (n : Nat) :
    go source (t :: ts) seg.reverse n = go source ts (seg ++ [t]).reverse n := by
  have hkind : ∀ t' ∈ [t], t'.kind.isTerminator = false := by simp [Token.Kind.isTerminator]
  rw [List.reverse_append]
  exact go_pass hkind ts seg.reverse n

theorem checkSequence.last_eq (hopen : ∀ t ∈ seg, t.kind ≠ .lineEnd) (n : Nat) :
    (if seg.reverse = [] then .ok n else close source seg.reverse n) =
      (cutBehind (fun t => t.kind == .lineEnd) seg).foldlM (countSegment source) n := by
  by_cases hnil : seg = []
  · subst hnil
    rfl
  · have hcut : cutBehind (fun t => t.kind == .lineEnd) seg = [seg] :=
      cutBehind_of_open (fun t ht => by simpa using hopen t (List.dropLast_subset seg ht)) hnil
    rw [if_neg (by simpa using hnil), close_reverse, hcut]
    exact (bind_pure (countSegment source n seg)).symm

theorem checkSequence.go_eq_foldlM (seg : List Token) (hopen : ∀ t ∈ seg, t.kind ≠ .lineEnd)
    (ts : List Token) (n : Nat) : go source ts seg.reverse n =
      (cutBehind (fun t => t.kind == .lineEnd)
        (seg ++ ts.takeWhile fun t => t.kind != .textEnd)).foldlM (countSegment source) n := by
  induction ts generalizing seg n with
  | nil =>
    rw [List.takeWhile_nil, List.append_nil]
    exact last_eq hopen n
  | cons t ts ih =>
    by_cases htext : t.kind = .textEnd
    · rw [List.takeWhile_cons_of_neg (by simp [htext]), List.append_nil, go.eq_def]
      simp only [htext]
      exact last_eq hopen n
    rw [List.takeWhile_cons_of_pos (by simp [htext])]
    by_cases hline : t.kind = .lineEnd
    · rw [go_lineEnd hline, cutBehind_append_cons (by simpa using hopen) (by simp [hline]),
        List.foldlM_cons]
      exact bind_congr (ih [] (by simp))
    · have hopen' : ∀ t' ∈ seg ++ [t], t'.kind ≠ .lineEnd := by
        simpa [hline, or_imp, forall_and] using hopen
      rw [go_open hline htext, ih _ hopen', List.append_assoc, List.singleton_append]

theorem checkSequence_eq_foldlM (source : List Char) (ts : List Token) :
    checkSequence source ts = (segments ts).foldlM (countSegment source) 0 :=
  checkSequence.go_eq_foldlM [] (by simp) ts 0

/-! Going through the tokens by place -/

namespace Checked

theorem upTo_eq (front seg more : List Token) (n : Nat) :
    upTo source (front ++ seg ++ more) ⟨n, front.length⟩ (front ++ seg).length =
      (countSegment source n seg).map fun m => ⟨m, (front ++ seg).length⟩ := by
  have hextract : (front ++ seg ++ more).extract front.length (front ++ seg).length = seg := by
    simp [List.append_assoc]
  rw [upTo, hextract, countSegment]
  cases checkSegment source seg <;> rfl

theorem findIdx_textEnd (h : ∀ t ∈ front, t.kind ≠ .textEnd) {more : List Token}
    (hmore : ∀ t ∈ more.head?, t.kind = .textEnd) :
    (front ++ more).findIdx (fun t => t.kind == .textEnd) = front.length := by
  have hfront : front.findIdx (fun t => t.kind == .textEnd) = front.length :=
    List.findIdx_eq_length_of_false (by simpa using h)
  rw [List.findIdx_append, if_neg (by omega)]
  cases more with
  | nil => simp
  | cons t more => simp [List.findIdx_cons, hmore t rfl]

theorem lines_toEnd (h : ∀ t ∈ front ++ seg, t.kind ≠ .textEnd) {more : List Token}
    (hmore : ∀ t ∈ more.head?, t.kind = .textEnd) (n : Nat) :
    lines <$> toEnd source (front ++ seg ++ more) ⟨n, front.length⟩ =
      if seg.reverse = [] then .ok n else checkSequence.close source seg.reverse n := by
  have hstop := findIdx_textEnd h hmore
  rw [toEnd, hstop, upTo_eq, checkSequence.close_reverse]
  by_cases hnil : seg = []
  · simp [hnil]
  · have hlt : front.length < (front ++ seg).length := by
      have := List.length_pos_iff.2 hnil
      rw [List.length_append]
      omega
    rw [if_pos hlt, if_neg (by simpa using hnil)]
    cases countSegment source n seg <;> rfl

theorem lines_throughEnds (front seg : List Token) (h : ∀ t ∈ front ++ seg, t.kind ≠ .textEnd)
    (rest : List Token) (n : Nat) :
    let ts := front ++ seg ++ rest
    (throughEnds source ts (rest.zipIdx (front ++ seg).length) ⟨n, front.length⟩ >>=
      fun c => lines <$> c.toEnd source ts) = checkSequence.go source rest seg.reverse n := by
  intro ts
  induction rest generalizing front seg n with
  | nil => exact lines_toEnd h (by simp) n
  | cons t rest ih =>
    by_cases htext : t.kind = .textEnd
    · rw [List.zipIdx_cons, throughEnds, checkSequence.go.eq_def]
      simp only [htext]
      exact lines_toEnd h (by simpa using htext) n
    have hts : ts = front ++ (seg ++ [t]) ++ rest := by simp [ts]
    have hlength : (front ++ seg).length + 1 = (front ++ (seg ++ [t])).length := by
      simp only [List.length_append, List.length_singleton, Nat.add_assoc]
    have hpassed : ∀ t' ∈ front ++ (seg ++ [t]), t'.kind ≠ .textEnd := by
      rw [← List.append_assoc, List.forall_mem_append]
      exact ⟨h, by simpa using htext⟩
    rw [List.zipIdx_cons, hlength, hts, throughEnds.eq_def]
    by_cases hline : t.kind = .lineEnd
    · simp only [hline]
      rw [hlength, upTo_eq, checkSequence.go_lineEnd hline]
      cases countSegment source n (seg ++ [t]) with
      | error e => rfl
      | ok m =>
        -- The next line starts behind `t`, and nothing of it is passed.
        have hnext := ih (front ++ (seg ++ [t])) [] (by rwa [List.append_nil]) m
        rw [List.append_nil] at hnext
        exact hnext
    · rw [checkSequence.go_open hline htext]
      simp only
      exact ih front (seg ++ [t]) hpassed n

end Checked

theorem checkInPlace_eq_checkSequence (source : List Char) (ts : List Token) :
    checkInPlace source ts = checkSequence source ts :=
  Checked.lines_throughEnds [] [] (by simp) ts 0

theorem segments_append_textEnd {t : Token} (ht : t.kind = .textEnd) (ts more : List Token) :
    segments (ts ++ t :: more) = segments ts := by
  unfold segments
  rw [List.takeWhile_append, List.takeWhile_cons_of_neg (by simp [ht]), List.append_nil]
  split
  · next hlength => rw [(List.takeWhile_prefix _).eq_of_length hlength]
  · rfl

/-- The tokens are checked in place as their segments are checked one by one. If each segment makes
a line that is accepted, then the segments are counted; the first one that does not gives the error.
What follows the end of the text has no influence. -/
theorem checkInPlace_segments (source : List Char) (ts : List Token) :
    (∀ n, checkInPlace source ts = .ok n ↔ n = (segments ts).length ∧
      ∀ p ∈ segments ts, p.length ≤ lineCapacity ∧ Accepts source p) ∧
    (∀ k e, checkInPlace source ts = .error ⟨k, e⟩ ↔ ∃ before p after,
      segments ts = before ++ p :: after ∧ before.length = k ∧
        (∀ q ∈ before, q.length ≤ lineCapacity ∧ Accepts source q) ∧ Refuses source p e) ∧
    ∀ t more, t.kind = .textEnd → segments (ts ++ t :: more) = segments ts ∧
      checkInPlace source (ts ++ t :: more) = checkInPlace source ts := by
  have hfold (ts : List Token) :
      checkInPlace source ts = (segments ts).foldlM (countSegment source) 0 := by
    rw [checkInPlace_eq_checkSequence, checkSequence_eq_foldlM]
  have hfits (p : List Token) : p.length ≤ lineCapacity ∧ Accepts source p ↔ Accepts source p :=
    and_iff_right_of_imp Accepts.length_le
  simp only [hfits]
  refine ⟨fun n => ?_, fun k e => ?_, fun t more ht => ?_⟩
  · rw [hfold, foldlM_countSegment_eq_ok_iff, Nat.zero_add]
  · rw [hfold, foldlM_countSegment_eq_error_iff]
  · have hsame := segments_append_textEnd ht ts more
    exact ⟨hsame, by rw [hfold, hfold, hsame]⟩

theorem checkInPlace_segments_overlong :
    let t : Token := .synthetic .commentText
    let ts := .synthetic .lineEnd :: List.replicate 9 t
    checkInPlace [] (ts ++ .synthetic .textEnd :: [t]) = .error ⟨1, .unrecognizedOverload 9⟩ := by
  intro t ts
  obtain ⟨-, herror, hcut⟩ := checkInPlace_segments [] ts
  rw [(hcut _ [t] rfl).2, herror]
  refine ⟨[[.synthetic .lineEnd]], List.replicate 9 t, [], by decide, rfl, ?first, ?second⟩
  case first =>
    intro q hq
    obtain rfl := List.mem_singleton.1 hq
    exact ⟨by decide, ⟨_, by decide⟩, rfl, rfl⟩
  case second => exact .overlong (by decide)

end Grammar

end PlatformRules
