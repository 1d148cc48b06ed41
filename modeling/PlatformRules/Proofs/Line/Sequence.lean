import PlatformRules.Line.Grammar

namespace PlatformRules

namespace Grammar

variable {source : List Char} {ts us : List Token}

def IsClosed (ts : List Token) : Prop :=
  ∃ us e, ts = us ++ [e] ∧ e.kind = .lineEnd ∧ ∀ t ∈ us, t.kind.isTerminator = false

def countSegment (source : List Char) (lines : Nat) (ts : List Token) :
    Except SequenceError Nat :=
  match checkSegment source ts with
  | .ok _ => .ok (lines + 1)
  | .error error => .error ⟨lines, error⟩

theorem checkSequence.close_reverse (ts : List Token) (lines : Nat) :
    close source ts.reverse lines = countSegment source lines ts := by
  rw [close, List.reverse_reverse]
  rfl

theorem checkSequence.go_pass (h : ∀ t ∈ us, t.kind.isTerminator = false) (more segment : List Token)
    (lines : Nat) : go source (us ++ more) segment lines =
      go source more (us.reverse ++ segment) lines := by
  induction us generalizing segment with
  | nil => rfl
  | cons t us ih =>
    obtain ⟨ht, hus⟩ := List.forall_mem_cons.1 h
    have hstep : go source (t :: (us ++ more)) segment lines =
        go source (us ++ more) (t :: segment) lines := by
      rw [go.eq_def]
      cases hkind : t.kind <;> simp_all [Token.Kind.isTerminator]
    rw [List.cons_append, hstep, ih hus, List.reverse_cons, List.append_assoc]
    rfl

theorem checkSequence.go_lineEnd {e : Token} (he : e.kind = .lineEnd) (more us : List Token)
    (lines : Nat) : go source (e :: more) us.reverse lines =
      countSegment source lines (us ++ [e]) >>= go source more [] := by
  have hclose : close source (e :: us.reverse) lines = countSegment source lines (us ++ [e]) := by
    rw [← close_reverse, List.reverse_concat]
  rw [go.eq_def]
  simp only [he, hclose]
  cases countSegment source lines (us ++ [e]) <;> rfl

theorem checkSequence.go_append (h : IsClosed ts) (more : List Token) (lines : Nat) :
    go source (ts ++ more) [] lines = countSegment source lines ts >>= go source more [] := by
  obtain ⟨us, e, rfl, he, hus⟩ := h
  rw [List.append_assoc, go_pass hus, List.append_nil]
  exact go_lineEnd he more us lines

theorem checkSequence_flatten {segments : List (List Token)} (h : ∀ ts ∈ segments, IsClosed ts) :
    checkSequence source segments.flatten = segments.foldlM (countSegment source) 0 := by
  have hgo (lines : Nat) : checkSequence.go source segments.flatten [] lines =
      segments.foldlM (countSegment source) lines := by
    induction segments generalizing lines with
    | nil => rfl
    | cons ts segments ih =>
      obtain ⟨hts, hrest⟩ := List.forall_mem_cons.1 h
      rw [List.flatten_cons, checkSequence.go_append hts, List.foldlM_cons]
      exact bind_congr (ih hrest)
  exact hgo 0

end Grammar

end PlatformRules
