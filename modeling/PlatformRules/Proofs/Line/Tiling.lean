import PlatformRules.Proofs.Line.Staged

namespace PlatformRules

open Text

namespace StandsAt

variable {a b : List Char} {c : Char} {k : Nat}

theorem append_left (a : List Char) {part : List Char} (h : StandsAt b k part) :
    StandsAt (a ++ b) (byteLength a + k) part := by
  obtain ⟨front, back, rfl, rfl⟩ := h
  exact ⟨a ++ front, back, by simp, byteLength_append a front⟩

theorem append_cases (h : StandsAt (a ++ b) k [c]) :
    StandsAt a k [c] ∨ ∃ j, k = byteLength a + j ∧ StandsAt b j [c] := by
  obtain ⟨front, back, htext, rfl⟩ := h
  rw [List.append_assoc, List.singleton_append] at htext
  rcases List.append_eq_append_iff.1 htext with ⟨more, rfl, hb⟩ | ⟨more, rfl, hback⟩
  · exact .inr ⟨byteLength more, byteLength_append a more, more, back, by simp [hb], rfl⟩
  · cases more with
    | nil => exact .inr ⟨0, by simp, [], back, hback.symm, rfl⟩
    | cons d more =>
      obtain ⟨rfl, rfl⟩ := List.cons.inj hback
      exact .inl ⟨front, more, by simp, rfl⟩

theorem mem (h : StandsAt a k [c]) : c ∈ a := by
  obtain ⟨front, back, rfl, -⟩ := h
  simp

theorem lt_byteLength (h : StandsAt a k [c]) : k < byteLength a := by
  obtain ⟨front, back, rfl, rfl⟩ := h
  have := c.utf8Size_pos
  simp only [byteLength_append, byteLength_cons]
  omega

end StandsAt

inductive Tiles : Nat → List Char → List Token → Prop
  | nil {start : Nat} : Tiles start [] []
  | blanks {start : Nat} {g cs : List Char} {ts : List Token} (hg : IsBlankRun g)
      (h : Tiles (start + byteLength g) cs ts) : Tiles start (g ++ cs) ts
  | token {start : Nat} {kind : Token.Kind} {part cs : List Char} {ts : List Token}
      (h : Tiles (start + byteLength part) cs ts) :
      Tiles start (part ++ cs) (⟨kind, some ⟨start, start + byteLength part⟩⟩ :: ts)
  | value {start : Nat} {part cs : List Char} {ts : List Token}
      (h : Tiles (start + 1 + byteLength part + 1) cs ts) :
      Tiles start (['"'] ++ (part ++ (['"'] ++ cs)))
        (⟨.value, some ⟨start + 1, start + 1 + byteLength part⟩⟩ :: ts)

namespace Token

def IsPartOf (start : Nat) (cs : List Char) (t : Token) : Prop :=
  ∃ k part, StandsAt cs k part ∧ t.range = some ⟨start + k, start + k + byteLength part⟩

def EndsBefore (t u : Token) : Prop :=
  ∀ r ∈ t.range, ∀ q ∈ u.range, r.stop ≤ q.start

def Covers (t : Token) (offset : Nat) : Prop :=
  ∃ r ∈ t.range, r.start ≤ offset ∧ offset < r.stop

def IsQuotedBy (t : Token) (offset : Nat) : Prop :=
  t.kind = .value ∧ ∃ r ∈ t.range, r.start = offset + 1 ∨ r.stop = offset

theorem IsPartOf.append {start : Nat} {cs : List Char} {t : Token} (a : List Char)
    (h : t.IsPartOf (start + byteLength a) cs) : t.IsPartOf start (a ++ cs) := by
  obtain ⟨k, part, hstands, hrange⟩ := h
  exact ⟨byteLength a + k, part, hstands.append_left a, by rw [hrange, Nat.add_assoc]⟩

end Token

namespace Tiles

variable {start : Nat} {cs : List Char} {ts : List Token}

theorem isPartOf (h : Tiles start cs ts) : ∀ t ∈ ts, t.IsPartOf start cs := by
  induction h with
  | nil => simp
  | blanks hg _ ih => exact fun t ht => (ih t ht).append _
  | @token start kind part cs ts _ ih =>
    rw [List.forall_mem_cons]
    refine ⟨⟨0, part, ⟨[], cs, rfl, rfl⟩, rfl⟩, fun t ht => (ih t ht).append _⟩
  | @value start part cs ts _ ih =>
    have hquote : byteLength ['"'] = 1 := by decide
    rw [List.forall_mem_cons]
    refine ⟨⟨1, part, ⟨['"'], ['"'] ++ cs, by simp, hquote⟩, rfl⟩, fun t ht => ?_⟩
    exact (((ih t ht).append ['"']).append part).append ['"']

theorem le_start (h : Tiles start cs ts) : ∀ t ∈ ts, ∀ r ∈ t.range, start ≤ r.start := by
  intro t ht r hr
  obtain ⟨k, part, -, hrange⟩ := h.isPartOf t ht
  obtain rfl := Option.some.inj (hrange.symm.trans hr)
  exact Nat.le_add_right start k

theorem pairwise_endsBefore (h : Tiles start cs ts) : ts.Pairwise Token.EndsBefore := by
  induction h with
  | nil => exact .nil
  | blanks _ _ ih => exact ih
  | token h ih =>
    refine .cons (fun u hu r hr q hq => ?_) ih
    obtain rfl := Option.some.inj hr
    exact h.le_start u hu q hq
  | value h ih =>
    refine .cons (fun u hu r hr q hq => ?_) ih
    obtain rfl := Option.some.inj hr
    exact Nat.le_of_succ_le (h.le_start u hu q hq)

def Explains (ts : List Token) (offset : Nat) (c : Char) : Prop :=
  isBlank c = true ∨ (∃ t ∈ ts, t.Covers offset) ∨ c = '"' ∧ ∃ t ∈ ts, t.IsQuotedBy offset

theorem Explains.cons {offset : Nat} {c : Char} (h : Explains ts offset c) (t : Token) :
    Explains (t :: ts) offset c := by
  rcases h with hblank | ⟨u, hu, hcovers⟩ | ⟨rfl, u, hu, hquoted⟩
  · exact .inl hblank
  · exact .inr (.inl ⟨u, List.mem_cons_of_mem t hu, hcovers⟩)
  · exact .inr (.inr ⟨rfl, u, List.mem_cons_of_mem t hu, hquoted⟩)

theorem explains (h : Tiles start cs ts) {k : Nat} {c : Char} (hc : StandsAt cs k [c]) :
    Explains ts (start + k) c := by
  -- the character stands in the first piece of the text, or is explained by the pieces behind it
  induction h generalizing k with
  | nil => simpa using hc.mem
  | blanks hg _ ih =>
    rcases hc.append_cases with hblank | ⟨j, rfl, hrest⟩
    · exact .inl (hg c hblank.mem)
    · rw [← Nat.add_assoc]
      exact ih hrest
  | token _ ih =>
    rcases hc.append_cases with hpart | ⟨j, rfl, hrest⟩
    · have hlt := hpart.lt_byteLength
      refine .inr (.inl ⟨_, List.mem_cons_self, _, rfl, Nat.le_add_right .., ?_⟩)
      exact Nat.add_lt_add_left hlt _
    · rw [← Nat.add_assoc]
      exact (ih hrest).cons _
  | @value start part cs ts _ ih =>
    have hquote : byteLength ['"'] = 1 := by decide
    have quote {j : Nat} (hj : StandsAt ['"'] j [c]) : j = 0 ∧ c = '"' := by
      have hlt := hj.lt_byteLength
      exact ⟨by omega, List.mem_singleton.1 hj.mem⟩
    rcases hc.append_cases with hopen | ⟨j, rfl, hinside⟩
    · obtain ⟨rfl, rfl⟩ := quote hopen
      exact .inr (.inr ⟨rfl, _, List.mem_cons_self, rfl, _, rfl, .inl rfl⟩)
    rcases hinside.append_cases with hpart | ⟨i, rfl, hclose⟩
    · have hlt := hpart.lt_byteLength
      refine .inr (.inl ⟨_, List.mem_cons_self, _, rfl, ?_, ?_⟩) <;> simp only [hquote] <;> omega
    rcases hclose.append_cases with hlast | ⟨m, rfl, hrest⟩
    · obtain ⟨rfl, rfl⟩ := quote hlast
      refine .inr (.inr ⟨rfl, _, List.mem_cons_self, rfl, _, rfl, .inr ?_⟩)
      simp only [hquote]
      omega
    · have hoffset : start + (byteLength ['"'] + (byteLength part + (byteLength ['"'] + m))) =
          start + 1 + byteLength part + 1 + m := by
        rw [hquote]
        omega
      rw [hoffset]
      exact (ih hrest).cons _

end Tiles

namespace Scan

variable (start : Nat) (kind : Token.Kind) (cs : List Char)

theorem tiles_of_blanks {start : Nat} {g : List Char} (hg : IsBlankRun g) : Tiles start g [] := by
  have htiles : Tiles start (g ++ []) [] := .blanks hg .nil
  rwa [List.append_nil] at htiles

theorem tiles_trimmedPiece : Tiles start cs [(trimmedPiece kind start cs).token] := by
  obtain ⟨g, hg, hcs⟩ := exists_trimEnd_append cs
  have htiles : Tiles start (trimEnd cs ++ g) [(trimmedPiece kind start cs).token] :=
    .token (tiles_of_blanks hg)
  rwa [hcs] at htiles

theorem tiles_remainder : Tiles start cs [(remainder kind start cs).token] := by
  have htiles : Tiles start (cs.takeWhile isBlank ++ trimStart cs)
      [(remainder kind start cs).token] :=
    .blanks (isBlankRun_takeWhile cs) (tiles_trimmedPiece _ kind (trimStart cs))
  rwa [takeWhile_trimStart] at htiles

theorem tiles_value : Tiles start ('"' :: cs) ((value start cs).map (·.token)) := by
  rcases not_mem_or_eq_append_quote cs with hq | ⟨inside, after, rfl, hq⟩
  · rw [value, dropWhile_reverse_of_not_mem hq]
    exact tiles_trimmedPiece start .undefined ('"' :: cs)
  · rw [value, dropWhile_reverse_quote hq]
    simp only [takeWhile_reverse_quote hq, List.reverse_reverse, List.map_cons]
    have hafter (here : Nat) : Tiles here after ((if trimStart after = [] then []
        else [remainder .undefined here after]).map (·.token)) := by
      split
      · next hblank => exact tiles_of_blanks (trimStart_eq_nil_iff.1 hblank)
      · exact tiles_remainder _ .undefined after
    exact .value (hafter _)

theorem exists_tiles_fields (done : List Piece) :
    ∃ ps, fields start cs done = done.reverse ++ ps ∧ Tiles start cs (ps.map (·.token)) := by
  -- `done` is behind the scanner already; only what is put behind it lies in `cs`
  fun_induction fields start cs done with
  | case1 start cs done hcs =>
    exact ⟨[], (List.append_nil _).symm, tiles_of_blanks (trimStart_eq_nil_iff.1 hcs)⟩
  | case2 start cs done begin rest hcs =>
    refine ⟨value begin rest, rfl, ?_⟩
    rw [← takeWhile_trimStart cs, hcs]
    exact .blanks (isBlankRun_takeWhile cs) (tiles_value begin rest)
  | case3 start cs done begin c rest hcs hc word next ih =>
    obtain ⟨ps, hps, htiles⟩ := ih
    refine ⟨next :: ps, by rw [hps]; simp, ?_⟩
    have hword : c :: rest = word ++ rest.dropWhile (!isBlank ·) := by simp [word]
    rw [← takeWhile_trimStart cs, hcs, hword]
    exact .blanks (isBlankRun_takeWhile cs) (.token htiles)

theorem tiles_body : Tiles start cs ((body start cs).map (·.token)) := by
  cases cs with
  | nil => exact .nil
  | cons c rest =>
    have hrest : rest.takeWhile (!isBlank ·) ++ rest.dropWhile (!isBlank ·) = rest :=
      List.takeWhile_append_dropWhile
    by_cases hcomment : c = '#'
    · subst hcomment
      rw [body, if_pos rfl]
      change Tiles start (['#'] ++ rest) _
      exact .token (tiles_remainder _ .commentText rest)
    · by_cases haction : c = '@'
      · subst haction
        rw [body, if_neg hcomment, if_pos rfl]
        let word := rest.takeWhile (!isBlank ·)
        let after := rest.dropWhile (!isBlank ·)
        let name := piece .actionName (start + 1) word
        have hname : Tiles (start + 1) (word ++ after)
            [name.token, (remainder .actionArgument name.resume after).token] :=
          .token (tiles_remainder _ .actionArgument after)
        rw [hrest] at hname
        change Tiles start (['@'] ++ rest) _
        exact .token hname
      · let word := c :: rest.takeWhile (!isBlank ·)
        obtain ⟨ps, hps, htiles⟩ := exists_tiles_fields (start + byteLength word)
          (rest.dropWhile (!isBlank ·)) [piece (.ofOperatorWord word) start word]
        have hfields : body start (c :: rest) = piece (.ofOperatorWord word) start word :: ps := by
          rw [body, if_neg hcomment, if_neg haction]
          exact hps
        have hword : c :: rest = word ++ rest.dropWhile (!isBlank ·) := by simp [word]
        rw [hfields, hword]
        exact .token htiles

theorem exists_tiles_line : ∃ ts, (line start cs).map (·.token) = ts ++ [.synthetic .lineEnd] ∧
    Tiles start cs ts := by
  refine ⟨_, by rw [line, List.map_append]; rfl, ?_⟩
  have htiles : Tiles start (cs.takeWhile isBlank ++ trimStart cs) _ :=
    .blanks (isBlankRun_takeWhile cs) (tiles_body _ (trimStart cs))
  rwa [takeWhile_trimStart] at htiles

end Scan

end PlatformRules
