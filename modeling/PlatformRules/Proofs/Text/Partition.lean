import PlatformRules.Proofs.Text.Cursor

namespace PlatformRules

open Text

structure EndedLine where
  line : List Char
  ending : List Char

namespace EndedLine

def whole (p : EndedLine) : List Char :=
  p.line ++ p.ending

structure Ends (front : List Char) (p : EndedLine) (last : Bool) : Prop where
  endsLine : EndsLine p.line p.ending last
  return_iff : '\r' ∈ p.ending ↔
    (front ++ p.whole.takeWhile (· ≠ '\n')).getLast? = some '\r'

variable {cs front : List Char} {p : EndedLine} {last : Bool}

theorem getLast?_eq_return_iff (h : cs.getLast? = some '\n') (ds : List Char) :
    (cs ++ ds).getLast? = some '\r' ↔ ds.getLast? = some '\r' := by
  rw [List.getLast?_append, h]
  cases ds.getLast? <;> simp

theorem Ends.behind (h : p.Ends front last) (hcs : cs.getLast? = some '\n') :
    p.Ends (cs ++ front) last where
  endsLine := h.endsLine
  return_iff := by
    rw [List.append_assoc, getLast?_eq_return_iff hcs]
    exact h.return_iff

theorem exists_ends (h : '\n' ∉ cs) {feed : List Char}
    (hfeed : feed = ['\n'] ∨ feed = [] ∧ last = true) :
    ∃ p : EndedLine, p.whole = cs ++ feed ∧ p.line = withoutReturn cs ∧ p.Ends [] last := by
  obtain ⟨back, hwhole, hends, hreturn⟩ := exists_endsLine h hfeed
  have hbody : (cs ++ feed).takeWhile (· ≠ '\n') = cs := by
    apply takeWhile_append_stop
    · intro c hc
      simpa using ne_of_mem_of_not_mem hc h
    · rcases hfeed with rfl | ⟨rfl, -⟩ <;> simp
  refine ⟨⟨withoutReturn cs, back⟩, hwhole.symm, rfl, hends, ?_⟩
  rw [List.nil_append, whole, ← hwhole, hbody, hreturn]

end EndedLine

open EndedLine (whole)

/-- The lines with their endings make up the text. Only the last one may do without a line feed, and
no empty line stands behind the last line feed. -/
structure Partitions (text : List Char) (ps : List EndedLine) : Prop where
  flatMap_whole : ps.flatMap whole = text
  ends : ∀ before p after, ps = before ++ p :: after →
    p.Ends (before.flatMap whole) after.isEmpty
  length_eq : ps.length = text.count '\n' + if IsWhole text then 0 else 1

namespace Partitions

variable {cs ds : List Char} {p : EndedLine} {ps : List EndedLine}

theorem nil : Partitions [] [] where
  flatMap_whole := rfl
  ends := by simp
  length_eq := by simp [IsWhole]

theorem singleton (h : '\n' ∉ cs) (hne : cs ≠ []) (hwhole : p.whole = cs) (hp : p.Ends [] true) :
    Partitions cs [p] where
  flatMap_whole := by simpa using hwhole
  ends := by
    intro before q after hcut
    rcases before with _ | ⟨r, before⟩
    · obtain ⟨rfl, rfl⟩ := List.cons.inj hcut
      exact hp
    · simp at hcut
  length_eq := by
    have hwhole : ¬ IsWhole cs := by
      rintro (hnil | hlast)
      · exact hne hnil
      · exact h (List.mem_of_getLast? hlast)
    rw [if_neg hwhole, List.count_eq_zero.2 h]
    rfl

theorem cons (h : '\n' ∉ cs) (hwhole : p.whole = cs ++ ['\n']) (hp : p.Ends [] ps.isEmpty)
    (hps : Partitions ds ps) : Partitions (cs ++ '\n' :: ds) (p :: ps) where
  flatMap_whole := by rw [List.flatMap_cons, hwhole, hps.flatMap_whole]; simp
  ends := by
    intro before q after hcut
    rcases before with _ | ⟨r, before⟩
    · obtain ⟨rfl, rfl⟩ := List.cons.inj hcut
      exact hp
    · obtain ⟨rfl, rfl⟩ := List.cons.inj hcut
      rw [List.flatMap_cons, hwhole]
      exact (hps.ends before q after rfl).behind (by simp)
  length_eq := by
    have hsame : IsWhole (cs ++ '\n' :: ds) ↔ IsWhole ds := by
      cases ds <;> simp [IsWhole]
    have hcount : (cs ++ '\n' :: ds).count '\n' = ds.count '\n' + 1 := by
      simp [List.count_eq_zero.2 h]
    rw [List.length_cons, hps.length_eq, hcount, if_congr hsame rfl rfl]
    omega

end Partitions

theorem exists_partitions (number offset : Nat) (text : List Char) : ∃ ps, Partitions text ps ∧
    (linesFrom number offset text []).map (·.text) = ps.map (·.line) := by
  induction text using induction_on_lines generalizing number offset with
  | nil => exact ⟨[], .nil, rfl⟩
  | last cs h hne =>
    obtain ⟨p, hwhole, hline, hp⟩ := EndedLine.exists_ends h (.inr ⟨rfl, rfl⟩)
    rw [List.append_nil] at hwhole
    refine ⟨[p], .singleton h hne hwhole hp, ?_⟩
    rw [linesFrom_of_not_mem _ _ h hne, List.map_singleton, List.map_singleton, hline]
  | line cs ds h ih =>
    obtain ⟨ps, hps, htexts⟩ := ih (number + 1) (offset + byteLength cs + 1)
    obtain ⟨p, hwhole, hline, hp⟩ := EndedLine.exists_ends h (.inl rfl)
    refine ⟨p :: ps, .cons h hwhole hp hps, ?_⟩
    rw [linesFrom_line _ _ h, List.map_cons, List.map_cons, htexts, hline]

def SourceLine.range (l : SourceLine) : ByteRange :=
  ⟨l.offset, l.offset + l.length⟩

theorem SourceLine.slice_range {text : List Char} {l : SourceLine} (h : l ∈ lines text) :
    l.range.slice text = l.text :=
  (standsIn_lines l h).standsAt.slice

namespace MarkedPair

variable {α : Type}

def handle? (c : MarkedPair) (r : ByteRange) :
    Option (Buffer → α × Buffer) → Option MarkedPair
  | none => some c
  | some scan => do
    let (_, d) ← c.step? (.stage r)
    let (_, e) ← (d.run scan).2.step? .swap
    return e

inductive ReadsLines (work : ByteRange → Option (Buffer → α × Buffer)) :
    MarkedPair → List ByteRange → Prop
  | done {c d : MarkedPair} (h : c.step? (.reading .line) = some (.range none, d)) :
      ReadsLines work c []
  | line {c d e : MarkedPair} {r : ByteRange} {rs : List ByteRange}
      (h : c.step? (.reading .line) = some (.range (some r), d))
      (hwork : d.handle? r (work r) = some e) (hrest : ReadsLines work e rs) :
      ReadsLines work c (r :: rs)

variable {work : ByteRange → Option (Buffer → α × Buffer)} {b s : Buffer}

theorem step?_line (b s : Buffer) : (ofCursor ⟨b, s, .primary⟩).step? (.reading .line) =
    some (.range b.readLine?.1, ofCursor ⟨b.readLine?.2, s, .primary⟩) :=
  step?_ofCursor _ _

theorem exists_handle? (b s : Buffer) (r : ByteRange) (scan : Option (Buffer → α × Buffer)) :
    ∃ s', (ofCursor ⟨b, s, .primary⟩).handle? r scan = some (ofCursor ⟨b, s', .primary⟩) := by
  cases scan with
  | none => exact ⟨s, rfl⟩
  | some scan =>
    refine ⟨(scan (.ofText (r.slice b.text))).2, ?_⟩
    rw [handle?, step?_ofCursor, Option.bind_eq_bind, Option.bind_some]
    simp only [run_ofCursor, step?_ofCursor, Option.bind_some]
    rfl

theorem readsLines_at_end (hrest : b.rest = []) (rs : List ByteRange) :
    ReadsLines work (ofCursor ⟨b, s, .primary⟩) rs ↔ rs = [] := by
  have hstep := step?_line b s
  have hread : b.readLine?.1 = none := by simp [Buffer.readLine?, Buffer.atEnd, hrest]
  rw [hread] at hstep
  constructor
  · intro h
    cases h with
    | done => rfl
    | line h => simp [hstep] at h
  · rintro rfl
    exact .done hstep

theorem readsLines_at_line (work : ByteRange → Option (Buffer → α × Buffer)) (hrest : b.rest ≠ [])
    (s : Buffer) : ∃ s', ∀ rs, ReadsLines work (ofCursor ⟨b, s, .primary⟩) rs ↔ ∃ rs',
      rs = ⟨b.position, b.position + byteLength b.lineRest⟩ :: rs' ∧
        ReadsLines work (ofCursor ⟨b.readLine?.2, s', .primary⟩) rs' := by
  have hstep := step?_line b s
  have hread : b.readLine?.1 = some ⟨b.position, b.position + byteLength b.lineRest⟩ := by
    simp [Buffer.readLine?, Buffer.atEnd, hrest]
  rw [hread] at hstep
  obtain ⟨s', hwork⟩ := exists_handle? b.readLine?.2 s
    ⟨b.position, b.position + byteLength b.lineRest⟩ (work _)
  refine ⟨s', fun rs => ?_⟩
  constructor
  · intro h
    cases h with
    | done h => simp [hstep] at h
    | line h hwork' hrest' =>
      cases hstep.symm.trans h
      obtain rfl := Option.some.inj (hwork.symm.trans hwork')
      exact ⟨_, rfl, hrest'⟩
  · rintro ⟨rs', rfl, hrest'⟩
    exact .line hstep hwork hrest'

theorem readsLines_iff (number : Nat) (rs : List ByteRange) :
    ReadsLines work (ofCursor ⟨b, s, .primary⟩) rs ↔
      rs = (linesFrom number b.position b.rest []).map (·.range) := by
  generalize hlength : b.rest.length = length
  induction length using Nat.strong_induction_on generalizing b s number rs with
  | _ length ih =>
    by_cases hrest : b.rest = []
    · rw [readsLines_at_end hrest, hrest]
      rfl
    · obtain ⟨s', hlines⟩ := readsLines_at_line work hrest s
      have hshorter : b.readLine?.2.rest.length < length := by
        have := List.length_pos_iff.2 hrest
        rw [Buffer.readLine?_snd, Buffer.rest_advance, List.length_drop]
        omega
      have hmore (rs : List ByteRange) := ih _ hshorter (s := s') (number + 1) rs rfl
      rw [hlines, Buffer.linesFrom_eq_cons number hrest, List.map_cons]
      simp only [hmore, exists_eq_right]
      rfl

/-- A text is read to its end, and the ranges are those of the lines that checking and evaluating go
through, whatever is done with copies of the lines. The ranges leave out the endings and nothing
else. -/
theorem readsLines_partitions (text : List Char) (work : ByteRange → Option (Buffer → α × Buffer)) :
    let ranges := (lines text).map (·.range)
    (∀ rs, ReadsLines work (ofText text) rs ↔ rs = ranges) ∧
    ∃ ps, Partitions text ps ∧ ranges.map (·.slice text) = ps.map (·.line) ∧
      (lines text).map (·.text) = ps.map (·.line) := by
  intro ranges
  refine ⟨fun rs => readsLines_iff 1 rs (b := .ofText text) (s := .ofText []), ?_⟩
  obtain ⟨ps, hps, htexts⟩ := exists_partitions 1 0 text
  refine ⟨ps, hps, ?_, htexts⟩
  rw [List.map_map, ← htexts]
  exact List.map_congr_left fun l hl => SourceLine.slice_range hl

theorem readsLines_partitions_returns :
    let text := "a\r\r\n\n\r".toList
    let work (r : ByteRange) := if (r.slice text).all isBlank then none else some Buffer.scanLine
    ReadsLines work (ofText text) [⟨0, 2⟩, ⟨4, 4⟩, ⟨5, 5⟩] := by
  intro text work
  exact ((readsLines_partitions text work).1 _).2 (by decide)

end MarkedPair

end PlatformRules
