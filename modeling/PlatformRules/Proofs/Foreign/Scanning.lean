import PlatformRules.Proofs.Foreign.Lines
import PlatformRules.Proofs.Line.Extents
import PlatformRules.Proofs.Line.Staged
import PlatformRules.Proofs.Text.Encoding

namespace PlatformRules

open Text

theorem Lexeme.eq_lineEnd_of_mem_ofLine {cs : List Char} {k : Token.Kind}
    (h : synthetic k ∈ ofLine cs) : k = .lineEnd := by
  rw [ofLine, List.mem_append, List.mem_singleton] at h
  rcases h with h | h
  · exact absurd (isPlaced_of_mem_ofBody h).1 (by simp [synthetic])
  · exact congrArg Lexeme.kind h

namespace Line

variable [Limits] {cs : List Char} {l : Line}

theorem isPortable_of_scan (h : scan 0 cs = .ok l) : ∀ t ∈ l.tokens, t.IsPortable := by
  -- a line that starts at zero is too short for an offset in it to be cut
  intro t ht r hr
  have hinside := isInside_of_scan h t ht r hr
  have hlength := (scan_eq_ok_iff.1 h).1
  have hshort := Limits.maxLineLength_lt
  have hsmall := Limits.maxDocumentSize_le
  omega

theorem not_isVacant_of_scan (h : scan 0 cs = .ok l) : ∀ t ∈ l.tokens, t.isVacant = false := by
  intro t ht
  rw [Token.isVacant, beq_eq_false_iff_ne]
  rintro rfl
  have hlexemes : l.tokens.map (·.lexeme cs) = Lexeme.ofLine cs := by
    have hstands : StandsAt cs 0 cs := by simpa using StandsAt.prefixOf cs []
    rw [(scan_eq_ok_iff.1 h).2, List.map_map, ← Scan.lexemes_line hstands]
    rfl
  have hmem := List.mem_map_of_mem (f := (·.lexeme cs)) ht
  rw [hlexemes] at hmem
  cases Lexeme.eq_lineEnd_of_mem_ofLine hmem

end Line

namespace Foreign

section

variable [Limits] {source : String} {l : Line}

theorem scan_of_scanLine {cs : List Char} (h : (Buffer.ofText cs).scanLine.1 = .ok l) :
    Line.scan 0 (Buffer.ofText cs).lineRest = .ok l := by
  rw [← h, Buffer.scanLine_fst]
  rfl

theorem tokenize_encode (hscan : (Buffer.ofText source.toList).scanLine.1 = .ok l)
    (output : ForeignLine) : tokenize (some (Utf8.encode source)) (some output) =
      { status := l.length, memory := some (.ofLine l) } := by
  have htext : ForeignBytes.toText (some (Utf8.encode source)) = .ok source := by
    rw [ForeignBytes.toText, Utf8.decode?_eq_some_iff.2 rfl]
  simp [tokenize, tokenizeResult, htext, hscan, CallReply.ofResult, bind, Except.bind,
    Except.mapError, pure, Except.pure]

omit [Limits] in
theorem getElem?_slots_ofLine {i : Nat} (hlow : l.length ≤ i) (hhigh : i < lineCapacity) :
    (ForeignLine.ofLine l).slots[i]? = some .vacant := by
  have hused : (l.tokens.map ForeignToken.ofToken).length = l.length := List.length_map _
  have hleft : i - l.length < lineCapacity - l.length := by omega
  rw [ForeignLine.slots_ofLine, List.getElem?_append_right (hused.symm ▸ hlow), hused,
    List.getElem?_replicate, if_pos hleft]

omit [Limits] in
theorem status_normalize_neg_iff {native : ForeignLine} (hread : native.toLine = .ok l)
    (hslots : native.slots.length = lineCapacity) (output : ForeignLine) :
    (normalize (some native) (some output)).status < 0 ↔
      ∃ cause, l.canonical = .error cause := by
  cases hc : l.canonical with
  | ok c => simp [normalize_of_canonical hread hc]
  | error cause =>
    have hl := ForeignLine.denotes_of_toLine hslots hread
    rw [normalize_of_canonical_error hslots hl hc]
    simp only [Except.error.injEq, exists_eq', iff_true]
    split <;> decide

/-- A line of portable tokens comes back from its slots. So a line that is scanned for foreign code
can be handed on by it, slot for slot, and its canonical form is told. -/
theorem lines_come_back :
    (∀ l : Line, (∀ t ∈ l.tokens, t.IsPortable ∧ t.isVacant = false) →
      (ForeignLine.ofLine l).toLine = .ok l) ∧
    ∀ (source : String) (l : Line), (Buffer.ofText source.toList).scanLine.1 = .ok l →
      ∀ output : ForeignLine,
        let r := tokenize (some (Utf8.encode source)) (some output)
        r = { status := l.length, memory := some (.ofLine l) } ∧
        (∀ i, l.length ≤ i → i < lineCapacity →
          (ForeignLine.ofLine l).slots[i]? = some .vacant) ∧
        ∀ other : ForeignLine,
          (∀ c, l.canonical = .ok c →
            normalize r.memory (some other) = { status := 0, memory := some (.ofLine c) }) ∧
          ((normalize r.memory (some other)).status < 0 ↔
            ∃ cause, l.canonical = .error cause) := by
  refine ⟨fun l => ForeignLine.toLine_ofLine, ?_⟩
  intro source l hscan output r
  have hr : r = _ := tokenize_encode hscan output
  have hline := scan_of_scanLine hscan
  have hback : (ForeignLine.ofLine l).toLine = .ok l := by
    apply ForeignLine.toLine_ofLine
    exact fun t ht => ⟨Line.isPortable_of_scan hline t ht, Line.not_isVacant_of_scan hline t ht⟩
  have hslots : (ForeignLine.ofLine l).slots.length = lineCapacity := by
    rw [ForeignLine.ofLine, List.length_map, Line.length_slots]
  refine ⟨hr, fun i => getElem?_slots_ofLine, ?_⟩
  intro other
  rw [hr]
  exact ⟨fun c hc => normalize_of_canonical hback hc other,
    status_normalize_neg_iff hback hslots other⟩

end

theorem lines_come_back_value :
    let l : Line := ⟨[⟨.operator .returns, some ⟨0, 2⟩⟩, ⟨.value, some ⟨4, 5⟩⟩,
      .synthetic .lineEnd], by decide⟩
    let r := tokenize (some (Utf8.encode "-> \"v\"\r\n#")) (some .vacant)
    (∀ t ∈ l.tokens, t.IsPortable ∧ t.isVacant = false) ∧
      (ForeignLine.ofLine l).toLine = .ok l ∧ r.status = 3 ∧
      (normalize r.memory (some .vacant)).memory = some ⟨[⟨7, 0, 2⟩, ⟨12, -1, 0⟩, ⟨12, -1, 0⟩,
        ⟨12, -1, 0⟩, ⟨20, 4, 5⟩, ⟨0, -1, 0⟩, .vacant, .vacant]⟩ := by
  intro l r
  have hscan : (Buffer.ofText "-> \"v\"\r\n#".toList).scanLine.1 = .ok l := by decide +kernel
  have hportable : ∀ t ∈ l.tokens, t.IsPortable ∧ t.isVacant = false := by
    simp [l, Token.IsPortable, Token.synthetic, Token.isVacant, Token.vacant]
  obtain ⟨hback, htext⟩ := lines_come_back
  obtain ⟨hr, -, hnormal⟩ := htext _ l hscan .vacant
  refine ⟨hportable, hback l hportable, ?_, ?_⟩
  · exact congrArg CallReply.status hr
  · exact congrArg CallReply.memory ((hnormal .vacant).1 _ rfl)

end Foreign

end PlatformRules
