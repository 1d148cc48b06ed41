import PlatformRules.Document.Reading
import PlatformRules.Proofs.Line.Judgement

namespace PlatformRules

open Text

theorem Token.exists_concat_of_lexemes {source : List Char} {ts : List Token} {xs : List Lexeme}
    (h : ts.map (·.lexeme source) = xs ++ [.synthetic .lineEnd]) :
    ∃ us e, ts = us ++ [e] ∧ us.map (·.lexeme source) = xs ∧ e.kind = .lineEnd := by
  obtain ⟨us, end', rfl, hus, hend⟩ := List.map_eq_append_iff.1 h
  obtain ⟨e, _, rfl, he, hnil⟩ := List.map_eq_cons_iff.1 hend
  obtain rfl := List.map_eq_nil_iff.1 hnil
  exact ⟨us, e, rfl, hus, congrArg Lexeme.kind he⟩

namespace Line

variable {text : List Char} {raw line : Line}

section

variable [Limits]

theorem scan_eq_ok_iff {start : Nat} {cs : List Char} : scan start cs = .ok raw ↔
    byteLength cs ≤ maxLineLength ∧ raw.tokens = (Scan.line start cs).map (·.token) := by
  unfold scan ofList?
  by_cases hlen : byteLength cs > maxLineLength
  · rw [if_pos hlen]
    exact ⟨fun h => by simp at h, fun h => absurd h.1 (Nat.not_le.2 hlen)⟩
  · rw [if_neg hlen]
    by_cases hcount : ((Scan.line start cs).map (·.token)).length ≤ lineCapacity
    · rw [dif_pos hcount]
      constructor
      · intro h
        obtain rfl := Except.ok.inj h
        exact ⟨Nat.not_lt.1 hlen, rfl⟩
      · rintro ⟨-, htokens⟩
        exact congrArg Except.ok (Line.ext htokens.symm)
    · rw [dif_neg hcount]
      exact ⟨fun h => by simp at h, fun h => absurd (h.2 ▸ raw.length_le) hcount⟩

theorem scan_eq_tooManyTokens {start : Nat} {cs : List Char} (hlen : byteLength cs ≤ maxLineLength)
    {e : ScanError} (h : scan start cs = .error e) :
    e = .tooManyTokens ∧ lineCapacity < (Scan.line start cs).length := by
  unfold scan ofList? at h
  rw [if_neg (Nat.not_lt.2 hlen)] at h
  by_cases hcount : ((Scan.line start cs).map (·.token)).length ≤ lineCapacity
  · rw [dif_pos hcount] at h
    simp at h
  · rw [dif_neg hcount] at h
    rw [List.length_map] at hcount
    exact ⟨(Except.error.inj h).symm, Nat.not_le.1 hcount⟩

theorem ofText_eq_ok_iff : ofText text = .ok raw ↔
    byteLength (withoutReturn text) ≤ maxLineLength ∧
      raw.tokens = (Scan.line 0 (withoutReturn text)).map (·.token) :=
  scan_eq_ok_iff

omit [Limits] in
theorem lexemes_scan (text : List Char) :
    ((Scan.line 0 (withoutReturn text)).map (·.token)).map (·.lexeme text) =
      Lexeme.ofLine (withoutReturn text) := by
  obtain ⟨g, -, hg⟩ := exists_withoutReturn_append text
  have hstands : StandsAt text 0 (withoutReturn text) := by
    have := StandsAt.prefixOf (withoutReturn text) g
    rwa [hg] at this
  rw [← Scan.lexemes_line hstands, List.map_map]
  rfl

theorem lexemes_of_ofText (h : ofText text = .ok raw) :
    raw.tokens.map (·.lexeme text) = Lexeme.ofLine (withoutReturn text) := by
  rw [(ofText_eq_ok_iff.1 h).2, lexemes_scan]

theorem exists_ofText (hlen : byteLength (withoutReturn text) ≤ maxLineLength)
    (hcount : (Lexeme.ofLine (withoutReturn text)).length ≤ lineCapacity) :
    ∃ raw, ofText text = .ok raw := by
  rw [← lexemes_scan, List.length_map] at hcount
  exact ⟨⟨_, hcount⟩, ofText_eq_ok_iff.2 ⟨hlen, rfl⟩⟩

end

theorem kind_zero (source : List Char) (l : Line) :
    l.kind 0 = ((l.tokens.map (·.lexeme source)).head?.map (·.kind)).getD .undefined := by
  unfold kind get?
  cases l.tokens with
  | nil => rfl
  | cons t ts => rfl

theorem countKind_eq (source : List Char) (l : Line) (k : Token.Kind) :
    l.countKind k = (l.tokens.map (·.lexeme source)).countP fun x => x.kind == k := by
  rw [countKind, List.countP_map]
  rfl

theorem endsLine_of_concat {ts : List Token} {e : Token} (h : line.tokens = ts ++ [e])
    (he : e.kind = .lineEnd) : line.endsLine = true := by
  rw [endsLine, last?, h, List.getLast?_concat]
  simp [he]

section

variable {first e : Token} {ts : List Token} (hraw : raw.tokens = first :: (ts ++ [e]))
  (he : e.kind = .lineEnd)
include hraw he

theorem content_of_concat : raw.content = first :: ts := by
  have hends : raw.endsLine = true := by
    rw [← List.cons_append] at hraw
    exact endsLine_of_concat hraw he
  rw [content, if_pos hends, hraw, ← List.cons_append, List.dropLast_concat]

variable (hfirst : first.kind.isTerminator = false)
include hfirst

theorem canonical_eq_ok_iff : raw.canonical = .ok line ↔
    ∃ f us, Canonical.rule? first.kind = some f ∧ f (first :: ts) = some us ∧
      line.tokens = us ++ [.synthetic .lineEnd] := by
  have hcontent := content_of_concat hraw he
  unfold canonical
  split
  · next hhead => simp [hraw] at hhead
  · next first' hhead =>
    obtain rfl : first = first' := by simpa [hraw] using hhead
    rw [if_neg (by simp [hfirst])]
    split
    · next hrule => simp [hrule]
    · next f hrule =>
      split
      · next hf =>
        rw [hcontent] at hf
        simp [hrule, hf]
      · next us hf =>
        rw [hcontent] at hf
        constructor
        · intro h
          obtain rfl := Except.ok.inj h
          exact ⟨f, us, hrule, hf, rfl⟩
        · rintro ⟨f', us', hrule', hf', hline⟩
          obtain rfl := Option.some.inj (hrule.symm.trans hrule')
          obtain rfl := Option.some.inj (hf.symm.trans hf')
          exact congrArg Except.ok (Line.ext hline.symm)

theorem canonical_eq_error {cause : ShapeError} (h : raw.canonical = .error cause) :
    Canonical.rule? first.kind = none ∧ cause = .unexpectedLeading first.kind ∨
      ∃ f, Canonical.rule? first.kind = some f ∧ f (first :: ts) = none ∧
        cause = .malformed first.kind raw.length := by
  have hcontent := content_of_concat hraw he
  unfold canonical at h
  split at h
  · next hhead => simp [hraw] at hhead
  · next first' hhead =>
    obtain rfl : first = first' := by simpa [hraw] using hhead
    rw [if_neg (by simp [hfirst])] at h
    split at h
    · next hrule => exact .inl ⟨hrule, (Except.error.inj h).symm⟩
    · next f hrule =>
      split at h
      · next hf =>
        rw [hcontent] at hf
        exact .inr ⟨f, hrule, hf, (Except.error.inj h).symm⟩
      · simp at h

end

theorem check_of_concat {source : List Char} {us : List Token} {e : Token}
    (htokens : line.tokens = us ++ [e]) (he : e.kind = .lineEnd) (hne : us ≠ []) :
    line.check source = Grammar.checkTokens source us := by
  have hlength : 1 < line.length := by
    have := List.length_pos_iff.2 hne
    simp only [length, htokens, List.length_append, List.length_singleton]
    omega
  have hcond : (decide (line.length > 1) && line.endsLine) = true := by
    simp [hlength, endsLine_of_concat htokens he]
  rw [check, if_pos hcond, htokens, List.dropLast_concat]

section

variable {us : List Token} (hline : line.tokens = us ++ [.synthetic .lineEnd])
include hline

theorem endsLine_of_closed : line.endsLine = true :=
  endsLine_of_concat hline rfl

theorem tokens_openEnded : (Document.openEnded line).tokens = us := by
  rw [Document.openEnded, if_pos (endsLine_of_closed hline), pop]
  simp only [hline, List.dropLast_concat]

end

end Line

namespace Document

variable {text : List Char} {r : ReadLine}

theorem readLine_eq_ok_iff [Limits] : readLine text = .ok r ↔ ∃ line, Line.ofText text = .ok r.raw ∧
    r.raw.canonical = .ok line ∧ line.check text = .ok () ∧ r.line = openEnded line := by
  unfold readLine
  constructor
  · intro h
    split at h
    · simp at h
    · next raw hraw =>
      split at h
      · simp at h
      · next line hline =>
        split at h
        · simp at h
        · next hcheck =>
          obtain rfl := Except.ok.inj h
          exact ⟨line, hraw, hline, hcheck, rfl⟩
  · rintro ⟨line, hraw, hline, hcheck, hopen⟩
    rw [hraw]
    simp only [hline, hcheck, ← hopen]

theorem readLine_eq_error [Limits] {cause : LineError} (h : readLine text = .error cause) :
    (∃ e, Line.ofText text = .error e ∧ cause = .scan e) ∨ ∃ raw, Line.ofText text = .ok raw ∧
      ((∃ e, raw.canonical = .error e ∧ cause = .shape e) ∨
        ∃ line e, raw.canonical = .ok line ∧ line.check text = .error e ∧ cause = .grammar e) := by
  unfold readLine at h
  split at h
  · next e hscan => exact .inl ⟨e, hscan, (Except.error.inj h).symm⟩
  · next raw hraw =>
    split at h
    · next e hshape => exact .inr ⟨raw, hraw, .inl ⟨e, hshape, (Except.error.inj h).symm⟩⟩
    · next line hline =>
      split at h
      · next e hcheck =>
        exact .inr ⟨raw, hraw, .inr ⟨line, e, hline, hcheck, (Except.error.inj h).symm⟩⟩
      · simp at h

structure Says (text : List Char) (r : ReadLine) (st : Statement) : Prop where
  raw : r.raw.tokens.map (·.lexeme text) = st.scanned ++ [.synthetic .lineEnd]
  line : r.line.tokens.map (·.lexeme text) = st.lexemes

section

variable {raw : Line} {first e : Token} {ts : List Token}

theorem readLine_iff_isLegalForm [Limits] (hraw : Line.ofText text = .ok raw)
    (htokens : raw.tokens = first :: (ts ++ [e])) (he : e.kind = .lineEnd)
    (hfirst : first.kind.isTerminator = false) (line : Line) :
    readLine text = .ok ⟨raw, line⟩ ↔ IsLegalForm text first ts line.tokens := by
  rw [readLine_eq_ok_iff]
  constructor
  · rintro ⟨closed, -, hcanonical, hcheck, rfl⟩
    obtain ⟨f, us, hrule, hf, hclosed⟩ :=
      (Line.canonical_eq_ok_iff htokens he hfirst).1 hcanonical
    have hne : us ≠ [] := Canonical.ne_nil_of_rule? hrule hf
    rw [Line.check_of_concat hclosed rfl hne] at hcheck
    rw [Line.tokens_openEnded hclosed]
    exact ⟨f, hrule, hf, hcheck⟩
  · rintro ⟨f, hrule, hf, hcheck⟩
    have hne : line.tokens ≠ [] := Canonical.ne_nil_of_rule? hrule hf
    have hlength : (line.tokens ++ [Token.synthetic .lineEnd]).length ≤ lineCapacity := by
      have := Canonical.length_of_rule? hrule hf
      rw [List.length_append, List.length_singleton]
      exact this
    have hclosed : (⟨_, hlength⟩ : Line).tokens = line.tokens ++ [.synthetic .lineEnd] := rfl
    refine ⟨⟨_, hlength⟩, hraw, ?_, ?_, ?_⟩
    · exact (Line.canonical_eq_ok_iff htokens he hfirst).2 ⟨f, _, hrule, hf, hclosed⟩
    · rw [Line.check_of_concat hclosed rfl hne]
      exact hcheck
    · exact Line.ext (Line.tokens_openEnded hclosed).symm

end

theorem readLine_blank [Limits] {raw : Line} {e : Token} (hraw : Line.ofText text = .ok raw)
    (htokens : raw.tokens = [e]) (he : e.kind = .lineEnd) :
    readLine text = .ok ⟨raw, raw.pop⟩ := by
  have hends : raw.endsLine = true :=
    Line.endsLine_of_concat (htokens.trans (List.nil_append [e]).symm) he
  refine readLine_eq_ok_iff.2 ⟨raw, hraw, ?_, ?_, ?_⟩
  · unfold Line.canonical
    split
    · next hhead => simp [htokens] at hhead
    · next first hhead =>
      obtain rfl : e = first := by simpa [htokens] using hhead
      rw [if_pos (by simp [he, Token.Kind.isTerminator])]
  · have hlength : ¬(decide (raw.length > 1) && raw.endsLine) = true := by
      simp [Line.length, htokens]
    rw [Line.check, if_neg hlength, htokens]
    simp [Grammar.checkTokens, he]
  · rw [openEnded, if_pos hends]

end Document

end PlatformRules
