import PlatformRules.Proofs.Evaluation.Effects
import PlatformRules.Proofs.Line.NormalForm
import PlatformRules.Proofs.Line.Verdicts

namespace PlatformRules

open Text

def Token.spelledOut (source : List Char) (t : Token) : List Char :=
  if t = Canonical.wildcard then Vocabulary.wildcardWord.toList else t.text source

namespace Lexeme

def spelledOut (x : Lexeme) : Lexeme :=
  if x = synthetic .wildcard then word Vocabulary.wildcardWord.toList else x

theorem spelledOut_some (k : Token.Kind) (text : List Char) :
    spelledOut ⟨k, some text⟩ = ⟨k, some text⟩ :=
  if_neg (by simp [synthetic])

theorem spelledOut_word (w : List Char) : (word w).spelledOut = word w :=
  spelledOut_some _ w

theorem kind_spelledOut (x : Lexeme) : x.spelledOut.kind = x.kind := by
  unfold spelledOut
  split
  · next h =>
    rw [h]
    exact Token.Kind.ofWord_wildcardWord
  · rfl

theorem part?_spelledOut (x : Lexeme) : x.spelledOut.part? = x.part? := by
  unfold spelledOut
  split
  · next h =>
    rw [h, part?_word (by decide)]
    rfl
  · rfl

theorem rebuilt_spelledOut (xs : List Lexeme) : rebuilt (xs.map spelledOut) = rebuilt xs := by
  have hpart : (·.part?) ∘ spelledOut = (·.part?) := funext part?_spelledOut
  rw [rebuilt, List.filterMap_map, hpart, rebuilt]

end Lexeme

namespace Token

variable {source : List Char} {t : Token} {k : Token.Kind}

theorem lexeme_eq_synthetic_iff : t.lexeme source = .synthetic k ↔ t = .synthetic k := by
  constructor
  · intro h
    obtain ⟨hkind, hrange⟩ := Lexeme.mk.inj h
    rw [Option.map_eq_none_iff] at hrange
    cases t
    simp_all [synthetic]
  · rintro rfl
    rfl

theorem spelledOut_eq (source : List Char) (t : Token) :
    t.spelledOut source = (t.lexeme source).spelledOut.text.getD [] := by
  unfold spelledOut Lexeme.spelledOut
  by_cases h : t = Canonical.wildcard
  · rw [if_pos h, if_pos (lexeme_eq_synthetic_iff.2 h)]
    rfl
  · rw [if_neg h, if_neg (mt lexeme_eq_synthetic_iff.1 h), text_eq]

end Token

namespace PathFields

def filled : PathFields → PathFields
  | none => release .any .any .any
  | system s => release s .any .any
  | machine s a => release s .any a
  | f => f

variable {f : PathFields}

theorem isValid_filled (hf : f.IsValid) : f.filled.IsValid := by
  cases f with
  | none => exact ⟨trivial, trivial, trivial⟩
  | system s => exact ⟨hf, trivial, trivial⟩
  | machine s a => exact ⟨hf.1, trivial, hf.2⟩
  | release s v a => exact hf
  | compared s c n a => exact hf

theorem logicPath_filled (f : PathFields) (o : Operator) (value : List Char) :
    f.filled.logicPath o value = f.logicPath o value := by
  cases f <;> rfl

theorem completed_filled (f : PathFields) : f.filled.completed = f.filled.words.map .word := by
  cases f <;> rfl

theorem words_filled (f : PathFields) :
    f.filled.words.map .word = f.completed.map Lexeme.spelledOut := by
  have hadded : (Lexeme.synthetic .wildcard).spelledOut =
      .word Vocabulary.wildcardWord.toList := rfl
  cases f <;> simp only [filled, words, completed, List.map_cons, List.map_nil,
    Lexeme.spelledOut_word, hadded] <;> rfl

end PathFields

namespace Statement

def filled : Statement → Statement
  | path o f value => path o f.filled value
  | st => st

variable {st : Statement} {cs : List Char}

theorem lexemes_filled (st : Statement) : st.filled.lexemes = st.filled.scanned := by
  cases st with
  | path o f value => simp only [filled, lexemes, scanned, f.completed_filled]
  | _ => rfl

theorem scanned_filled (st : Statement) :
    st.filled.scanned = st.lexemes.map Lexeme.spelledOut := by
  cases st with
  | path o f value =>
    simp only [filled, scanned, lexemes, List.map_cons, List.map_append, List.map_nil,
      Lexeme.spelledOut_some, f.words_filled]
  | _ => simp only [filled, scanned, lexemes, List.map_cons, List.map_nil, Lexeme.spelledOut_some]

theorem exists_written_filled (h : Written st cs) : ∃ ds, Written st.filled ds := by
  cases h with
  | blank => exact ⟨_, .blank⟩
  | comment text => exact ⟨_, .comment text⟩
  | action hname hword htext => exact ⟨_, .action hname hword htext⟩
  | @path o f value text gap hf htext hgap =>
    exact ⟨_, .path (f.isValid_filled hf) (spaced_spaced f.filled.words) hgap⟩

theorem not_mem_formatted_filled (h : Written st cs) (hcs : '\n' ∉ cs) :
    '\n' ∉ st.filled.formatted := by
  cases h with
  | @path o f value text gap hf htext hgap =>
    exact not_mem_formatted_path (f.isValid_filled hf) fun hm => hcs (by simp [hm])
  | blank => exact not_mem_formatted .blank hcs
  | comment text => exact not_mem_formatted (.comment text) hcs
  | action hname hword htext => exact not_mem_formatted (.action hname hword htext) hcs

end Statement

theorem Buffer.exists_scanLine_formatted [Limits] {st : Statement} {cs : List Char}
    (h : Written st cs) (hfeed : '\n' ∉ st.formatted)
    (hlength : byteLength st.formatted ≤ maxLineLength) :
    ∀ text ∈ [st.formatted, st.formatted ++ ['\n']], ∃ k,
      (ofText text).scanLine.1 = .ok k ∧ Written st (trim (ofText text).lineRest) := by
  intro text htext
  have hrest := lineRest_of_line hfeed text htext
  have hwritten : Written st (trim (ofText text).lineRest) := by
    rw [hrest, trim_withoutReturn]
    exact Statement.written_formatted h
  obtain ⟨k, hk⟩ : ∃ k, (ofText text).scanLine.1 = .ok k := by
    apply exists_scanLine
    · rw [hrest]
      exact (byteLength_withoutReturn_le _).trans hlength
    · rw [hwritten.ofLine_eq, List.length_append]
      exact st.length_scanned_lt
  exact ⟨k, hk, hwritten⟩

namespace Line

variable {source cs : List Char} {l c : Line} {xs : List Lexeme} {st : Statement}

theorem exists_concat_of_lexemes
    (h : l.tokens.map (·.lexeme source) = xs ++ [.synthetic .lineEnd]) :
    ∃ ts, l.tokens = ts ++ [.synthetic .lineEnd] ∧ ts.map (·.lexeme source) = xs := by
  obtain ⟨ts, e, htokens, hxs, -⟩ := Token.exists_concat_of_lexemes h
  have he : e.lexeme source = .synthetic .lineEnd := by
    rw [htokens, List.map_append, hxs] at h
    simpa using h
  rw [Token.lexeme_eq_synthetic_iff.1 he] at htokens
  exact ⟨ts, htokens, hxs⟩

theorem lexemes_of_canonical (hlex : l.tokens.map (·.lexeme source) = Lexeme.ofLine cs)
    (hst : Written st (trim cs)) (hc : l.canonical = .ok c) :
    c.tokens.map (·.lexeme source) = st.lexemes ++ [.synthetic .lineEnd] := by
  rw [hst.ofLine_eq] at hlex
  obtain ⟨ts, htokens, hscanned⟩ := exists_concat_of_lexemes hlex
  cases ts with
  | nil =>
    obtain rfl : st = .blank := st.scanned_eq_nil_iff.1 hscanned.symm
    have hkept : l.canonical = .ok l := canonical_of_isForm (htokens ▸ .ended rfl)
    obtain rfl := Except.ok.inj (hkept.symm.trans hc)
    exact hlex
  | cons first ts =>
    obtain ⟨us, hform, hus⟩ := hst.exists_isLegalForm hscanned
    have hfirst := hform.isTerminator_eq_false
    obtain ⟨f, hrule, hf, -⟩ := hform
    obtain ⟨f', us', hrule', hf', hclosed⟩ := (canonical_eq_ok_iff htokens rfl hfirst).1 hc
    obtain rfl := Option.some.inj (hrule.symm.trans hrule')
    obtain rfl := Option.some.inj (hf.symm.trans hf')
    rw [hclosed, List.map_append, hus]
    rfl

theorem ofLine?_openEnded {o : Operator} {f : PathFields} {value : List Char} (hf : f.IsValid)
    (h : l.tokens.map (·.lexeme source) =
      (Statement.path o f value).lexemes ++ [.synthetic .lineEnd]) :
    LogicPath.ofLine? source (Document.openEnded l) = some (f.logicPath o value) := by
  obtain ⟨ts, htokens, hts⟩ := exists_concat_of_lexemes h
  rw [LogicPath.ofLine?, tokens_openEnded htokens]
  exact PathFields.ofTokens?_of_lexemes hf hts

theorem source_eq_filled (hst : Written st cs)
    (hc : c.tokens.map (·.lexeme source) = st.lexemes ++ [.synthetic .lineEnd]) :
    c.source source = st.filled.formatted ++ ['\n'] := by
  obtain ⟨ds, hds⟩ := Statement.exists_written_filled hst
  rw [source_eq_rebuilt hc, ← Lexeme.rebuilt_spelledOut, ← st.scanned_filled, Lexeme.rebuilt,
    Statement.filterMap_part?_scanned hds]
  rfl

/-- `k`, in the text `text`, is `c` with the wildcards spelled out that were put in: a canonical
line that is accepted, and the same path if `c` is one. -/
structure SpellsOut (source text : List Char) (c k : Line) : Prop where
  isCanonical : k.isCanonical = true
  kinds : k.tokens.map (·.kind) = c.tokens.map (·.kind)
  texts : k.tokens.map (·.text text) = c.tokens.map (·.spelledOut source)
  check : k.check text = .ok ()
  path : ∀ o, c.kind 0 = .operator o → ∃ p : LogicPath,
    LogicPath.ofLine? source (Document.openEnded c) = some p ∧
      LogicPath.ofLine? text (Document.openEnded k) = some p

section

variable {text : List Char} {k : Line} (hst : Written st cs)
  (hc : c.tokens.map (·.lexeme source) = st.lexemes ++ [.synthetic .lineEnd])
  (hk : k.tokens.map (·.lexeme text) = st.filled.scanned ++ [.synthetic .lineEnd])

include hc hk

theorem lexemes_spelledOut :
    k.tokens.map (·.lexeme text) = c.tokens.map fun t => (t.lexeme source).spelledOut := by
  have hmap := congrArg (List.map Lexeme.spelledOut) hc
  rw [List.map_map, List.map_append, ← st.scanned_filled] at hmap
  exact hk.trans hmap.symm

theorem kinds_spelledOut : k.tokens.map (·.kind) = c.tokens.map (·.kind) := by
  have hkinds : (fun t : Token => t.kind) = Lexeme.kind ∘ fun t => (t.lexeme source).spelledOut :=
    funext fun t => (t.lexeme source).kind_spelledOut.symm
  calc k.tokens.map (·.kind)
    _ = (k.tokens.map (·.lexeme text)).map Lexeme.kind := by rw [List.map_map]; rfl
    _ = c.tokens.map (·.kind) := by rw [lexemes_spelledOut hc hk, List.map_map, ← hkinds]

theorem texts_spelledOut : k.tokens.map (·.text text) = c.tokens.map (·.spelledOut source) := by
  have htexts : (fun t : Token => t.text text) = (·.text.getD []) ∘ (·.lexeme text) :=
    funext (Token.text_eq text)
  have hspelled : (fun t : Token => t.spelledOut source) =
      (·.text.getD []) ∘ fun t => (t.lexeme source).spelledOut :=
    funext (Token.spelledOut_eq source)
  rw [htexts, hspelled, ← List.map_map, ← List.map_map, lexemes_spelledOut hc hk]

theorem isForm_spelledOut (hform : Canonical.IsForm c.tokens) : Canonical.IsForm k.tokens := by
  refine hform.of_kinds (kinds_spelledOut hc hk) ?_
  obtain ⟨ts, htokens, -⟩ := exists_concat_of_lexemes hk
  rw [htokens, List.getLast?_concat]
  rintro e ⟨⟩
  rfl

include hst in
theorem exists_path_spelledOut {o : Operator} (ho : c.kind 0 = .operator o) : ∃ p : LogicPath,
    LogicPath.ofLine? source (Document.openEnded c) = some p ∧
      LogicPath.ofLine? text (Document.openEnded k) = some p := by
  have hkind := kind_zero source c
  rw [hc, ho] at hkind
  cases hst with
  | @path o f value _ _ hf _ _ =>
    rw [← Statement.lexemes_filled] at hk
    refine ⟨f.logicPath o value, ofLine?_openEnded hf hc, ?_⟩
    rw [ofLine?_openEnded (f.isValid_filled hf) hk, f.logicPath_filled]
  | blank => simp [Statement.lexemes, Statement.scanned, Lexeme.synthetic] at hkind
  | comment text => simp [Statement.lexemes, Statement.scanned] at hkind
  | action hname hword htext => simp [Statement.lexemes, Statement.scanned] at hkind

end

/-- A canonical line that keeps the grammar can be written back: its text is scanned to the same
line, but for the wildcards that were put in, which it spells out. -/
theorem canonical_written_back [Limits] {b : Buffer} (hscan : b.scanLine.1 = .ok l)
    (hcanonical : l.canonical = .ok c) (hcheck : c.check b.text = .ok ()) :
    ∃ body, c.source b.text = body ++ ['\n'] ∧ '\n' ∉ body ∧
      (byteLength body ≤ maxLineLength → ∀ text ∈ [body, body ++ ['\n']], ∃ k,
        (Buffer.ofText text).scanLine.1 = .ok k ∧ SpellsOut b.text text c k) := by
  have hlex := Buffer.lexemes_of_scanLine hscan
  have haccepted : l.check b.text = .ok () :=
    (check_iff b.text l).2 ⟨⟨c, hcanonical, hcheck⟩, Buffer.not_isAbridged_of_scanLine hscan⟩
  obtain ⟨st, hst⟩ := (check_eq_ok_iff hlex).1 haccepted
  have hc := lexemes_of_canonical hlex hst hcanonical
  -- the text says the same with all fields of a path, so that nothing is left to complete
  obtain ⟨ds, hds⟩ := Statement.exists_written_filled hst
  have hfeed : '\n' ∉ st.filled.formatted :=
    Statement.not_mem_formatted_filled hst fun hm => b.not_mem_lineRest (mem_of_mem_trim hm)
  refine ⟨st.filled.formatted, source_eq_filled hst hc, hfeed, fun hlength text htext => ?_⟩
  obtain ⟨k, hscanned, hwritten⟩ := Buffer.exists_scanLine_formatted hds hfeed hlength text htext
  have hagain : k.tokens.map (·.lexeme text) = Lexeme.ofLine (Buffer.ofText text).lineRest :=
    Buffer.lexemes_of_scanLine hscanned
  have hk := hagain.trans hwritten.ofLine_eq
  have hform := isForm_spelledOut hc hk (isForm_of_canonical hcanonical)
  exact ⟨k, hscanned, {
    isCanonical := isCanonical_iff.2 (canonical_of_isForm hform)
    kinds := kinds_spelledOut hc hk
    texts := texts_spelledOut hc hk
    check := (check_eq_ok_iff hagain).2 ⟨st.filled, hwritten⟩
    path := fun _ => exists_path_spelledOut hst hc hk }⟩

theorem canonical_written_back_machine :
    let b := Buffer.ofText "  -> osx  x64 \"a\"b\" \r\n".toList
    let body := "-> osx any x64 \"a\"b\"".toList
    ∃ l c, b.scanLine.1 = .ok l ∧ l.canonical = .ok c ∧ c.check b.text = .ok () ∧
      c.source b.text = body ++ ['\n'] ∧ ∃ k,
        (Buffer.ofText (body ++ ['\n'])).scanLine.1 = .ok k ∧
          SpellsOut b.text (body ++ ['\n']) c k := by
  intro b body
  let l : Line := ⟨[⟨.operator .returns, some ⟨2, 4⟩⟩, ⟨.system, some ⟨5, 8⟩⟩,
    ⟨.architecture, some ⟨10, 13⟩⟩, ⟨.value, some ⟨15, 18⟩⟩, .synthetic .lineEnd], by decide⟩
  let c : Line := ⟨[⟨.operator .returns, some ⟨2, 4⟩⟩, ⟨.system, some ⟨5, 8⟩⟩, Canonical.wildcard,
    ⟨.architecture, some ⟨10, 13⟩⟩, ⟨.value, some ⟨15, 18⟩⟩, .synthetic .lineEnd], by decide⟩
  have hscan : b.scanLine.1 = .ok l := by decide +kernel
  have hcanonical : l.canonical = .ok c := by rfl
  have hcheck : c.check b.text = .ok () := by decide +kernel
  have hsource : c.source b.text = body ++ ['\n'] := by decide +kernel
  obtain ⟨body', hbody, -, hagain⟩ := canonical_written_back hscan hcanonical hcheck
  obtain rfl : body = body' := List.append_cancel_right (hsource.symm.trans hbody)
  exact ⟨l, c, hscan, hcanonical, hcheck, hsource, hagain (by decide) _ (by simp)⟩

end Line

end PlatformRules
