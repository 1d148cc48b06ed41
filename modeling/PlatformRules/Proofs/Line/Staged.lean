import Mathlib.Logic.Function.Iterate
import PlatformRules.Line.Sequence
import PlatformRules.Proofs.Document.Reading
import PlatformRules.Proofs.Line.Shifted
import PlatformRules.Proofs.Text.Lines

/-!
Scanning a text in place, line after line, against scanning copies of its lines. As long as no line
has too many tokens the two go together; behind such a line the scanner goes on in the middle of it.
-/

namespace PlatformRules

open Text

namespace Text

theorem byteLength_withoutReturn_append_le (front back : List Char) :
    byteLength (withoutReturn back) ≤ byteLength (withoutReturn (front ++ back)) := by
  rcases List.eq_nil_or_concat' back with rfl | ⟨ds, d, rfl⟩
  · exact Nat.zero_le _
  · unfold withoutReturn
    rw [← List.append_assoc, List.getLast?_concat, List.getLast?_concat, List.dropLast_concat,
      List.dropLast_concat]
    split <;> simp only [byteLength_append] <;> omega

theorem take_splitWithin (limit : Nat) (cs : List Char) :
    cs.take (splitWithin limit cs).1.length = (splitWithin limit cs).1 := by
  have hcut := splitWithin_append limit cs
  generalize splitWithin limit cs = parts at hcut ⊢
  rw [← hcut, List.take_left]

theorem eq_takeWhile_or (cs : List Char) : cs = cs.takeWhile (· ≠ '\n') ∨
    ∃ more, cs = cs.takeWhile (· ≠ '\n') ++ '\n' :: more := by
  have hsplit := List.takeWhile_append_dropWhile (p := (· ≠ '\n')) (l := cs)
  cases hmore : cs.dropWhile (· ≠ '\n') with
  | nil =>
    rw [hmore, List.append_nil] at hsplit
    exact .inl hsplit.symm
  | cons c more =>
    have hc := List.head?_dropWhile_not (· ≠ '\n') cs
    rw [hmore] at hc hsplit
    obtain rfl : c = '\n' := by simpa using hc
    exact .inr ⟨more, hsplit.symm⟩

theorem not_mem_takeWhile (cs : List Char) : '\n' ∉ cs.takeWhile (· ≠ '\n') := by
  intro h
  simpa using List.mem_takeWhile_imp h

theorem exists_mem_linesFrom (number offset : Nat) {cs : List Char} (hne : cs ≠ [])
    (reversed : List Char) : ∃ l ∈ linesFrom number offset cs reversed,
      l.text = withoutReturn (reversed.reverse ++ cs.takeWhile (· ≠ '\n')) := by
  have hfeed := not_mem_takeWhile cs
  have hclose (line : List Char) : (closeLine number offset (line.reverse ++ reversed)).text =
      withoutReturn (reversed.reverse ++ line) := by
    simp [closeLine]
  rcases eq_takeWhile_or cs with hcs | ⟨more, hcs⟩
  · have hpass := linesFrom_pass number offset hfeed [] reversed
    rw [List.append_nil, ← hcs] at hpass
    have hreversed : cs.reverse ++ reversed ≠ [] := by simp [hne]
    rw [hpass, linesFrom, if_neg hreversed, ← hcs]
    exact ⟨_, List.mem_singleton.2 rfl, hclose cs⟩
  · have hpass := linesFrom_pass number offset hfeed ('\n' :: more) reversed
    rw [← hcs, linesFrom, if_pos rfl] at hpass
    rw [hpass]
    exact ⟨_, List.mem_cons_self, hclose _⟩

variable [Limits]

def LinesFit (cs : List Char) : Prop :=
  ∀ ds, ds <:+ cs → byteLength (withoutReturn (ds.takeWhile (· ≠ '\n'))) ≤ maxLineLength

theorem LinesFit.suffix {cs ds : List Char} (h : LinesFit cs) (hds : ds <:+ cs) : LinesFit ds :=
  fun es hes => h es (hes.trans hds)

theorem linesFit_of_linesFrom (number offset : Nat) {cs reversed : List Char}
    (h : ∀ l ∈ linesFrom number offset cs reversed, l.length ≤ maxLineLength) : LinesFit cs := by
  -- a place in the middle of a line is reached with the front of that line in `reversed`
  induction cs generalizing number offset reversed with
  | nil =>
    intro ds hds
    rw [List.suffix_nil.1 hds]
    exact Nat.zero_le _
  | cons c cs ih =>
    intro ds hds
    rcases List.suffix_cons_iff.1 hds with rfl | hds
    · obtain ⟨l, hl, htext⟩ :=
        exists_mem_linesFrom number offset (List.cons_ne_nil c cs) reversed
      have hlength := h l hl
      rw [SourceLine.length, htext] at hlength
      exact (byteLength_withoutReturn_append_le ..).trans hlength
    · rw [linesFrom] at h
      split at h
      · exact ih _ _ (fun l hl => h l (List.mem_cons_of_mem _ hl)) ds hds
      · exact ih _ _ h ds hds

end Text

namespace Buffer

variable {b : Buffer}

theorem advance_eq_self (h : b.rest = []) (n : Nat) : b.advance n = b := by
  apply Buffer.ext
  · simp [advance, h]
  · simp [advance, h]

theorem readLine?_snd (b : Buffer) : b.readLine?.2 = b.advance (b.rawLine.length + 1) := by
  unfold readLine?
  split
  · next hend => rw [advance_eq_self (by simpa [atEnd] using hend)]
  · rfl

theorem scanLine_fst [Limits] (b : Buffer) : b.scanLine.1 = Line.scan b.position b.lineRest := by
  unfold scanLine
  split <;> simp_all

theorem exists_lineRest_append (b : Buffer) : ∃ more, b.rest = b.lineRest ++ more := by
  obtain ⟨g, -, hg⟩ := exists_withoutReturn_append b.rawLine
  have hrest : b.rawLine ++ b.rest.dropWhile (· ≠ '\n') = b.rest :=
    List.takeWhile_append_dropWhile
  exact ⟨g ++ b.rest.dropWhile (· ≠ '\n'), by rw [← List.append_assoc, lineRest, hg, hrest]⟩

theorem lineRest_prefix (b : Buffer) : b.lineRest <+: b.rest := by
  obtain ⟨more, hmore⟩ := exists_lineRest_append b
  exact ⟨more, hmore.symm⟩

theorem position_eq_reverse (b : Buffer) : b.position = byteLength b.before.reverse := by
  rw [byteLength_reverse, b.position_eq]

theorem standsAt_of_prefix {part : List Char} (h : part <+: b.rest) :
    StandsAt b.text b.position part := by
  obtain ⟨more, hmore⟩ := h
  exact ⟨b.before.reverse, more, by rw [text, ← hmore, List.append_assoc], b.position_eq_reverse.symm⟩

theorem standsAt_lineRest (b : Buffer) : StandsAt b.text b.position b.lineRest :=
  standsAt_of_prefix b.lineRest_prefix

theorem not_mem_lineRest (b : Buffer) : '\n' ∉ b.lineRest :=
  fun h => not_mem_takeWhile b.rest (mem_of_mem_withoutReturn h)

theorem lineRest_ofText {cs : List Char} (h : '\n' ∉ cs) : (ofText cs).lineRest = withoutReturn cs := by
  have hraw : (ofText cs).rawLine = cs := by
    apply List.takeWhile_eq_self_iff.2
    intro c hc
    have : c ≠ '\n' := fun he => h (he ▸ hc)
    simpa using this
  rw [lineRest, hraw]

/-- What the scanner makes of the rest of a line in place, with the buffer it leaves, is what it
makes of a copy of the line. -/
inductive ScansAlike (b : Buffer) : Except ScanError Line × Buffer → Except ScanError Line → Prop
  | ok {l k : Line} (hlexemes : l.tokens.map (·.lexeme b.text) = k.tokens.map (·.lexeme b.lineRest))
      (hplaces : List.Forall₂ Token.Coincides l.tokens (k.tokens.map (·.shift b.position)))
      (hexact : b.lineRest.getLast? ≠ some '\r' → l.tokens = k.tokens.map (·.shift b.position)) :
      ScansAlike b (.ok l, b.readLine?.2) (.ok k)
  | tooManyTokens {c : Buffer} (htext : c.text = b.text) (hpassed : b.position < c.position)
      (hwithin : c.position ≤ b.position + byteLength b.lineRest) :
      ScansAlike b (.error .tooManyTokens, c) (.error .tooManyTokens)

section

variable (b : Buffer)

theorem coincides_staged : List.Forall₂ Token.Coincides
    ((Scan.line b.position b.lineRest).map (·.token))
    (((Scan.line 0 (withoutReturn b.lineRest)).map (·.token)).map (·.shift b.position)) := by
  obtain ⟨g, hg, hcopy⟩ := exists_withoutReturn_append b.lineRest
  have hcoincides := Scan.coincides_line_append hg b.position (withoutReturn b.lineRest)
  have hshift := Scan.tokens_line_shift b.position 0 (withoutReturn b.lineRest)
  rw [Nat.zero_add] at hshift
  rwa [hcopy, hshift] at hcoincides

theorem length_staged : (Scan.line b.position b.lineRest).length =
    (Scan.line 0 (withoutReturn b.lineRest)).length := by
  have := (coincides_staged b).length_eq
  simpa only [List.length_map] using this

end

section

variable [Limits]

theorem scansAlike_of_ok {l : Line} (h : b.scanLine.1 = .ok l) :
    ∃ k, (ofText b.lineRest).scanLine.1 = .ok k ∧ ScansAlike b b.scanLine (.ok k) := by
  have hpair : b.scanLine = (.ok l, b.readLine?.2) := by
    have hafter := eq_advance_of_scanLine (Prod.ext h rfl : b.scanLine = (.ok l, b.scanLine.2))
    exact Prod.ext h (by rw [readLine?_snd]; exact hafter)
  rw [scanLine_fst] at h
  obtain ⟨hlength, htokens⟩ := Line.scan_eq_ok_iff.1 h
  have hlength' := (byteLength_withoutReturn_le b.lineRest).trans hlength
  have hcapacity : ((Scan.line 0 (withoutReturn b.lineRest)).map (·.token)).length ≤ lineCapacity := by
    have := l.length_le
    rwa [htokens, List.length_map, length_staged, ← List.length_map (f := (·.token))] at this
  let k : Line := ⟨_, hcapacity⟩
  have hk : Line.ofText b.lineRest = .ok k := Line.ofText_eq_ok_iff.2 ⟨hlength', rfl⟩
  refine ⟨k, ?_, ?_⟩
  · rw [scanLine_fst, lineRest_ofText (not_mem_lineRest b)]
    exact hk
  · rw [hpair]
    refine .ok ?_ ?_ ?_
    · have hline := Scan.lexemes_line (standsAt_lineRest b)
      obtain ⟨g, hg, hcopy⟩ := exists_withoutReturn_append b.lineRest
      have happend := Lexeme.ofLine_append hg (withoutReturn b.lineRest)
      rw [Line.lexemes_of_ofText hk, htokens, List.map_map, ← happend, hcopy, ← hline]
      rfl
    · rw [htokens]
      exact coincides_staged b
    · intro hreturn
      have hkept : withoutReturn b.lineRest = b.lineRest := if_neg hreturn
      have hshift := Scan.tokens_line_shift b.position 0 b.lineRest
      rw [Nat.zero_add] at hshift
      rw [htokens, hshift]
      simp only [k, hkept]

theorem exists_advance_of_tooManyTokens (h : b.scanLine.1 = .error .tooManyTokens)
    (hmany : lineCapacity < (Scan.line b.position b.lineRest).length) :
    ∃ n, 0 < n ∧ b.scanLine.2 = b.advance n ∧ b.position < b.scanLine.2.position ∧
      b.scanLine.2.position ≤ b.position + byteLength b.lineRest := by
  obtain ⟨more, hmore⟩ := exists_lineRest_append b
  have hscan := h
  rw [scanLine_fst] at hscan
  cases hline : b.lineRest with
  | nil =>
    rw [hline] at hmany
    simp [Scan.line, Scan.body, trimStart, lineCapacity] at hmany
  | cons c rest =>
    rw [hline] at hmany hscan hmore
    have hpiece := Scan.resumes_line b.position c rest _ (List.getElem_mem hmany)
    have hget := List.getElem?_eq_getElem hmany
    generalize (Scan.line b.position (c :: rest))[lineCapacity] = p at hpiece hget
    obtain ⟨hlow, hhigh⟩ := hpiece
    have hafter : b.scanLine.2 =
        b.advance (splitWithin (p.resume - b.position) b.rest).1.length := by
      unfold scanLine
      rw [hline]
      simp only [hscan, hget]
    have hle := byteLength_splitWithin_le (p.resume - b.position) b.rest
    have hfits : c.utf8Size ≤ p.resume - b.position := by omega
    have hfirst : 0 < c.utf8Size := c.utf8Size_pos
    have htake := take_splitWithin (p.resume - b.position) b.rest
    have hone : c.utf8Size ≤ byteLength (splitWithin (p.resume - b.position) b.rest).1 := by
      rw [hmore, List.cons_append, splitWithin_cons, if_pos hfits, byteLength_cons]
      omega
    refine ⟨_, ?_, hafter, ?_, ?_⟩
    · apply List.length_pos_iff.2
      intro hnil
      rw [hnil, byteLength_nil] at hone
      omega
    · rw [hafter, position_advance, htake]
      omega
    · rw [hafter, position_advance, htake, byteLength_cons]
      omega

theorem byteLength_lineRest_le (h : LinesFit b.rest) : byteLength b.lineRest ≤ maxLineLength :=
  h b.rest List.suffix_rfl

theorem scanLine_eq_tooManyTokens (hfit : LinesFit b.rest) {e : ScanError}
    (h : b.scanLine.1 = .error e) :
    e = .tooManyTokens ∧ lineCapacity < (Scan.line b.position b.lineRest).length := by
  rw [scanLine_fst] at h
  exact Line.scan_eq_tooManyTokens (byteLength_lineRest_le hfit) h

theorem scansAlike (hfit : LinesFit b.rest) :
    ScansAlike b b.scanLine (ofText b.lineRest).scanLine.1 := by
  cases hscan : b.scanLine.1 with
  | ok l =>
    obtain ⟨k, hk, halike⟩ := scansAlike_of_ok hscan
    rw [hk]
    exact halike
  | error e =>
    obtain ⟨rfl, hmany⟩ := scanLine_eq_tooManyTokens hfit hscan
    obtain ⟨n, -, hafter, hpassed, hwithin⟩ := exists_advance_of_tooManyTokens hscan hmany
    have hcopy : (ofText b.lineRest).scanLine.1 = .error .tooManyTokens := by
      rw [scanLine_fst, lineRest_ofText (not_mem_lineRest b)]
      cases hk : Line.scan (ofText b.lineRest).position (withoutReturn b.lineRest) with
      | ok k =>
        have hcapacity := k.length_le
        rw [(Line.scan_eq_ok_iff.1 hk).2, List.length_map] at hcapacity
        rw [length_staged] at hmany
        exact absurd hcapacity (Nat.not_le.2 hmany)
      | error e =>
        have hlength := (byteLength_withoutReturn_le b.lineRest).trans (byteLength_lineRest_le hfit)
        rw [(Line.scan_eq_tooManyTokens hlength hk).1]
    have htext : b.scanLine.2.text = b.text := by rw [hafter, text_advance]
    have hpair : b.scanLine = (.error .tooManyTokens, b.scanLine.2) := Prod.ext hscan rfl
    rw [hcopy, hpair]
    exact .tooManyTokens htext hpassed hwithin

omit [Limits] in
theorem rest_advance (b : Buffer) (n : Nat) : (b.advance n).rest = b.rest.drop n := rfl

omit [Limits] in
theorem rest_advance_suffix (b : Buffer) (n : Nat) : (b.advance n).rest <:+ b.rest :=
  List.drop_suffix n b.rest

theorem exists_advance_of_scanLine (hfit : LinesFit b.rest) :
    ∃ n, 0 < n ∧ b.scanLine.2 = b.advance n := by
  cases hscan : b.scanLine.1 with
  | ok l =>
    have hafter := eq_advance_of_scanLine (Prod.ext hscan rfl : b.scanLine = (.ok l, b.scanLine.2))
    exact ⟨_, Nat.succ_pos _, hafter⟩
  | error e =>
    obtain ⟨rfl, hmany⟩ := scanLine_eq_tooManyTokens hfit hscan
    obtain ⟨n, hn, hafter, -⟩ := exists_advance_of_tooManyTokens hscan hmany
    exact ⟨n, hn, hafter⟩

def scanned (b : Buffer) (k : Nat) : Buffer :=
  (fun b : Buffer => b.scanLine.2)^[k] b

def passed (b : Buffer) (k : Nat) : Buffer :=
  (fun b : Buffer => b.readLine?.2)^[k] b

theorem scanned_succ (b : Buffer) (k : Nat) : b.scanned (k + 1) = (b.scanned k).scanLine.2 :=
  Function.iterate_succ_apply' ..

end

theorem passed_succ (b : Buffer) (k : Nat) : b.passed (k + 1) = (b.passed k).readLine?.2 :=
  Function.iterate_succ_apply' ..

theorem text_passed (b : Buffer) (k : Nat) : (b.passed k).text = b.text := by
  induction k with
  | zero => rfl
  | succ k ih => rw [passed_succ, readLine?_snd, text_advance, ih]

theorem rest_passed_suffix (b : Buffer) (k : Nat) : (b.passed k).rest <:+ b.rest := by
  induction k with
  | zero => exact List.suffix_rfl
  | succ k ih =>
    rw [passed_succ, readLine?_snd]
    exact (rest_advance_suffix _ _).trans ih

theorem exists_scanned_atEnd [Limits] (hfit : LinesFit b.rest) :
    ∃ n, (b.scanned n).atEnd = true := by
  -- a call that fails passes no whole line, so the induction is on what is left of the text
  generalize hlength : b.rest.length = length
  induction length using Nat.strong_induction_on generalizing b with
  | _ length ih =>
    cases hrest : b.rest with
    | nil => exact ⟨0, by simp [scanned, atEnd, hrest]⟩
    | cons c rest =>
      obtain ⟨n, hn, hafter⟩ := exists_advance_of_scanLine hfit
      have hshorter : (b.advance n).rest.length < length := by
        rw [rest_advance, ← hlength, List.length_drop, hrest, List.length_cons]
        omega
      obtain ⟨k, hk⟩ := ih _ hshorter (hfit.suffix (rest_advance_suffix b n)) rfl
      refine ⟨k + 1, ?_⟩
      rw [scanned, Function.iterate_succ_apply, hafter]
      exact hk

theorem scanned_eq_passed [Limits] {k : Nat}
    (hok : ∀ j < k, ∃ l, (b.scanned j).scanLine.1 = .ok l) : b.scanned k = b.passed k := by
  induction k with
  | zero => rfl
  | succ k ih =>
    have hsame := ih fun j hj => hok j (by omega)
    obtain ⟨l, hl⟩ := hok k (by omega)
    have hafter := eq_advance_of_scanLine
      (Prod.ext hl rfl : (b.scanned k).scanLine = (.ok l, (b.scanned k).scanLine.2))
    rw [scanned_succ, passed_succ, readLine?_snd, ← hsame]
    exact hafter

theorem linesFrom_eq_cons (number : Nat) (hne : b.rest ≠ []) :
    linesFrom number b.position b.rest [] = ⟨number, b.position, b.lineRest⟩ ::
      linesFrom (number + 1) b.readLine?.2.position b.readLine?.2.rest [] := by
  have hfeed : '\n' ∉ b.rawLine := not_mem_takeWhile b.rest
  rw [readLine?_snd]
  rcases eq_takeWhile_or b.rest with hrest | ⟨more, hrest⟩
  · have hraw : b.rest = b.rawLine := hrest
    have hnil : (b.advance (b.rawLine.length + 1)).rest = [] := by
      rw [rest_advance, hraw]
      exact List.drop_eq_nil_of_le (Nat.le_succ _)
    have hpass := linesFrom_pass number b.position hfeed [] []
    rw [List.append_nil, List.append_nil, ← hraw] at hpass
    rw [hnil, hpass, linesFrom, if_neg (by simpa using hne), linesFrom, if_pos rfl, closeLine,
      List.reverse_reverse, lineRest, ← hraw]
  · have hraw : b.rest = b.rawLine ++ '\n' :: more := hrest
    have hdrop : (b.advance (b.rawLine.length + 1)).rest = more := by
      rw [rest_advance, hraw]
      simp
    have hposition : (b.advance (b.rawLine.length + 1)).position =
        b.position + byteLength b.rawLine + 1 := by
      have htake : b.rest.take (b.rawLine.length + 1) = b.rawLine ++ ['\n'] := by
        rw [hraw, List.take_length_add_append]
        rfl
      have hone : byteLength ['\n'] = 1 := by decide
      rw [position_advance, htake, byteLength_append, hone, Nat.add_assoc]
    rw [hdrop, hposition, hraw, linesFrom_line number b.position hfeed]
    rfl

theorem linesFrom_passed (cs : List Char) (k : Nat) :
    linesFrom (k + 1) ((ofText cs).passed k).position ((ofText cs).passed k).rest [] =
      (lines cs).drop k := by
  induction k with
  | zero => rfl
  | succ k ih =>
    rw [passed_succ]
    generalize (ofText cs).passed k = b at ih
    by_cases hrest : b.rest = []
    · rw [hrest] at ih
      have hnil : (lines cs).drop k = [] := ih.symm
      rw [readLine?_snd, advance_eq_self hrest, hrest, ← List.drop_drop, hnil]
      rfl
    · rw [linesFrom_eq_cons _ hrest] at ih
      rw [← List.drop_drop, ← ih]
      rfl

theorem passed_of_lines {cs : List Char} {k : Nat} {l : SourceLine} (hl : (lines cs)[k]? = some l) :
    ((ofText cs).passed k).rest ≠ [] ∧ ((ofText cs).passed k).position = l.offset ∧
      ((ofText cs).passed k).lineRest = l.text := by
  have hdrop := linesFrom_passed cs k
  have hhead : ((lines cs).drop k).head? = some l := by rw [List.head?_drop, hl]
  generalize (ofText cs).passed k = b at hdrop ⊢
  rw [← hdrop] at hhead
  by_cases hrest : b.rest = []
  · rw [hrest] at hhead
    simp [linesFrom] at hhead
  · rw [linesFrom_eq_cons _ hrest] at hhead
    obtain rfl := Option.some.inj hhead
    exact ⟨hrest, rfl, rfl⟩

/-- Scanning a text and scanning copies of its lines give the same, up to the first line with too
many tokens. -/
theorem scan_staged [Limits] {cs : List Char} (hlength : ∀ l ∈ lines cs, l.length ≤ maxLineLength) :
    (∃ n, ((ofText cs).scanned n).atEnd = true) ∧
      ∀ k, (∀ j < k, ∃ l, ((ofText cs).scanned j).scanLine.1 = .ok l) →
        let b := (ofText cs).passed k
        (ofText cs).scanned k = b ∧ ∀ l, (lines cs)[k]? = some l →
          b.readLine?.1 = some ⟨l.offset, l.offset + l.length⟩ ∧
            ∀ c : Cursor, c.primary.text = cs → ScansAlike b b.scanLine
              (c.stage ⟨l.offset, l.offset + l.length⟩).buffer.scanLine.1 := by
  have hfit : LinesFit (ofText cs).rest := linesFit_of_linesFrom 1 0 hlength
  refine ⟨exists_scanned_atEnd hfit, ?_⟩
  intro k hok b
  refine ⟨scanned_eq_passed hok, ?_⟩
  intro l hl
  obtain ⟨hrest, hoffset, htext⟩ := passed_of_lines hl
  have htext' : b.text = cs := text_passed (ofText cs) k
  have hrange : (⟨l.offset, l.offset + l.length⟩ : ByteRange) =
      ⟨b.position, b.position + byteLength b.lineRest⟩ := by
    rw [SourceLine.length, ← htext, ← hoffset]
  constructor
  · rw [hrange, readLine?, if_neg (by simpa [atEnd] using hrest)]
  · intro c hc
    have hslice : (⟨l.offset, l.offset + l.length⟩ : ByteRange).slice c.primary.text = b.lineRest := by
      rw [hrange, hc, ← htext']
      exact (standsAt_lineRest b).slice
    have hstaged : (c.stage ⟨l.offset, l.offset + l.length⟩).buffer = ofText b.lineRest :=
      congrArg ofText hslice
    rw [hstaged]
    exact scansAlike (hfit.suffix (rest_passed_suffix (ofText cs) k))

theorem scan_staged_comment :
    let b := ofText "#a\r\n@b\r\r".toList
    (∃ n, (b.scanned n).atEnd = true) ∧ b.scanned 1 = b.passed 1 ∧
      ScansAlike (b.passed 1) (b.passed 1).scanLine
        ((Cursor.ofText b.text).stage ⟨4, 7⟩).buffer.scanLine.1 := by
  intro b
  have hlength : ∀ l ∈ lines "#a\r\n@b\r\r".toList, l.length ≤ maxLineLength := by decide
  have hfirst : ∀ j < 1, ∃ l, (b.scanned j).scanLine.1 = .ok l := by
    intro j hj
    obtain rfl : j = 0 := by omega
    exact ⟨_, rfl⟩
  obtain ⟨hend, hcalls⟩ := scan_staged hlength
  obtain ⟨hsame, hline⟩ := hcalls 1 hfirst
  exact ⟨hend, hsame, (hline ⟨2, 4, "@b\r".toList⟩ (by decide)).2 (Cursor.ofText b.text) rfl⟩

/-- Behind the eighth token of a line the scanner stops, and it goes on from there. -/
theorem exists_scanned_ne_passed :
    let b := ofText "-> a b c d e f g h i\n#x".toList
    (∀ l ∈ lines b.text, l.length ≤ maxLineLength) ∧ b.scanLine.1 = .error .tooManyTokens ∧
      (b.scanned 1).position ≠ (b.passed 1).position ∧
        (b.scanned 1).scanLine.1 ≠ (b.passed 1).scanLine.1 := by
  decide +kernel

end Buffer

end PlatformRules
