import PlatformRules.Line.Scan
import PlatformRules.Proofs.Text.Runs
import PlatformRules.Proofs.Text.Slices

/-!
Lexemes: tokens by their kind and text, wherever they stand. The scanner is followed once through
the text of a line; `lexemes_scan` says which lexemes come out, and offsets play no part from there.
-/

namespace PlatformRules

open Text

structure Lexeme where
  kind : Token.Kind
  text : Option (List Char)
deriving DecidableEq

def Token.lexeme (source : List Char) (t : Token) : Lexeme :=
  ⟨t.kind, t.range.map (·.slice source)⟩

namespace Lexeme

def synthetic (k : Token.Kind) : Lexeme := ⟨k, none⟩

def word (w : List Char) : Lexeme := ⟨.ofWord w, some w⟩

def ofValue (cs : List Char) : List Lexeme :=
  match cs.reverse.dropWhile (· ≠ '"') with
  | [] => [⟨.undefined, some (trimEnd ('"' :: cs))⟩]
  | _ :: inside =>
    let after := (cs.reverse.takeWhile (· ≠ '"')).reverse
    ⟨.value, some inside.reverse⟩ ::
      if trimStart after = [] then [] else [⟨.undefined, some (trim after)⟩]

def ofFields (cs : List Char) : List Lexeme :=
  match _h : trimStart cs with
  | [] => []
  | c :: rest =>
    if c = '"' then ofValue rest
    else word (c :: rest.takeWhile (!isBlank ·)) :: ofFields (rest.dropWhile (!isBlank ·))
termination_by cs.length
decreasing_by
  have h1 := (List.dropWhile_suffix (p := isBlank) (l := cs)).length_le
  have h2 := (List.dropWhile_suffix (p := (!isBlank ·)) (l := rest)).length_le
  simp only [trimStart] at _h
  simp only [_h, List.length_cons] at h1
  omega

def ofBody : List Char → List Lexeme
  | [] => []
  | c :: rest =>
    if c = '#' then [⟨.commentSign, some [c]⟩, ⟨.commentText, some (trim rest)⟩]
    else if c = '@' then
      [⟨.actionSign, some [c]⟩, ⟨.actionName, some (rest.takeWhile (!isBlank ·))⟩,
        ⟨.actionArgument, some (trim (rest.dropWhile (!isBlank ·)))⟩]
    else
      let first := c :: rest.takeWhile (!isBlank ·)
      ⟨.ofOperatorWord first, some first⟩ :: ofFields (rest.dropWhile (!isBlank ·))

def ofLine (cs : List Char) : List Lexeme :=
  ofBody (trimStart cs) ++ [synthetic .lineEnd]

end Lexeme

namespace Scan

def Piece.lexeme (source : List Char) (p : Piece) : Lexeme :=
  p.token.lexeme source

variable {source : List Char} {start : Nat} {cs : List Char}

theorem lexeme_piece (k : Token.Kind) (h : StandsAt source start cs) :
    (piece k start cs).lexeme source = ⟨k, some cs⟩ := by
  simp only [Piece.lexeme, piece, Token.lexeme, Option.map_some, h.slice]

theorem lexeme_trimmedPiece (k : Token.Kind) (h : StandsAt source start cs) :
    (trimmedPiece k start cs).lexeme source = ⟨k, some (trimEnd cs)⟩ := by
  obtain ⟨g, _, hg⟩ := exists_trimEnd_append cs
  rw [← hg] at h
  simp only [Piece.lexeme, trimmedPiece, Token.lexeme, Option.map_some, h.left.slice]

theorem lexeme_remainder (k : Token.Kind) (h : StandsAt source start cs) :
    (remainder k start cs).lexeme source = ⟨k, some (trim cs)⟩ := by
  rw [← takeWhile_trimStart cs] at h
  exact lexeme_trimmedPiece k h.right

theorem not_mem_or_eq_append_quote (cs : List Char) :
    '"' ∉ cs ∨ ∃ inside after, cs = inside ++ '"' :: after ∧ '"' ∉ after := by
  induction cs with
  | nil => simp
  | cons c cs ih =>
    rcases ih with ih | ⟨inside, after, rfl, ha⟩
    · by_cases hc : c = '"'
      · exact .inr ⟨[], cs, by simp [hc], ih⟩
      · exact .inl (by simp [Ne.symm hc, ih])
    · exact .inr ⟨c :: inside, after, rfl, ha⟩

theorem ne_quote_of_mem_reverse (h : '"' ∉ cs) : ∀ c ∈ cs.reverse, decide (c ≠ '"') := by
  intro c hc
  have : c ≠ '"' := fun he => h (he ▸ List.mem_reverse.1 hc)
  simpa using this

theorem dropWhile_reverse_of_not_mem (h : '"' ∉ cs) : cs.reverse.dropWhile (· ≠ '"') = [] :=
  List.dropWhile_eq_nil_iff.2 (ne_quote_of_mem_reverse h)

section

variable {inside after : List Char} (h : '"' ∉ after)
include h

theorem takeWhile_reverse_quote :
    ((inside ++ '"' :: after).reverse.takeWhile (· ≠ '"')).reverse = after := by
  rw [List.reverse_append, List.reverse_cons, List.append_assoc,
    takeWhile_append_stop (ne_quote_of_mem_reverse h) (by simp), List.reverse_reverse]

theorem dropWhile_reverse_quote :
    (inside ++ '"' :: after).reverse.dropWhile (· ≠ '"') = '"' :: inside.reverse := by
  rw [List.reverse_append, List.reverse_cons, List.append_assoc,
    dropWhile_append_stop (ne_quote_of_mem_reverse h) (by simp)]
  rfl

end

end Scan

namespace Lexeme

variable {cs inside after : List Char}

theorem ofValue_open (h : '"' ∉ cs) :
    ofValue cs = [⟨.undefined, some (trimEnd ('"' :: cs))⟩] := by
  rw [ofValue, Scan.dropWhile_reverse_of_not_mem h]

theorem ofValue_closed (h : '"' ∉ after) : ofValue (inside ++ '"' :: after) =
    ⟨.value, some inside⟩ ::
      if trimStart after = [] then [] else [⟨.undefined, some (trim after)⟩] := by
  rw [ofValue, Scan.dropWhile_reverse_quote h]
  simp only [Scan.takeWhile_reverse_quote h, List.reverse_reverse]

section

variable {c : Char} {rest : List Char}

theorem ofFields_of_blank (h : trimStart cs = []) : ofFields cs = [] := by
  rw [ofFields]
  split <;> simp_all

theorem ofFields_of_quote (h : trimStart cs = '"' :: rest) : ofFields cs = ofValue rest := by
  rw [ofFields]
  split <;> simp_all

theorem ofFields_of_word (h : trimStart cs = c :: rest) (hc : c ≠ '"') : ofFields cs =
    word (c :: rest.takeWhile (!isBlank ·)) :: ofFields (rest.dropWhile (!isBlank ·)) := by
  rw [ofFields]
  split
  · simp_all
  · next h' =>
    obtain ⟨rfl, rfl⟩ := List.cons.inj (h'.symm.trans h)
    rw [if_neg hc]

end

end Lexeme

namespace Scan

variable {source : List Char} {start : Nat} {cs : List Char}

theorem lexemes_value (h : StandsAt source start ('"' :: cs)) :
    (value start cs).map (·.lexeme source) = Lexeme.ofValue cs := by
  rcases not_mem_or_eq_append_quote cs with hq | ⟨inside, after, rfl, hq⟩
  · rw [Lexeme.ofValue_open hq, value, dropWhile_reverse_of_not_mem hq]
    simp only [List.map_cons, List.map_nil, lexeme_trimmedPiece _ h]
  · have hquote : byteLength ['"'] = 1 := by decide
    have hinside : StandsAt source (start + 1) (inside ++ (['"'] ++ after)) := by
      have := StandsAt.right (a := ['"']) h
      rwa [hquote] at this
    have hafter : StandsAt source (start + 1 + byteLength inside + 1) after := by
      have := hinside.right.right
      rwa [hquote] at this
    have hvalue : Token.lexeme source (piece .value (start + 1) inside).token = ⟨.value, some inside⟩ :=
      lexeme_piece .value hinside.left
    rw [Lexeme.ofValue_closed hq, value, dropWhile_reverse_quote hq]
    simp only [takeWhile_reverse_quote hq, List.reverse_reverse, List.map_cons, Piece.lexeme, hvalue]
    congr 1
    split
    · rfl
    · simp only [List.map_cons, List.map_nil]
      exact congrArg (· :: []) (lexeme_remainder .undefined hafter)

theorem lexemes_fields (start : Nat) (cs : List Char) (done : List Piece)
    (h : StandsAt source start cs) : (fields start cs done).map (·.lexeme source) =
      done.reverse.map (·.lexeme source) ++ Lexeme.ofFields cs := by
  fun_induction fields start cs done with
  | case1 start cs done hcs => rw [Lexeme.ofFields_of_blank hcs, List.append_nil]
  | case2 start cs done begin rest hcs =>
    rw [← takeWhile_trimStart cs, hcs] at h
    rw [Lexeme.ofFields_of_quote hcs, List.map_append, lexemes_value h.right]
  | case3 start cs done begin c rest hcs hc word next ih =>
    rw [← takeWhile_trimStart cs, hcs, show c :: rest = word ++ rest.dropWhile (!isBlank ·) by
      simp [word]] at h
    have hnext : next.lexeme source = Lexeme.word word := lexeme_piece _ h.right.left
    rw [ih h.right.right, Lexeme.ofFields_of_word hcs hc, List.reverse_cons, List.map_append,
      List.append_assoc, List.map_cons, hnext]
    rfl

theorem lexemes_body (h : StandsAt source start cs) :
    (body start cs).map (·.lexeme source) = Lexeme.ofBody cs := by
  cases cs with
  | nil => rfl
  | cons c rest =>
    have hsign : StandsAt source start ([c] ++ rest) := h
    by_cases hcomment : c = '#'
    · subst hcomment
      have htext : StandsAt source (start + 1) rest := hsign.right
      rw [body, Lexeme.ofBody, if_pos rfl, if_pos rfl]
      simp only [List.map_cons, List.map_nil, lexeme_piece _ hsign.left, lexeme_remainder _ htext]
    · by_cases haction : c = '@'
      · subst haction
        have hrest : StandsAt source (start + 1) rest := hsign.right
        rw [← List.takeWhile_append_dropWhile (p := (!isBlank ·)) (l := rest)] at hrest
        have hname := lexeme_piece .actionName hrest.left
        have hargument := lexeme_remainder .actionArgument hrest.right
        rw [body, Lexeme.ofBody, if_neg hcomment, if_pos rfl, if_neg hcomment, if_pos rfl]
        simp only [List.map_cons, List.map_nil, lexeme_piece _ hsign.left, hname]
        exact congrArg (_ :: _ :: · :: []) hargument
      · let word := c :: rest.takeWhile (!isBlank ·)
        rw [show c :: rest = word ++ rest.dropWhile (!isBlank ·) by simp [word]] at h
        have hfirst := lexeme_piece (.ofOperatorWord word) h.left
        have hfields := lexemes_fields _ _ [piece (.ofOperatorWord word) start word] h.right
        rw [body, Lexeme.ofBody, if_neg hcomment, if_neg haction, if_neg hcomment, if_neg haction]
        exact hfields.trans (congrArg (· :: _) hfirst)

theorem lexemes_line (h : StandsAt source start cs) :
    (line start cs).map (·.lexeme source) = Lexeme.ofLine cs := by
  rw [← takeWhile_trimStart cs] at h
  rw [line, Lexeme.ofLine, List.map_append, lexemes_body h.right]
  rfl

end Scan

end PlatformRules
