import Mathlib.Data.List.Forall2
import PlatformRules.Proofs.Line.Lexemes

namespace PlatformRules

open Text

namespace Text

variable {cs g : List Char}

theorem trimStart_append_right {c : Char} {rest : List Char} (h : trimStart cs = c :: rest)
    (g : List Char) : trimStart (cs ++ g) = c :: (rest ++ g) := by
  unfold trimStart at h ⊢
  rw [List.dropWhile_append, h]
  rfl

theorem takeWhile_append_right {c : Char} {rest : List Char} (h : trimStart cs = c :: rest)
    (g : List Char) : (cs ++ g).takeWhile isBlank = cs.takeWhile isBlank := by
  have hc : ∀ d ∈ (c :: (rest ++ g)).head?, isBlank d = false := by
    intro d hd
    obtain rfl : c = d := by simpa using hd
    exact isBlank_head_trimStart h
  have hcs : cs ++ g = cs.takeWhile isBlank ++ c :: (rest ++ g) := by
    conv_lhs => rw [← takeWhile_trimStart cs, h, List.append_assoc, List.cons_append]
  rw [hcs]
  exact takeWhile_append_stop (isBlankRun_takeWhile cs) hc

theorem takeWhile_word_append (hg : IsBlankRun g) (cs : List Char) :
    (cs ++ g).takeWhile (!isBlank ·) = cs.takeWhile (!isBlank ·) := by
  have hsplit : cs ++ g = cs.takeWhile (!isBlank ·) ++ (cs.dropWhile (!isBlank ·) ++ g) := by
    rw [← List.append_assoc, List.takeWhile_append_dropWhile]
  rw [hsplit]
  exact takeWhile_word (not_blank_takeWhile cs) ((endsWord_dropWhile cs).append hg)

theorem dropWhile_word_append (hg : IsBlankRun g) (cs : List Char) :
    (cs ++ g).dropWhile (!isBlank ·) = cs.dropWhile (!isBlank ·) ++ g := by
  have hsplit : cs ++ g = cs.takeWhile (!isBlank ·) ++ (cs.dropWhile (!isBlank ·) ++ g) := by
    rw [← List.append_assoc, List.takeWhile_append_dropWhile]
  rw [hsplit]
  exact dropWhile_word (not_blank_takeWhile cs) ((endsWord_dropWhile cs).append hg)

end Text

def Token.Coincides (t u : Token) : Prop :=
  t = u ∨ t.kind = u.kind ∧ ∃ m n, t.range = some ⟨m, m⟩ ∧ u.range = some ⟨n, n⟩

theorem ByteRange.slice_empty (n : Nat) (source : List Char) :
    (⟨n, n⟩ : ByteRange).slice source = [] := by
  unfold slice
  rw [if_neg (by simp)]
  split
  · rfl
  · next front rest _ =>
    have hsplit := splitAt?_byteLength [] rest
    rw [byteLength_nil, List.nil_append] at hsplit
    rw [Nat.sub_self, hsplit]

theorem Token.Coincides.lexeme_eq {t u : Token} (h : t.Coincides u) (source : List Char) :
    t.lexeme source = u.lexeme source := by
  rcases h with rfl | ⟨hkind, m, n, ht, hu⟩
  · rfl
  · simp only [Token.lexeme, hkind, ht, hu, Option.map_some, ByteRange.slice_empty]

namespace Scan

theorem fields_of_blank {cs : List Char} (h : trimStart cs = []) (start : Nat) (done : List Piece) :
    fields start cs done = done.reverse := by
  rw [fields]
  split <;> simp_all

theorem fields_of_quote {cs rest : List Char} (h : trimStart cs = '"' :: rest) (start : Nat)
    (done : List Piece) : fields start cs done =
      done.reverse ++ value (start + byteLength (cs.takeWhile isBlank)) rest := by
  rw [fields]
  split <;> simp_all

theorem fields_of_word {c : Char} {cs rest : List Char} (h : trimStart cs = c :: rest)
    (hc : c ≠ '"') (start : Nat) (done : List Piece) :
    let word := c :: rest.takeWhile (!isBlank ·)
    let next := piece (.ofWord word) (start + byteLength (cs.takeWhile isBlank)) word
    fields start cs done = fields next.resume (rest.dropWhile (!isBlank ·)) (next :: done) := by
  rw [fields]
  split
  · simp_all
  · next h' =>
    obtain ⟨rfl, rfl⟩ := List.cons.inj (h'.symm.trans h)
    rw [if_neg hc]

def Piece.shift (n : Nat) (p : Piece) : Piece :=
  ⟨p.token.shift n, p.resume + n⟩

section

variable (n start : Nat) (kind : Token.Kind) (cs : List Char)

theorem piece_shift : piece kind (start + n) cs = (piece kind start cs).shift n := by
  have hstop : start + n + byteLength cs = start + byteLength cs + n := by omega
  simp only [piece, Piece.shift, Token.shift, ByteRange.shift, Option.map_some, hstop]

theorem trimmedPiece_shift : trimmedPiece kind (start + n) cs = (trimmedPiece kind start cs).shift n := by
  have hstop (cs : List Char) : start + n + byteLength cs = start + byteLength cs + n := by omega
  simp only [trimmedPiece, Piece.shift, Token.shift, ByteRange.shift, Option.map_some, hstop]

theorem remainder_shift : remainder kind (start + n) cs = (remainder kind start cs).shift n := by
  have hstart : start + n + byteLength (cs.takeWhile isBlank) =
      start + byteLength (cs.takeWhile isBlank) + n := by omega
  rw [remainder, hstart, trimmedPiece_shift]
  rfl

theorem value_shift : value (start + n) cs = (value start cs).map (·.shift n) := by
  rcases not_mem_or_eq_append_quote cs with hq | ⟨inside, after, rfl, hq⟩
  · simp only [value, dropWhile_reverse_of_not_mem hq, trimmedPiece_shift, List.map_cons,
      List.map_nil]
  · have hstart : start + n + 1 = start + 1 + n := by omega
    have hresume (k : Nat) : k + n + 1 = k + 1 + n := by omega
    simp only [value, dropWhile_reverse_quote hq, takeWhile_reverse_quote hq, hstart, piece_shift,
      List.map_cons]
    simp only [Piece.shift, hresume]
    congr 1
    split
    · rfl
    · simp only [List.map_cons, List.map_nil, remainder_shift]
      rfl

theorem fields_shift (done : List Piece) :
    fields (start + n) cs (done.map (·.shift n)) = (fields start cs done).map (·.shift n) := by
  fun_induction fields start cs done with
  | case1 start cs done hcs => rw [fields_of_blank hcs, List.map_reverse]
  | case2 start cs done begin rest hcs =>
    have hbegin : start + n + byteLength (cs.takeWhile isBlank) = begin + n := by omega
    rw [fields_of_quote hcs, hbegin, value_shift, List.map_append, List.map_reverse]
  | case3 start cs done begin c rest hcs hc word next ih =>
    have hbegin : start + n + byteLength (cs.takeWhile isBlank) = begin + n := by omega
    rw [fields_of_word hcs hc, hbegin, piece_shift]
    exact ih

theorem body_shift : body (start + n) cs = (body start cs).map (·.shift n) := by
  cases cs with
  | nil => rfl
  | cons c rest =>
    have hstart : start + n + 1 = start + 1 + n := by omega
    by_cases hcomment : c = '#'
    · simp only [body, hcomment, if_true, hstart, piece_shift, remainder_shift, List.map_cons,
        List.map_nil]
    · by_cases haction : c = '@'
      · have hsign : '@' ≠ '#' := by decide
        simp only [body, haction, hsign, if_true, if_false, hstart, piece_shift, List.map_cons,
          List.map_nil]
        exact congrArg (_ :: _ :: · :: []) (remainder_shift n _ _ _)
      · simp only [body, hcomment, haction, if_false, piece_shift]
        exact fields_shift n _ _ [_]

theorem line_shift : line (start + n) cs = (line start cs).map (·.shift n) := by
  have hblanks : start + n + byteLength (cs.takeWhile isBlank) =
      start + byteLength (cs.takeWhile isBlank) + n := by omega
  have hstop : start + n + byteLength cs = start + byteLength cs + n := by omega
  rw [line, hblanks, body_shift, hstop, line, List.map_append]
  rfl

end

section

variable {g : List Char} (hg : IsBlankRun g)
include hg

theorem token_remainder_append {cs : List Char} (kind : Token.Kind) (start : Nat)
    (h : trimStart cs ≠ []) : (remainder kind start (cs ++ g)).token = (remainder kind start cs).token := by
  obtain ⟨c, rest, hcs⟩ := List.exists_cons_of_ne_nil h
  have hrest : c :: (rest ++ g) = c :: rest ++ g := rfl
  simp only [remainder, trimmedPiece, takeWhile_append_right hcs, trimStart_append_right hcs, hcs,
    hrest, trimEnd_append hg]

theorem coincides_remainder_append (kind : Token.Kind) (start : Nat) (cs : List Char) :
    (remainder kind start (cs ++ g)).token.Coincides (remainder kind start cs).token := by
  by_cases hcs : trimStart cs = []
  · have hempty {ds : List Char} (h : trimStart ds = []) :
        ∃ n, (remainder kind start ds).token.range = some ⟨n, n⟩ := by
      refine ⟨start + byteLength (ds.takeWhile isBlank), ?_⟩
      simp only [remainder, trimmedPiece, h]
      rfl
    obtain ⟨m, hm⟩ := hempty (trimStart_eq_nil_iff.2 ((trimStart_eq_nil_iff.1 hcs).append hg))
    obtain ⟨n, hn⟩ := hempty hcs
    exact .inr ⟨rfl, m, n, hm, hn⟩
  · exact .inl (token_remainder_append hg kind start hcs)

theorem tokens_value_append (start : Nat) (cs : List Char) :
    (value start (cs ++ g)).map (·.token) = (value start cs).map (·.token) := by
  have hquote : '"' ∉ g := fun h => absurd (hg _ h) (by decide)
  rcases not_mem_or_eq_append_quote cs with hq | ⟨inside, after, rfl, hq⟩
  · have hboth : '"' ∉ cs ++ g := by simp [hq, hquote]
    have htrim : trimEnd ('"' :: (cs ++ g)) = trimEnd ('"' :: cs) := by
      rw [← List.cons_append, trimEnd_append hg]
    simp only [value, dropWhile_reverse_of_not_mem hq, dropWhile_reverse_of_not_mem hboth,
      trimmedPiece, htrim, List.map_cons, List.map_nil]
  · have hboth : '"' ∉ after ++ g := by simp [hq, hquote]
    rw [List.append_assoc, List.cons_append]
    simp only [value, dropWhile_reverse_quote hq, dropWhile_reverse_quote hboth,
      takeWhile_reverse_quote hq, takeWhile_reverse_quote hboth, List.map_cons]
    congr 1
    by_cases hafter : trimStart after = []
    · have hblank : trimStart (after ++ g) = [] :=
        trimStart_eq_nil_iff.2 ((trimStart_eq_nil_iff.1 hafter).append hg)
      rw [if_pos hafter, if_pos hblank]
    · obtain ⟨c, rest, hrest⟩ := List.exists_cons_of_ne_nil hafter
      have hnot : ¬trimStart (after ++ g) = [] := by simp [trimStart_append_right hrest]
      rw [if_neg hafter, if_neg hnot, List.map_cons, List.map_cons,
        token_remainder_append hg _ _ hafter]

theorem tokens_fields_append (start : Nat) (cs : List Char) (done : List Piece) :
    (fields start (cs ++ g) done).map (·.token) = (fields start cs done).map (·.token) := by
  fun_induction fields start cs done with
  | case1 start cs done hcs =>
    have hboth : trimStart (cs ++ g) = [] :=
      trimStart_eq_nil_iff.2 ((trimStart_eq_nil_iff.1 hcs).append hg)
    rw [fields_of_blank hboth]
  | case2 start cs done begin rest hcs =>
    rw [fields_of_quote (trimStart_append_right hcs g), takeWhile_append_right hcs, List.map_append,
      List.map_append, tokens_value_append hg]
  | case3 start cs done begin c rest hcs hc word next ih =>
    rw [fields_of_word (trimStart_append_right hcs g) hc, takeWhile_append_right hcs,
      takeWhile_word_append hg, dropWhile_word_append hg]
    exact ih

theorem coincides_body_append (start : Nat) (c : Char) (rest : List Char) :
    List.Forall₂ Token.Coincides ((body start (c :: (rest ++ g))).map (·.token))
      ((body start (c :: rest)).map (·.token)) := by
  have hself (t : Token) : t.Coincides t := .inl rfl
  by_cases hcomment : c = '#'
  · simp only [body, hcomment, if_true, List.map_cons, List.map_nil]
    exact .cons (hself _) (.cons (coincides_remainder_append hg _ _ rest) .nil)
  · by_cases haction : c = '@'
    · have hsign : '@' ≠ '#' := by decide
      simp only [body, haction, hsign, if_true, if_false, List.map_cons, List.map_nil,
        takeWhile_word_append hg, dropWhile_word_append hg]
      exact .cons (hself _) (.cons (hself _) (.cons (coincides_remainder_append hg _ _ _) .nil))
    · simp only [body, hcomment, haction, if_false, takeWhile_word_append hg,
        dropWhile_word_append hg, tokens_fields_append hg]
      exact List.forall₂_same.2 fun t _ => hself t

theorem coincides_line_append (start : Nat) (cs : List Char) :
    List.Forall₂ Token.Coincides ((line start (cs ++ g)).map (·.token))
      ((line start cs).map (·.token)) := by
  have hself (t : Token) : t.Coincides t := .inl rfl
  cases hcs : trimStart cs with
  | nil =>
    have hboth : trimStart (cs ++ g) = [] :=
      trimStart_eq_nil_iff.2 ((trimStart_eq_nil_iff.1 hcs).append hg)
    simp only [line, hcs, hboth]
    exact .cons (hself _) .nil
  | cons c rest =>
    have hbody := coincides_body_append hg (start + byteLength (cs.takeWhile isBlank)) c rest
    simp only [line, hcs, trimStart_append_right hcs, takeWhile_append_right hcs, List.map_append]
    exact List.rel_append hbody (.cons (hself _) .nil)

end

theorem tokens_line_shift (n start : Nat) (cs : List Char) :
    (line (start + n) cs).map (·.token) = ((line start cs).map (·.token)).map (·.shift n) := by
  rw [line_shift, List.map_map, List.map_map]
  rfl

theorem byteLength_takeWhile_add (p : Char → Bool) (cs : List Char) :
    byteLength (cs.takeWhile p) + byteLength (cs.dropWhile p) = byteLength cs := by
  rw [← byteLength_append, List.takeWhile_append_dropWhile]

def Piece.ResumesWithin (start bytes : Nat) (p : Piece) : Prop :=
  start ≤ p.resume ∧ p.resume ≤ start + bytes

theorem resume_remainder (kind : Token.Kind) (start : Nat) (cs : List Char) :
    (remainder kind start cs).resume = start + byteLength cs := by
  have hlength : byteLength (cs.takeWhile isBlank) + byteLength (trimStart cs) = byteLength cs :=
    byteLength_takeWhile_add isBlank cs
  simp only [remainder, trimmedPiece]
  omega

theorem resumes_value (start : Nat) (cs : List Char) :
    ∀ p ∈ value start cs, p.ResumesWithin start (byteLength ('"' :: cs)) := by
  intro p hp
  unfold Piece.ResumesWithin
  rcases not_mem_or_eq_append_quote cs with hq | ⟨inside, after, rfl, hq⟩
  · rw [value, dropWhile_reverse_of_not_mem hq, List.mem_singleton] at hp
    subst hp
    simp only [trimmedPiece]
    omega
  · have hquote : '"'.utf8Size = 1 := rfl
    rw [value, dropWhile_reverse_quote hq] at hp
    simp only [takeWhile_reverse_quote hq, List.reverse_reverse, List.mem_cons] at hp
    simp only [byteLength_cons, byteLength_append, hquote]
    rcases hp with rfl | hp
    · simp only [piece]
      omega
    · split at hp
      · simp at hp
      · rw [List.mem_singleton] at hp
        subst hp
        rw [resume_remainder]
        simp only [piece]
        omega

theorem resumes_fields (start : Nat) (cs : List Char) (done : List Piece) :
    ∀ p ∈ fields start cs done, p ∈ done ∨ p.ResumesWithin start (byteLength cs) := by
  fun_induction fields start cs done with
  | case1 start cs done hcs => exact fun p hp => .inl (List.mem_reverse.1 hp)
  | case2 start cs done begin rest hcs =>
    intro p hp
    have hlength := byteLength_takeWhile_add isBlank cs
    rw [show cs.dropWhile isBlank = '"' :: rest from hcs] at hlength
    rcases List.mem_append.1 hp with hp | hp
    · exact .inl (List.mem_reverse.1 hp)
    · have hvalue := resumes_value begin rest p hp
      unfold Piece.ResumesWithin at hvalue ⊢
      omega
  | case3 start cs done begin c rest hcs hc word next ih =>
    intro p hp
    have hlength := byteLength_takeWhile_add isBlank cs
    rw [show cs.dropWhile isBlank = c :: rest from hcs, byteLength_cons] at hlength
    have hword : byteLength word = c.utf8Size + byteLength (rest.takeWhile (!isBlank ·)) :=
      byteLength_cons ..
    have hrest := byteLength_takeWhile_add (!isBlank ·) rest
    have hnext : next.resume = begin + byteLength word := rfl
    unfold Piece.ResumesWithin at ih ⊢
    rcases ih p hp with hdone | hp
    · rcases List.mem_cons.1 hdone with rfl | hdone
      · omega
      · exact .inl hdone
    · omega

theorem resumes_body (start : Nat) (c : Char) (rest : List Char) : ∀ p ∈ body start (c :: rest),
    p.ResumesWithin (start + c.utf8Size) (byteLength rest) := by
  have hrest := byteLength_takeWhile_add (!isBlank ·) rest
  intro p hp
  unfold Piece.ResumesWithin
  by_cases hcomment : c = '#'
  · subst hcomment
    have hsize : '#'.utf8Size = 1 := rfl
    simp only [body, if_true, List.mem_cons, List.not_mem_nil, or_false] at hp
    rw [hsize]
    rcases hp with rfl | rfl
    · simp [piece, hsize]
    · rw [resume_remainder]
      omega
  · by_cases haction : c = '@'
    · subst haction
      have hsize : '@'.utf8Size = 1 := rfl
      simp only [body, hcomment, if_true, if_false, List.mem_cons, List.not_mem_nil,
        or_false] at hp
      rw [hsize]
      rcases hp with rfl | rfl | rfl
      · simp [piece, hsize]
      · simp only [piece]
        omega
      · rw [resume_remainder]
        simp only [piece]
        omega
    · simp only [body, hcomment, haction, if_false] at hp
      have hword : byteLength (c :: rest.takeWhile (!isBlank ·)) =
          c.utf8Size + byteLength (rest.takeWhile (!isBlank ·)) := byteLength_cons ..
      rcases resumes_fields _ _ _ p hp with hp | hp
      · rw [List.mem_singleton] at hp
        subst hp
        simp only [piece]
        omega
      · unfold Piece.ResumesWithin at hp
        simp only [piece] at hp
        omega

theorem resumes_line (start : Nat) (c : Char) (rest : List Char) : ∀ p ∈ line start (c :: rest),
    p.ResumesWithin (start + c.utf8Size) (byteLength rest) := by
  intro p hp
  rw [line, List.mem_append, List.mem_singleton] at hp
  rcases hp with hp | rfl
  · by_cases hc : isBlank c
    · have hlength := byteLength_takeWhile_add isBlank rest
      rw [trimStart, List.dropWhile_cons_of_pos hc, List.takeWhile_cons_of_pos hc,
        byteLength_cons] at hp
      cases hrest : rest.dropWhile isBlank with
      | nil => simp [hrest, body] at hp
      | cons d ds =>
        rw [hrest] at hp hlength
        have hbody := resumes_body _ d ds p hp
        rw [byteLength_cons] at hlength
        unfold Piece.ResumesWithin at hbody ⊢
        omega
    · rw [Bool.not_eq_true] at hc
      rw [trimStart_cons hc, List.takeWhile_cons_of_neg (by simp [hc])] at hp
      exact resumes_body start c rest p hp
  · simp only [Piece.ResumesWithin, byteLength_cons]
    omega

end Scan

theorem Lexeme.ofLine_append {g : List Char} (hg : IsBlankRun g) (cs : List Char) :
    ofLine (cs ++ g) = ofLine cs := by
  have hboth := StandsAt.prefixOf (cs ++ g) []
  have hleft := StandsAt.prefixOf cs g
  rw [List.append_nil] at hboth
  rw [← Scan.lexemes_line hboth, ← Scan.lexemes_line hleft]
  have hlexemes : List.Forall₂ Eq ((Scan.line 0 (cs ++ g)).map (·.lexeme (cs ++ g)))
      ((Scan.line 0 cs).map (·.lexeme (cs ++ g))) := by
    have hcoincides := Scan.coincides_line_append hg 0 cs
    rw [List.forall₂_map_left_iff, List.forall₂_map_right_iff] at hcoincides ⊢
    exact hcoincides.imp fun p q h => h.lexeme_eq (cs ++ g)
  rwa [List.forall₂_eq_eq_eq] at hlexemes

end PlatformRules
