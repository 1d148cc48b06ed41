import PlatformRules.Proofs.Document.Reading
import PlatformRules.Proofs.Line.Canonical
import PlatformRules.Proofs.Line.Shifted

namespace PlatformRules

open Text

namespace Scan

def Piece.Fits (p : Piece) : Prop :=
  ∀ r ∈ p.token.range, r.start ≤ r.stop ∧ r.stop ≤ p.resume

theorem fits_piece (kind : Token.Kind) (start : Nat) (cs : List Char) :
    (piece kind start cs).Fits := by
  rintro r ⟨⟩
  exact ⟨Nat.le_add_right .., Nat.le_refl _⟩

theorem fits_trimmedPiece (kind : Token.Kind) (start : Nat) (cs : List Char) :
    (trimmedPiece kind start cs).Fits := by
  have hlength := byteLength_trimEnd_le cs
  rintro r ⟨⟩
  simp only [trimmedPiece]
  omega

theorem fits_value (start : Nat) (cs : List Char) : ∀ p ∈ value start cs, p.Fits := by
  intro p hp
  unfold value at hp
  split at hp
  · rw [List.mem_singleton] at hp
    exact hp ▸ fits_trimmedPiece _ _ _
  · rcases List.mem_cons.1 hp with rfl | hp
    · -- Scanning goes on behind the closing quote.
      rintro r ⟨⟩
      simp only [piece]
      omega
    · split at hp
      · simp at hp
      · rw [List.mem_singleton] at hp
        exact hp ▸ fits_trimmedPiece _ _ _

theorem fits_fields (start : Nat) (cs : List Char) {done : List Piece}
    (hdone : ∀ p ∈ done, p.Fits) : ∀ p ∈ fields start cs done, p.Fits := by
  fun_induction fields start cs done with
  | case1 start cs done hcs => exact fun p hp => hdone p (List.mem_reverse.1 hp)
  | case2 start cs done begin rest hcs =>
    intro p hp
    rcases List.mem_append.1 hp with hp | hp
    · exact hdone p (List.mem_reverse.1 hp)
    · exact fits_value _ _ p hp
  | case3 start cs done begin c rest hcs hc word next ih =>
    apply ih
    intro p hp
    rcases List.mem_cons.1 hp with rfl | hp
    · exact fits_piece _ _ _
    · exact hdone p hp

theorem fits_body (start : Nat) (cs : List Char) : ∀ p ∈ body start cs, p.Fits := by
  cases cs with
  | nil => simp [body]
  | cons c rest =>
    intro p hp
    by_cases hcomment : c = '#'
    · subst hcomment
      simp only [body, if_true, List.mem_cons, List.not_mem_nil, or_false] at hp
      rcases hp with rfl | rfl
      · exact fits_piece _ _ _
      · exact fits_trimmedPiece _ _ _
    · by_cases haction : c = '@'
      · subst haction
        simp only [body, hcomment, if_true, if_false, List.mem_cons, List.not_mem_nil,
          or_false] at hp
        rcases hp with rfl | rfl | rfl
        · exact fits_piece _ _ _
        · exact fits_piece _ _ _
        · exact fits_trimmedPiece _ _ _
      · simp only [body, hcomment, haction, if_false] at hp
        refine fits_fields _ _ ?_ p hp
        intro q hq
        rw [List.mem_singleton] at hq
        exact hq ▸ fits_piece _ _ _

theorem fits_line (start : Nat) (cs : List Char) : ∀ p ∈ line start cs, p.Fits := by
  intro p hp
  rw [line, List.mem_append, List.mem_singleton] at hp
  rcases hp with hp | rfl
  · exact fits_body _ _ p hp
  · rintro r ⟨⟩

end Scan

namespace Token

def IsInside (text : List Char) (t : Token) : Prop :=
  ∀ r ∈ t.range, r.start ≤ r.stop ∧ r.stop ≤ byteLength text

end Token

namespace Line

variable [Limits] {text : List Char} {raw line : Line}

theorem isInside_of_scan (h : scan 0 text = .ok raw) : ∀ t ∈ raw.tokens, t.IsInside text := by
  rw [(scan_eq_ok_iff.1 h).2]
  intro t ht
  obtain ⟨p, hp, rfl⟩ := List.mem_map.1 ht
  have hresume : p.resume ≤ byteLength text := by
    cases text with
    | nil =>
      obtain rfl : p = ⟨.synthetic .lineEnd, 0⟩ := by
        simpa [Scan.line, Scan.body, trimStart] using hp
      exact Nat.le_refl 0
    | cons c rest =>
      have hwithin := Scan.resumes_line 0 c rest p hp
      unfold Scan.Piece.ResumesWithin at hwithin
      rw [byteLength_cons]
      omega
  intro r hr
  have hfits := Scan.fits_line _ _ p hp r hr
  omega

theorem isInside_of_ofText (h : ofText text = .ok raw) : ∀ t ∈ raw.tokens, t.IsInside text := by
  have hlength := byteLength_withoutReturn_le text
  intro t ht r hr
  have hinside := isInside_of_scan h t ht r hr
  omega

end Line

theorem Line.isInside_of_canonical {text : List Char} {raw line : Line}
    (h : ∀ t ∈ raw.tokens, t.IsInside text) (hcanonical : raw.canonical = .ok line) :
    ∀ t ∈ line.tokens, t.IsInside text := by
  intro t ht
  rcases mem_canonical hcanonical t ht with ht | hadded
  · exact h t ht
  · intro r hr
    simp [hadded.1] at hr

theorem Document.isInside_of_readLine [Limits] {text : List Char} {r : ReadLine}
    (h : readLine text = .ok r) : ∀ t ∈ r.line.tokens, t.IsInside text := by
  obtain ⟨line, hraw, hcanonical, -, hline⟩ := readLine_eq_ok_iff.1 h
  have hinside := Line.isInside_of_canonical (Line.isInside_of_ofText hraw) hcanonical
  intro t ht
  rw [hline] at ht
  unfold openEnded at ht
  split at ht
  · exact hinside t (List.dropLast_subset _ ht)
  · exact hinside t ht

end PlatformRules
