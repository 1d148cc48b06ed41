import Mathlib.Order.Bounds.Basic
import PlatformRules.Proofs.Line.Staged
import PlatformRules.Text.Marked

namespace PlatformRules

namespace Text

def IsBoundary (offset : Nat) (cs : List Char) : Prop :=
  ∃ front back, cs = front ++ back ∧ byteLength front = offset

variable {offset : Nat} {cs : List Char}

theorem isBoundary_iff : isBoundary offset cs ↔ IsBoundary offset cs := by
  constructor
  · intro h
    obtain ⟨parts, hparts⟩ := Option.isSome_iff_exists.1 h
    simp only [splitAt?] at hparts
    split at hparts
    · next hlength => exact ⟨_, _, (splitWithin_append offset cs).symm, hlength⟩
    · cases hparts
  · rintro ⟨front, back, rfl, rfl⟩
    rw [isBoundary, splitAt?_byteLength]
    rfl

theorem IsBoundary.le (h : IsBoundary offset cs) : offset ≤ byteLength cs := by
  obtain ⟨front, back, rfl, rfl⟩ := h
  rw [byteLength_append]
  exact Nat.le_add_right ..

theorem byteLength_front_le {n : Nat} (front back : List Char) (h : byteLength front ≤ n) :
    byteLength front ≤ byteLength (splitWithin n (front ++ back)).1 := by
  induction front generalizing n with
  | nil => exact Nat.zero_le _
  | cons c front ih =>
    rw [byteLength_cons] at h
    have hrest := ih (show byteLength front ≤ n - c.utf8Size by omega)
    rw [List.cons_append, splitWithin_cons, if_pos (by omega), byteLength_cons, byteLength_cons]
    omega

theorem isGreatest_splitWithin (n : Nat) (cs : List Char) :
    IsGreatest {k | IsBoundary k cs ∧ k ≤ n} (byteLength (splitWithin n cs).1) := by
  refine ⟨⟨⟨_, _, (splitWithin_append n cs).symm, rfl⟩, byteLength_splitWithin_le n cs⟩, ?_⟩
  rintro _ ⟨⟨front, back, rfl, rfl⟩, hle⟩
  exact byteLength_front_le front back hle

theorem isGreatest_le_succ {p : Nat → Prop} {n stop : Nat} (hnot : ¬p (n + 1))
    (h : IsGreatest {k | p k ∧ k ≤ n} stop) : IsGreatest {k | p k ∧ k ≤ n + 1} stop := by
  obtain ⟨⟨hmem, hle⟩, hupper⟩ := h
  refine ⟨⟨hmem, Nat.le_succ_of_le hle⟩, ?_⟩
  rintro k ⟨hk, hkn⟩
  have hne : k ≠ n + 1 := fun h => hnot (h ▸ hk)
  exact hupper ⟨hk, by omega⟩

theorem isGreatest_snap (cs : List Char) (n : Nat) :
    IsGreatest {k | IsBoundary k cs ∧ k ≤ n} (snap cs n) := by
  induction n with
  | zero => exact ⟨⟨⟨[], cs, rfl, rfl⟩, Nat.le_refl 0⟩, fun k hk => hk.2⟩
  | succ n ih =>
    rw [snap]
    split
    · next hboundary => exact ⟨⟨isBoundary_iff.1 hboundary, Nat.le_refl _⟩, fun k hk => hk.2⟩
    · next hnot => exact isGreatest_le_succ (fun h => hnot (isBoundary_iff.2 h)) ih

theorem snap_eq (cs : List Char) (n : Nat) :
    snap cs (min n (byteLength cs)) = byteLength (splitWithin n cs).1 := by
  refine (isGreatest_snap cs _).unique ?_
  obtain ⟨⟨hmem, hle⟩, hupper⟩ := isGreatest_splitWithin n cs
  exact ⟨⟨hmem, Nat.le_min.2 ⟨hle, hmem.le⟩⟩, fun k hk => hupper ⟨hk.1, (Nat.le_min.1 hk.2).1⟩⟩

theorem byteLength_eq_zero : byteLength cs = 0 ↔ cs = [] := by
  refine ⟨fun h => ?_, fun h => h ▸ rfl⟩
  by_contra hne
  have := one_le_byteLength hne
  omega

theorem from?_byteLength (front back : List Char) :
    from? (byteLength front) (front ++ back) = some back := by
  rw [from?, splitAt?_byteLength, Option.map_some]

theorem cut?_byteLength (front part back : List Char) :
    cut? (byteLength front) (byteLength front + byteLength part) (front ++ (part ++ back)) =
      some part := by
  rw [cut?, if_neg (by omega), from?_byteLength, Option.bind_some, Nat.add_sub_cancel_left,
    splitAt?_byteLength, Option.map_some]

theorem getD_find? (p : Char → Bool) (cs : List Char) :
    (find? p cs).getD (byteLength cs) = byteLength (cs.takeWhile fun c => !p c) := by
  induction cs with
  | nil => rfl
  | cons c cs ih =>
    rw [find?, List.takeWhile_cons]
    by_cases hc : p c = true
    · simp [hc]
    · rw [if_neg hc, if_pos (by simpa using hc), byteLength_cons, byteLength_cons, ← ih]
      cases find? p cs <;> rfl

theorem find?_eq_none {p : Char → Bool} (h : ∀ c ∈ cs, p c = false) : find? p cs = none := by
  induction cs with
  | nil => rfl
  | cons c cs ih =>
    obtain ⟨hc, hcs⟩ := List.forall_mem_cons.1 h
    rw [find?, hc, ih hcs]
    rfl

theorem find?_append_cons {p : Char → Bool} {c : Char} (h : ∀ c ∈ cs, p c = false) (hc : p c = true)
    (ds : List Char) : find? p (cs ++ c :: ds) = some (byteLength cs) := by
  induction cs with
  | nil => rw [List.nil_append, find?, if_pos hc, byteLength_nil]
  | cons d cs ih =>
    obtain ⟨hd, hcs⟩ := List.forall_mem_cons.1 h
    rw [List.cons_append, find?, hd, ih hcs, byteLength_cons]
    rfl

theorem bytesUntil_eq (p : Char → Nat → Bool) (cs : List Char) :
    bytesUntil p cs = byteLength (cs.take (Buffer.countUntil p cs)) := by
  have hgo (cs : List Char) (index passed : Nat) : index ≤ Buffer.countUntil.go p cs index ∧
      bytesUntil.go p cs index passed =
        passed + byteLength (cs.take (Buffer.countUntil.go p cs index - index)) := by
    induction cs generalizing index passed with
    | nil => simp [Buffer.countUntil.go, bytesUntil.go]
    | cons c cs ih =>
      rw [Buffer.countUntil.go, bytesUntil.go]
      split
      · rw [Nat.add_sub_cancel_left]
        simp
      · obtain ⟨hle, hpassed⟩ := ih (index + 1) (passed + c.utf8Size)
        obtain ⟨k, hk⟩ := Nat.exists_eq_add_of_le hle
        have hcount : Buffer.countUntil.go p cs (index + 1) - index = k + 1 := by omega
        have hrest : Buffer.countUntil.go p cs (index + 1) - (index + 1) = k := by omega
        refine ⟨by omega, ?_⟩
        rw [hpassed, hcount, hrest, List.take_succ_cons, byteLength_cons, Nat.add_assoc]
  obtain ⟨-, hpassed⟩ := hgo cs 0 0
  rw [bytesUntil, hpassed, Nat.zero_add, Nat.sub_zero, Buffer.countUntil]

theorem find?_of_not_mem (h : '\n' ∉ cs) : find? (· == '\n') cs = none :=
  find?_eq_none fun _ hc => beq_false_of_ne (ne_of_mem_of_not_mem hc h)

theorem find?_of_line {line : List Char} (h : '\n' ∉ line) (more : List Char) :
    find? (· == '\n') (line ++ '\n' :: more) = some (byteLength line) :=
  find?_append_cons (fun _ hc => beq_false_of_ne (ne_of_mem_of_not_mem hc h)) rfl more

theorem firstLine?_eq (cs : List Char) : firstLine? cs = some (cs.takeWhile (· ≠ '\n')) := by
  have hfeed := not_mem_takeWhile cs
  rcases eq_takeWhile_or cs with hcs | ⟨more, hcs⟩
  · rw [firstLine?, find?_of_not_mem (hcs ▸ hfeed), ← hcs]
  · generalize cs.takeWhile (· ≠ '\n') = line at hcs hfeed
    have hcut := cut?_byteLength [] line ('\n' :: more)
    rw [byteLength_nil, Nat.zero_add, List.nil_append] at hcut
    rw [firstLine?, hcs, find?_of_line hfeed]
    exact hcut

theorem lineBytes_eq (cs : List Char) : lineBytes cs = (byteLength (cs.takeWhile (· ≠ '\n')),
    byteLength (cs.take ((cs.takeWhile (· ≠ '\n')).length + 1))) := by
  have hfeed := not_mem_takeWhile cs
  rcases eq_takeWhile_or cs with hcs | ⟨more, hcs⟩
  · rw [lineBytes, find?_of_not_mem (hcs ▸ hfeed), ← hcs, List.take_of_length_le (Nat.le_succ _)]
  · generalize cs.takeWhile (· ≠ '\n') = line at hcs hfeed
    have htake : (line ++ '\n' :: more).take (line.length + 1) = line ++ ['\n'] := by
      rw [List.take_length_add_append, List.take_succ_cons, List.take_zero]
    have hlength : byteLength (line ++ ['\n']) = byteLength line + 1 := byteLength_append ..
    rw [lineBytes, hcs, find?_of_line hfeed, htake, hlength]

end Text

open Text

namespace Buffer

def perform (b : Buffer) : Reading → CursorAnswer × Buffer
  | .char => (.char b.read?.1, b.read?.2)
  | .chars n => (.range (b.readChars n).1, (b.readChars n).2)
  | .line => (.range b.readLine?.1, b.readLine?.2)
  | .upTo p => (.range (b.readUntil p).1, (b.readUntil p).2)
  | .word acrossLines => (.range (b.readWord acrossLines).1, (b.readWord acrossLines).2)
  | .blanks acrossLines => (.count (b.skipBlanks acrossLines).1, (b.skipBlanks acrossLines).2)
  | .lineBlanks => (.count b.skipLineBlanks.1, b.skipLineBlanks.2)
  | .toLineEnd => (.range b.readToLineEnd.1, b.readToLineEnd.2)
  | .toEnd => (.range b.readToEnd.1, b.readToEnd.2)

theorem byteLength_text (b : Buffer) : byteLength b.text = b.position + byteLength b.rest := by
  rw [text, byteLength_append, byteLength_reverse, b.position_eq]

theorem exists_rest_eq (b : Buffer) : ∃ feed more, b.rest = b.rawLine ++ (feed ++ more) ∧
    (feed = ['\n'] ∨ feed = [] ∧ more = []) := by
  rcases eq_takeWhile_or b.rest with hrest | ⟨more, hrest⟩
  · exact ⟨[], [], by rw [List.append_nil, List.append_nil]; exact hrest, .inr ⟨rfl, rfl⟩⟩
  · exact ⟨['\n'], more, hrest, .inl rfl⟩

end Buffer

namespace Marked

variable (b : Buffer)

theorem from?_position : from? b.position b.text = some b.rest := by
  rw [b.position_eq_reverse, Buffer.text, from?_byteLength]

@[simp] theorem rest?_ofBuffer : (ofBuffer b).rest? = some b.rest :=
  from?_position b

-- a mark inside of a character has no rest
example : (⟨['é'], 1⟩ : Marked).rest? = none := by decide

theorem atEnd_ofBuffer : (ofBuffer b).atEnd = b.atEnd := by
  have hend : byteLength b.text ≤ b.position ↔ b.rest = [] := by
    rw [b.byteLength_text, ← byteLength_eq_zero]
    omega
  rw [Bool.eq_iff_iff, atEnd, ofBuffer, decide_eq_true_iff, hend, Buffer.atEnd, List.isEmpty_iff]

theorem moved_ofBuffer (n : Nat) :
    (ofBuffer b).moved (byteLength (b.rest.take n)) = ofBuffer (b.advance n) := by
  rw [moved, ofBuffer, ofBuffer, Buffer.text_advance, Buffer.position_advance]

theorem pass_ofBuffer (n : Nat) : (ofBuffer b).pass (byteLength (b.rest.take n)) =
    (.range (b.readChars n).1, ofBuffer (b.readChars n).2) := by
  rw [pass, moved_ofBuffer]
  rfl

theorem skip_ofBuffer (n : Nat) : (ofBuffer b).skip (byteLength (b.rest.take n)) =
    (.count (b.skipChars n).1, ofBuffer (b.skipChars n).2) := by
  rw [skip, moved_ofBuffer]
  rfl

variable {b} in
theorem byteLength_take_of_prefix {part : List Char} (h : part <+: b.rest) :
    byteLength part = byteLength (b.rest.take part.length) := by
  rw [← List.prefix_iff_eq_take.1 h]

@[simp] theorem lineRest?_ofBuffer : (ofBuffer b).lineRest? = some b.lineRest := by
  rw [lineRest?, rest?_ofBuffer, Option.bind_some, firstLine?_eq]
  rfl

theorem stop_eq (start : Nat) (line : List Char) :
    (if line.getLast? = some '\r' then start + byteLength line - 1 else start + byteLength line) =
      start + byteLength (withoutReturn line) := by
  unfold withoutReturn
  split
  · next h =>
    obtain ⟨ds, rfl⟩ := List.getLast?_eq_some_iff.1 h
    have hreturn : byteLength (ds ++ ['\r']) = byteLength ds + 1 := byteLength_append ..
    rw [List.dropLast_concat, hreturn]
    rfl
  · rfl

theorem readLine?_ofBuffer : (ofBuffer b).readLine? =
    some (.range b.readLine?.1, ofBuffer b.readLine?.2) := by
  unfold readLine?
  rw [atEnd_ofBuffer, Buffer.readLine?]
  split
  · rfl
  · obtain ⟨feed, more, hrest, -⟩ := b.exists_rest_eq
    -- the line is cut out of the whole text, not out of its rest
    have hcut : cut? b.position (b.position + byteLength b.rawLine) b.text = some b.rawLine := by
      rw [Buffer.text, hrest, b.position_eq_reverse, cut?_byteLength]
    have hbytes : lineBytes b.rest =
        (byteLength b.rawLine, byteLength (b.rest.take (b.rawLine.length + 1))) :=
      lineBytes_eq b.rest
    have hmoved := moved_ofBuffer b (b.rawLine.length + 1)
    have hstop := stop_eq b.position b.rawLine
    simp only [rest?_ofBuffer, hbytes, hmoved, Option.bind_eq_bind, Option.bind_some]
    simp only [ofBuffer, hcut, hstop, Option.bind_some]
    rfl

theorem perform?_ofBuffer (r : Reading) :
    (ofBuffer b).perform? r = some ((b.perform r).1, ofBuffer (b.perform r).2) := by
  cases r with
  | char =>
    rw [perform?, readChar?, peek?, rest?_ofBuffer, Option.map_some, Option.map_some]
    have hmoved := moved_ofBuffer b 1
    cases hrest : b.rest with
    | nil => simp [Buffer.perform, Buffer.read?, Buffer.peek?, hrest, Buffer.advance_eq_self]
    | cons c rest =>
      have hsize : byteLength ((c :: rest).take 1) = c.utf8Size := by simp
      rw [hrest, hsize] at hmoved
      simp [Buffer.perform, Buffer.read?, Buffer.peek?, hrest, hmoved]
  | chars n => rw [perform?, rest?_ofBuffer, Option.map_some, pass_ofBuffer, Buffer.perform]
  | line => exact readLine?_ofBuffer b
  | upTo p =>
    rw [perform?, rest?_ofBuffer, Option.map_some, bytesUntil_eq, pass_ofBuffer]
    rfl
  | word acrossLines =>
    rw [perform?, rest?_ofBuffer, Option.map_some, getD_find?,
      byteLength_take_of_prefix (List.takeWhile_prefix _), pass_ofBuffer]
    rfl
  | blanks acrossLines =>
    rw [perform?, rest?_ofBuffer, Option.map_some, getD_find?,
      byteLength_take_of_prefix (List.takeWhile_prefix _), skip_ofBuffer]
    simp only [Bool.not_not]
    rfl
  | lineBlanks =>
    have hprefix := (List.takeWhile_prefix (l := b.lineRest) isBlank).trans b.lineRest_prefix
    have hlength := congrArg byteLength (takeWhile_trimStart b.lineRest)
    rw [byteLength_append] at hlength
    rw [perform?, lineRest?_ofBuffer, Option.map_some, ← hlength, Nat.add_sub_cancel,
      byteLength_take_of_prefix hprefix, skip_ofBuffer]
    rfl
  | toLineEnd =>
    rw [perform?, lineRest?_ofBuffer, Option.map_some, byteLength_take_of_prefix b.lineRest_prefix,
      pass_ofBuffer]
    rfl
  | toEnd =>
    have hpass := pass_ofBuffer b b.rest.length
    rw [List.take_length] at hpass
    rw [perform?, Buffer.perform, Buffer.readToEnd, ← hpass, pass, moved, ofBuffer, b.byteLength_text]

end Marked

end PlatformRules
