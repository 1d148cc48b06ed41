import PlatformRules.Proofs.Text.Marked
import PlatformRules.Proofs.Text.Parts

namespace PlatformRules

open Text

namespace Marked

def OnBoundary (m : Marked) : Prop :=
  m.mark ≤ byteLength m.text ∧ IsBoundary m.mark m.text

structure Passes (old : Marked) (part : List Char) (new : Marked) : Prop where
  text : new.text = old.text
  stands : StandsAt old.text old.mark part
  mark : new.mark = old.mark + byteLength part

theorem Passes.slice {old new : Marked} {part : List Char} (h : old.Passes part new) :
    (⟨old.mark, new.mark⟩ : ByteRange).slice old.text = part := by
  rw [h.mark]
  exact h.stands.slice

end Marked

/-- A line ends in front of a line feed or where the text ends; a carriage return in front of that
belongs to the end of the line. -/
def EndsLine (line back : List Char) (last : Bool) : Prop :=
  '\n' ∉ line ∧ (line.getLast? = some '\r' → back.head? = some '\r') ∧
    (back = ['\n'] ∨ back = ['\r', '\n'] ∨ last = true ∧ (back = [] ∨ back = ['\r']))

theorem exists_endsLine {cs feed : List Char} {last : Bool} (h : '\n' ∉ cs)
    (hfeed : feed = ['\n'] ∨ feed = [] ∧ last = true) : ∃ back,
      cs ++ feed = withoutReturn cs ++ back ∧ EndsLine (withoutReturn cs) back last ∧
        ('\r' ∈ back ↔ cs.getLast? = some '\r') := by
  -- what ends the line is a carriage return or none, and then a line feed or the end of the text
  obtain ⟨g, hg, hcs, hreturn⟩ := exists_return_append cs
  have hfeed' : '\r' ∉ feed := by rcases hfeed with rfl | ⟨rfl, -⟩ <;> simp
  refine ⟨g ++ feed, ?whole, ⟨?line, ?returns, ?back⟩, ?carriage⟩
  case whole => rw [← List.append_assoc, ← hcs]
  case line => exact fun hm => h (mem_of_mem_withoutReturn hm)
  case returns =>
    rcases hg with rfl | rfl
    · rw [List.append_nil] at hcs
      intro hlast
      rw [← hcs] at hlast
      exact absurd (hreturn.2 hlast) List.not_mem_nil
    · exact fun _ => rfl
  case back =>
    rcases hg with rfl | rfl
    · rcases hfeed with rfl | ⟨rfl, hlast⟩
      · exact .inl rfl
      · exact .inr (.inr ⟨hlast, .inl rfl⟩)
    · rcases hfeed with rfl | ⟨rfl, hlast⟩
      · exact .inr (.inl rfl)
      · exact .inr (.inr ⟨hlast, .inr rfl⟩)
  case carriage => rw [List.mem_append, or_iff_left hfeed', hreturn]

def Reading.Answers (old : Marked) (part : List Char) (new : Marked) (a : CursorAnswer) :
    Reading → Prop
  | .char => a = .char part.head? ∧ part.length ≤ 1 ∧ (part = [] ↔ old.atEnd = true)
  | .line => (old.atEnd = true ∧ part = [] ∧ a = .range none) ∨
      (old.atEnd = false ∧ part ≠ [] ∧ ∃ line back, part = line ++ back ∧
        EndsLine line back new.atEnd ∧ a = .range (some ⟨old.mark, old.mark + byteLength line⟩))
  | .blanks _ | .lineBlanks => a = .count (new.mark - old.mark)
  | _ => a = .range (some ⟨old.mark, new.mark⟩)

def CursorStep.Does (old new : MarkedPair) (a : CursorAnswer) : CursorStep → Prop
  | .peek => new = old ∧ ∃ o, a = .char o ∧ (o = none ↔ old.current.atEnd = true) ∧
      StandsAt old.current.text old.current.mark o.toList
  | .reading r => new.active = old.active ∧ new.idle = old.idle ∧
      ∃ part, old.current.Passes part new.current ∧ r.Answers old.current part new.current a
  | .swap => a = .done ∧ new = { old with active := old.active.other }
  | .setText cs => a = .done ∧ new.active = old.active ∧ new.idle = old.idle ∧
      new.current = .ofText cs
  | .seek offset => a = .done ∧ new.active = old.active ∧ new.idle = old.idle ∧
      new.current.text = old.current.text ∧
      IsGreatest {k | IsBoundary k old.current.text ∧ k ≤ offset} new.current.mark
  | .stage r => a = .done ∧ new.active = .secondary ∧ new.primary = old.primary ∧
      new.secondary = .ofText (r.slice old.primary.text)

/-- A reading takes `part` of the text at the mark and leaves `back`. -/
def Reading.Takes (part back : List Char) : Reading → Prop
  | .char => part.length ≤ 1 ∧ (part = [] → back = [])
  | .chars n => part.length ≤ n ∧ (part.length < n → back = [])
  | .line => ∃ line feed, part = line ++ feed ∧ EndsLine line feed back.isEmpty
  | .upTo p => (∃ front c, part = front ++ [c] ∧ p c front.length = true ∧
      ∀ x ∈ front.zipIdx, p x.1 x.2 = false) ∨ (back = [] ∧ ∀ x ∈ part.zipIdx, p x.1 x.2 = false)
  | .word acrossLines => (∀ c ∈ part, Buffer.isSeparator acrossLines c = false) ∧
      ∀ c ∈ back.head?, Buffer.isSeparator acrossLines c = true
  | .blanks acrossLines => (∀ c ∈ part, Buffer.isSeparator acrossLines c = true) ∧
      ∀ c ∈ back.head?, Buffer.isSeparator acrossLines c = false
  | .lineBlanks => ∃ left feed more, back = left ++ (feed ++ more) ∧
      EndsLine (part ++ left) feed more.isEmpty ∧ (∀ c ∈ part, isBlank c = true) ∧
      ∀ c ∈ left.head?, isBlank c = false
  | .toLineEnd => ∃ feed more, back = feed ++ more ∧ EndsLine part feed more.isEmpty
  | .toEnd => back = []

namespace Cursor

def step (c : Cursor) : CursorStep → CursorAnswer × Cursor
  | .peek => (.char c.buffer.peek?, c)
  | .reading r => c.run (·.perform r)
  | .swap => (.done, c.swap)
  | .setText cs => (.done, c.setText cs)
  | .seek offset => (.done, c.seek offset)
  | .stage r => (.done, c.stage r)

def steps (c : Cursor) (ss : List CursorStep) : Cursor :=
  ss.foldl (fun c s => (c.step s).2) c

end Cursor

namespace Marked

variable (b : Buffer)

theorem onBoundary_ofBuffer : (ofBuffer b).OnBoundary := by
  constructor
  · rw [ofBuffer, b.byteLength_text]
    exact Nat.le_add_right ..
  · exact ⟨b.before.reverse, b.rest, rfl, b.position_eq_reverse.symm⟩

theorem seek_ofBuffer (offset : Nat) : (ofBuffer b).seek offset = ofBuffer (b.seek offset) := by
  simp only [seek, ofBuffer, Buffer.text_seek, snap_eq]
  rfl

theorem buffer_ofBuffer : (ofBuffer b).buffer = b := by
  have hsplit : splitWithin b.position (Buffer.ofText b.text).text = (b.before.reverse, b.rest) := by
    rw [b.position_eq_reverse]
    exact splitWithin_byteLength _ _
  apply Buffer.ext
  · simp only [buffer, ofBuffer, Buffer.seek, hsplit, List.reverse_reverse]
  · simp only [buffer, ofBuffer, Buffer.seek, hsplit]

theorem passes_advance (n : Nat) :
    (ofBuffer b).Passes (b.rest.take n) (ofBuffer (b.advance n)) where
  text := b.text_advance n
  stands := Buffer.standsAt_of_prefix (b.rest.take_prefix n)
  mark := b.position_advance n

theorem count_advance (n : Nat) : (b.skipChars n).1 =
    (ofBuffer (b.advance n)).mark - (ofBuffer b).mark :=
  (Nat.add_sub_cancel_left ..).symm

theorem endsLine_lineRest : ∃ back, b.rest.take (b.rawLine.length + 1) = b.lineRest ++ back ∧
    EndsLine b.lineRest back (b.advance (b.rawLine.length + 1)).atEnd := by
  obtain ⟨feed, more, hrest, hfeed⟩ := b.exists_rest_eq
  have htake : b.rest.take (b.rawLine.length + 1) = b.rawLine ++ feed := by
    conv_lhs => rw [hrest]
    rw [List.take_length_add_append]
    rcases hfeed with rfl | ⟨rfl, rfl⟩ <;> rfl
  have hend (hnil : feed = [] ∧ more = []) : (b.advance (b.rawLine.length + 1)).atEnd = true := by
    have hlength : b.rest.length = b.rawLine.length := by
      rw [hnil.1, hnil.2, List.append_nil, List.append_nil] at hrest
      exact congrArg List.length hrest
    rw [Buffer.atEnd, Buffer.rest_advance, List.drop_of_length_le (by omega), List.isEmpty_nil]
  have hraw : '\n' ∉ b.rawLine := not_mem_takeWhile b.rest
  obtain ⟨back, hwhole, hends, -⟩ :=
    exists_endsLine hraw (hfeed.imp_right fun hnil => ⟨hnil.1, hend hnil⟩)
  exact ⟨back, htake.trans hwhole, hends⟩

theorem exists_passes_line : ∃ part, (ofBuffer b).Passes part (ofBuffer b.readLine?.2) ∧
    Reading.line.Answers (ofBuffer b) part (ofBuffer b.readLine?.2) (.range b.readLine?.1) := by
  rw [Buffer.readLine?_snd]
  refine ⟨_, passes_advance b _, ?_⟩
  simp only [Reading.Answers, atEnd_ofBuffer]
  cases hend : b.atEnd with
  | true =>
    have hrest : b.rest = [] := List.isEmpty_iff.1 hend
    exact .inl ⟨rfl, by rw [hrest, List.take_nil], by simp [Buffer.readLine?, hend]⟩
  | false =>
    obtain ⟨back, hpart, hends⟩ := endsLine_lineRest b
    have hrest : b.rest ≠ [] := fun h => by simp [Buffer.atEnd, h] at hend
    refine .inr ⟨rfl, by simp [hrest], b.lineRest, back, hpart, hends, ?_⟩
    simp [Buffer.readLine?, hend, ofBuffer]

theorem exists_passes_perform (r : Reading) : ∃ part,
    (ofBuffer b).Passes part (ofBuffer (b.perform r).2) ∧
      r.Answers (ofBuffer b) part (ofBuffer (b.perform r).2) (b.perform r).1 := by
  cases r with
  | char =>
    refine ⟨_, passes_advance b 1, ?_⟩
    simp only [Reading.Answers, atEnd_ofBuffer, Buffer.atEnd, Buffer.perform, Buffer.read?,
      Buffer.peek?]
    cases b.rest <;> simp
  | chars n => exact ⟨_, passes_advance b _, rfl⟩
  | line => exact exists_passes_line b
  | upTo p => exact ⟨_, passes_advance b _, rfl⟩
  | word acrossLines => exact ⟨_, passes_advance b _, rfl⟩
  | blanks acrossLines => exact ⟨_, passes_advance b _, congrArg _ (count_advance b _)⟩
  | lineBlanks => exact ⟨_, passes_advance b _, congrArg _ (count_advance b _)⟩
  | toLineEnd => exact ⟨_, passes_advance b _, rfl⟩
  | toEnd => exact ⟨_, passes_advance b _, rfl⟩

end Marked

namespace MarkedPair

def ofCursor (c : Cursor) : MarkedPair :=
  ⟨.ofBuffer c.primary, .ofBuffer c.secondary, c.active⟩

variable (c : Cursor)

theorem current_ofCursor : (ofCursor c).current = .ofBuffer c.buffer := by
  unfold current Cursor.buffer ofCursor
  cases c.active <;> rfl

theorem setCurrent_ofCursor (b : Buffer) :
    (ofCursor c).setCurrent (.ofBuffer b) = ofCursor (c.setBuffer b) := by
  unfold setCurrent Cursor.setBuffer
  cases h : c.active <;> simp [ofCursor, h]

theorem step?_ofCursor (s : CursorStep) :
    (ofCursor c).step? s = some ((c.step s).1, ofCursor (c.step s).2) := by
  cases s with
  | peek =>
    rw [step?, current_ofCursor, Marked.peek?, Marked.rest?_ofBuffer]
    rfl
  | reading r =>
    rw [step?, current_ofCursor, Marked.perform?_ofBuffer, Option.map_some]
    simp only [setCurrent_ofCursor]
    rfl
  | swap => rfl
  | setText cs =>
    rw [step?, Cursor.step, Cursor.setText, ← setCurrent_ofCursor]
    rfl
  | seek offset =>
    rw [step?, current_ofCursor, Marked.seek_ofBuffer, setCurrent_ofCursor]
    rfl
  | stage r => rfl

theorem steps?_ofCursor (ss : List CursorStep) :
    (ofCursor c).steps? ss = some (ofCursor (c.steps ss)) := by
  induction ss generalizing c with
  | nil => rfl
  | cons s ss ih =>
    rw [steps?, step?_ofCursor, Option.bind_some]
    exact ih (c.step s).2

theorem run_ofCursor {α : Type} (scan : Buffer → α × Buffer) :
    (ofCursor c).run scan = ((c.run scan).1, ofCursor (c.run scan).2) := by
  rw [run, current_ofCursor, Marked.buffer_ofBuffer]
  simp only [setCurrent_ofCursor]
  rfl

theorem setCurrent_eq (c : MarkedPair) (m : Marked) : (c.setCurrent m).active = c.active ∧
    (c.setCurrent m).idle = c.idle ∧ (c.setCurrent m).current = m := by
  obtain ⟨primary, secondary, active⟩ := c
  cases active <;> exact ⟨rfl, rfl, rfl⟩

theorem ofCursor_setBuffer (b : Buffer) : (ofCursor (c.setBuffer b)).active = (ofCursor c).active ∧
    (ofCursor (c.setBuffer b)).idle = (ofCursor c).idle ∧
    (ofCursor (c.setBuffer b)).current = .ofBuffer b := by
  rw [← setCurrent_ofCursor]
  exact setCurrent_eq (ofCursor c) (.ofBuffer b)

theorem does_step (s : CursorStep) : s.Does (ofCursor c) (ofCursor (c.step s).2) (c.step s).1 := by
  cases s with
  | peek =>
    refine ⟨rfl, c.buffer.peek?, rfl, ?_, ?_⟩
    · rw [current_ofCursor, Marked.atEnd_ofBuffer, Buffer.peek?, List.head?_eq_none_iff,
        Buffer.atEnd, List.isEmpty_iff]
    · have hpass := (Marked.passes_advance c.buffer 1).stands
      rw [current_ofCursor]
      rwa [List.take_one] at hpass
  | reading r =>
    obtain ⟨hactive, hidle, hcurrent⟩ := ofCursor_setBuffer c (c.buffer.perform r).2
    refine ⟨hactive, hidle, ?_⟩
    rw [current_ofCursor c]
    exact hcurrent ▸ Marked.exists_passes_perform c.buffer r
  | swap => exact ⟨rfl, rfl⟩
  | setText cs => exact ⟨rfl, ofCursor_setBuffer c (.ofText cs)⟩
  | seek offset =>
    obtain ⟨hactive, hidle, hcurrent⟩ := ofCursor_setBuffer c (c.buffer.seek offset)
    refine ⟨rfl, hactive, hidle, ?_⟩
    rw [current_ofCursor c]
    exact hcurrent ▸ ⟨c.buffer.text_seek offset, isGreatest_splitWithin offset c.buffer.text⟩
  | stage r => exact ⟨rfl, rfl, rfl, rfl⟩

/-- Whatever is done with a cursor over a text, one step after the other: nothing fails, both marks
are on boundaries, and the next step does what it should. -/
theorem does_every_step (cs : List Char) (ss : List CursorStep) :
    ∃ c, (ofText cs).steps? ss = some c ∧ c.primary.OnBoundary ∧ c.secondary.OnBoundary ∧
      ∀ s, ∃ a d, c.step? s = some (a, d) ∧ s.Does c d a := by
  refine ⟨ofCursor ((Cursor.ofText cs).steps ss), steps?_ofCursor (.ofText cs) ss,
    Marked.onBoundary_ofBuffer _, Marked.onBoundary_ofBuffer _, fun s => ?_⟩
  exact ⟨_, _, step?_ofCursor _ s, does_step _ s⟩

end MarkedPair

namespace Buffer

theorem takes_chars (n : Nat) (cs : List Char) :
    (Reading.chars n).Takes (cs.take n) (cs.drop n) := by
  constructor
  · exact List.length_take_le n cs
  · intro h
    rw [List.length_take] at h
    exact List.drop_of_length_le (by omega)

theorem takes_upTo_go (p : Char → Nat → Bool) (cs : List Char) (index : Nat) : ∃ part back,
    cs = part ++ back ∧ countUntil.go p cs index = index + part.length ∧
      ((∃ front c, part = front ++ [c] ∧ p c (index + front.length) = true ∧
        ∀ x ∈ front.zipIdx index, p x.1 x.2 = false) ∨
        (back = [] ∧ ∀ x ∈ part.zipIdx index, p x.1 x.2 = false)) := by
  induction cs generalizing index with
  | nil => exact ⟨[], [], rfl, rfl, .inr ⟨rfl, by simp⟩⟩
  | cons c cs ih =>
    rw [countUntil.go]
    by_cases hc : p c index = true
    · rw [if_pos hc]
      exact ⟨[c], cs, rfl, rfl, .inl ⟨[], c, rfl, hc, by simp⟩⟩
    · rw [if_neg hc]
      obtain ⟨part, back, rfl, hcount, hstop⟩ := ih (index + 1)
      have hnot : p c index = false := by simpa using hc
      have hcons {ds : List Char} (h : ∀ x ∈ ds.zipIdx (index + 1), p x.1 x.2 = false) :
          ∀ x ∈ (c :: ds).zipIdx index, p x.1 x.2 = false := by
        rw [List.zipIdx_cons, List.forall_mem_cons]
        exact ⟨hnot, h⟩
      refine ⟨c :: part, back, rfl, ?_, ?_⟩
      · rw [hcount, List.length_cons]
        omega
      · rcases hstop with ⟨front, d, rfl, hd, hfront⟩ | ⟨rfl, hpart⟩
        · have hplace : index + (c :: front).length = index + 1 + front.length := by
            rw [List.length_cons]
            omega
          exact .inl ⟨c :: front, d, rfl, hplace ▸ hd, hcons hfront⟩
        · exact .inr ⟨rfl, hcons hpart⟩

theorem takes_upTo (p : Char → Nat → Bool) (cs : List Char) :
    (Reading.upTo p).Takes (cs.take (countUntil p cs)) (cs.drop (countUntil p cs)) := by
  obtain ⟨part, back, hcs, hcount, hstop⟩ := takes_upTo_go p cs 0
  rw [Nat.zero_add] at hcount
  rw [countUntil, hcount, hcs, List.take_left, List.drop_left]
  simp only [Nat.zero_add] at hstop
  exact hstop

theorem takes_takeWhile (p : Char → Bool) (cs : List Char) :
    (∀ c ∈ cs.takeWhile p, p c = true) ∧ ∀ c ∈ (cs.dropWhile p).head?, p c = false := by
  constructor
  · exact fun c hc => List.mem_takeWhile_imp hc
  · intro c hc
    have hhead := List.head?_dropWhile_not p cs
    rw [Option.mem_def.1 hc] at hhead
    simpa using hhead

theorem takes_word (acrossLines : Bool) (cs : List Char) : (Reading.word acrossLines).Takes
    (cs.takeWhile fun c => !isSeparator acrossLines c)
    (cs.dropWhile fun c => !isSeparator acrossLines c) := by
  simpa [Reading.Takes] using takes_takeWhile (fun c => !isSeparator acrossLines c) cs

variable (b : Buffer)

theorem exists_rest_eq_line : ∃ feed more, b.rest = b.lineRest ++ (feed ++ more) ∧
    b.rest.take (b.rawLine.length + 1) = b.lineRest ++ feed ∧
    b.rest.drop (b.rawLine.length + 1) = more ∧ EndsLine b.lineRest feed more.isEmpty := by
  obtain ⟨feed, hpart, hends⟩ := Marked.endsLine_lineRest b
  refine ⟨feed, b.rest.drop (b.rawLine.length + 1), ?_, hpart, rfl, hends⟩
  rw [← List.append_assoc, ← hpart, List.take_append_drop]

theorem takes_line : Reading.line.Takes (b.rest.take (b.rawLine.length + 1))
    (b.rest.drop (b.rawLine.length + 1)) := by
  obtain ⟨feed, more, -, hpart, rfl, hends⟩ := exists_rest_eq_line b
  exact ⟨b.lineRest, feed, hpart, hends⟩

theorem takes_toLineEnd :
    ∃ back, b.rest = b.lineRest ++ back ∧ Reading.toLineEnd.Takes b.lineRest back := by
  obtain ⟨feed, more, hrest, -, -, hends⟩ := exists_rest_eq_line b
  exact ⟨feed ++ more, hrest, feed, more, rfl, hends⟩

theorem takes_lineBlanks : ∃ back, b.rest = b.lineRest.takeWhile isBlank ++ back ∧
    Reading.lineBlanks.Takes (b.lineRest.takeWhile isBlank) back := by
  obtain ⟨feed, more, hrest, -, -, hends⟩ := exists_rest_eq_line b
  obtain ⟨hblank, hleft⟩ := takes_takeWhile isBlank b.lineRest
  have hline : b.lineRest.takeWhile isBlank ++ b.lineRest.dropWhile isBlank = b.lineRest :=
    List.takeWhile_append_dropWhile
  refine ⟨b.lineRest.dropWhile isBlank ++ (feed ++ more), ?_, _, feed, more, rfl, ?_, hblank, hleft⟩
  · rw [← List.append_assoc, hline, hrest]
  · rwa [hline]

variable {b} in
theorem exists_advance_of_append {r : Reading} {part back : List Char} {new : Buffer}
    (hrest : b.rest = part ++ back) (hnew : new = b.advance part.length)
    (htakes : r.Takes part back) :
    ∃ n, new = b.advance n ∧ r.Takes (b.rest.take n) (b.rest.drop n) := by
  refine ⟨part.length, hnew, ?_⟩
  rwa [hrest, List.take_left, List.drop_left]

theorem exists_advance_perform (r : Reading) : ∃ n, (b.perform r).2 = b.advance n ∧
    r.Takes (b.rest.take n) (b.rest.drop n) := by
  cases r with
  | char =>
    refine ⟨1, rfl, ?_⟩
    cases b.rest <;> simp [Reading.Takes]
  | chars n => exact ⟨n, rfl, takes_chars n b.rest⟩
  | line => exact ⟨_, b.readLine?_snd, takes_line b⟩
  | upTo p => exact ⟨_, rfl, takes_upTo p b.rest⟩
  | word acrossLines =>
    exact exists_advance_of_append List.takeWhile_append_dropWhile.symm rfl
      (takes_word acrossLines b.rest)
  | blanks acrossLines =>
    exact exists_advance_of_append List.takeWhile_append_dropWhile.symm rfl
      (takes_takeWhile (isSeparator acrossLines) b.rest)
  | lineBlanks =>
    obtain ⟨back, hrest, htakes⟩ := takes_lineBlanks b
    exact exists_advance_of_append hrest rfl htakes
  | toLineEnd =>
    obtain ⟨back, hrest, htakes⟩ := takes_toLineEnd b
    exact exists_advance_of_append hrest rfl htakes
  | toEnd => exact ⟨_, rfl, List.drop_length⟩

end Buffer

namespace MarkedPair

/-- After any steps, every reading goes as far as it should and leaves the rest. -/
theorem takes_every_reading (cs : List Char) (ss : List CursorStep) :
    ∃ c, (ofText cs).steps? ss = some c ∧ ∀ r : Reading, ∃ part back a d,
      c.current.rest? = some (part ++ back) ∧ c.step? (.reading r) = some (a, d) ∧
      c.current.Passes part d.current ∧ d.current.rest? = some back ∧ r.Takes part back := by
  refine ⟨ofCursor ((Cursor.ofText cs).steps ss), steps?_ofCursor (.ofText cs) ss, fun r => ?_⟩
  generalize (Cursor.ofText cs).steps ss = c
  obtain ⟨n, hnew, htakes⟩ := c.buffer.exists_advance_perform r
  obtain ⟨-, -, hcurrent⟩ := ofCursor_setBuffer c (c.buffer.perform r).2
  rw [hnew] at hcurrent
  refine ⟨_, _, _, _, ?_, step?_ofCursor c (.reading r), ?_, ?_, htakes⟩
  · rw [current_ofCursor, Marked.rest?_ofBuffer, List.take_append_drop]
  · simp only [Cursor.step, Cursor.run, hnew, hcurrent, current_ofCursor]
    exact Marked.passes_advance c.buffer n
  · simp only [Cursor.step, Cursor.run, hnew, hcurrent, Marked.rest?_ofBuffer]
    rfl

end MarkedPair

end PlatformRules
