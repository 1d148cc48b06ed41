import PlatformRules.Host.OsRelease
import PlatformRules.Proofs.Text.Expression
import PlatformRules.Proofs.Token.Words

namespace PlatformRules.Assignment

open Text Text.Expression

def valueExpression : Expression :=
  .seq (.group (.least (· != '\n'))) (.seq (.most isBlank) .lineEnd)

def lineExpression : Expression :=
  .seq (.group (.seq (.one isKeyChar) (.most isKeyChar))) (.seq (.one (· == '=')) valueExpression)

/-- An assignment behind blanks at the start of a line: `^\s*([A-Z_]+)=(.*?)\s*$`. -/
def expression : Expression :=
  .seq .lineStart (.seq (.most isBlank) lineExpression)

theorem isBlank_of_isKeyChar {c : Char} (h : isKeyChar c = true) : isBlank c = false := by
  rw [isKeyChar, Bool.or_eq_true, beq_iff_eq] at h
  rcases h with h | rfl
  · have halpha : c.isAlphanum = true := by
      change ((c.isUpper || c.isLower) || c.isDigit) = true
      rw [h, Bool.true_or, Bool.true_or]
    obtain ⟨hlow, hhigh⟩ := visible_of_isAlphanum halpha
    exact isBlank_of_visible hlow hhigh
  · decide

variable {cs g line rest : List Char} {prev : Option Char} {a : Assignment}

theorem all_nil : all [] = [] := by
  rw [all]
  rfl

theorem all_eq_append_tail (cs : List Char) : all cs =
    (ofLine? ((trimStart cs).takeWhile (· != '\n'))).toList ++
      all ((trimStart cs).dropWhile (· != '\n')).tail := by
  rw [all]
  unfold trimStart
  split
  · next h => rw [h, List.tail_nil, all_nil, List.append_nil]
  · next h =>
    dsimp only
    rw [h, List.tail_cons]

theorem all_append_of_isBlankRun (hg : IsBlankRun g) (cs : List Char) : all (g ++ cs) = all cs := by
  rw [all_eq_append_tail, all_eq_append_tail cs, trimStart_append hg]

theorem all_tail (h : isEdge cs.head? = true) : all cs.tail = all cs := by
  cases cs with
  | nil => rfl
  | cons c cs =>
    obtain rfl := eq_lineFeed_of_isEdge h
    have hfeed : IsBlankRun ['\n'] := by decide
    exact (all_append_of_isBlankRun hfeed cs).symm

theorem all_of_trimStart (h : IsFirstLine line rest) (hcs : trimStart cs = line ++ rest) :
    all cs = (ofLine? line).toList ++ all rest := by
  rw [all_eq_append_tail, hcs, h.takeWhile, h.dropWhile, all_tail h.2]

theorem trimStart_line (h : IsFirstLine line rest) (hblank : ¬ IsBlankRun line) :
    IsFirstLine (trimStart line) rest ∧ trimStart (line ++ rest) = trimStart line ++ rest := by
  refine ⟨⟨fun hmem => h.1 ((List.dropWhile_sublist isBlank).subset hmem), h.2⟩, ?_⟩
  have hne : (line.dropWhile isBlank).isEmpty = false := by
    rw [List.isEmpty_eq_false_iff]
    exact fun h => hblank (trimStart_eq_nil_iff.1 h)
  simp only [trimStart, List.dropWhile_append, hne, Bool.false_eq_true, if_false]

theorem all_line (h : IsFirstLine line rest) :
    all (line ++ rest) = (ofLine? (trimStart line)).toList ++ all rest := by
  by_cases hblank : IsBlankRun line
  · rw [all_append_of_isBlankRun hblank, trimStart_eq_nil_iff.2 hblank]
    rfl
  · obtain ⟨hfirst, hstart⟩ := trimStart_line h hblank
    exact all_of_trimStart hfirst hstart

theorem all_line_of_trimStart {front back : List Char} (h : IsFirstLine front back)
    (hline : IsFirstLine line rest) (hstart : trimStart (front ++ back) = line ++ rest)
    (hnone : ofLine? line = none) : all (front ++ back) = all back := by
  by_cases hblank : IsBlankRun front
  · exact all_append_of_isBlankRun hblank back
  · obtain ⟨hfirst, heq⟩ := trimStart_line h hblank
    have hfront : trimStart front = line := by
      rw [← hfirst.takeWhile, ← heq, hstart, hline.takeWhile]
    rw [all_line h, hfront, hnone]
    rfl

theorem exists_first?_value (h : IsFirstLine line rest) (prev : Option Char) :
    ∃ w, valueExpression.first? prev (line ++ rest) = some w ∧ w.groups = [trimEnd line] ∧
      isEdge w.rest.head? = true ∧ w.taken ++ w.rest = line ++ rest ∧ all w.rest = all rest := by
  obtain ⟨g, hg, hline⟩ := exists_trimEnd_append line
  have hlast := isBlank_getLast_trimEnd line
  generalize trimEnd line = run at *
  subst hline
  have hback : IsFirstLine g rest := ⟨fun hmem => h.1 (List.mem_append_right run hmem), h.2⟩
  -- Behind a part of the run, its last character still stands in front of the end of the line.
  have hshort : ∀ ds, ds ≠ [] → ds <:+ run → ∀ prev,
      (Expression.seq (.most isBlank) .lineEnd).first? prev (ds ++ (g ++ rest)) = none := by
    intro ds hne hsuffix prev
    have hfirst : IsFirstLine (ds ++ g) rest := by
      refine ⟨fun hmem => h.1 ?_, h.2⟩
      exact (List.append_sublist_append_right g |>.2 hsuffix.sublist).subset hmem
    rw [← Option.not_isSome_iff_eq_none, ← List.append_assoc, hfirst.isSome_first?_most_lineEnd_iff]
    intro hblank
    obtain ⟨front, rfl⟩ := hsuffix
    rw [List.getLast?_append_of_ne_nil front hne, List.getLast?_eq_some_getLast hne] at hlast
    have hmem := List.mem_append_left g (List.getLast_mem hne)
    exact absurd ((hblank _ hmem).symm.trans (hlast _ rfl)) (by decide)
  obtain ⟨u, hu⟩ : ∃ u, (Expression.seq (.most isBlank) .lineEnd).first? (run.getLast?.or prev)
      (g ++ rest) = some u :=
    Option.isSome_iff_exists.1 (hback.isSome_first?_most_lineEnd_iff.2 hg)
  obtain ⟨htaken, hblank, hgroups, hend⟩ := exists_of_first?_most_lineEnd hu
  have hrun : ∀ c ∈ run, (c != '\n') = true := fun c hc =>
    bne_iff_ne.2 (ne_of_mem_of_not_mem (List.mem_append_left g hc) h.1)
  refine ⟨Way.followedBy ⟨run, [run], g ++ rest⟩ u, ?_, ?_, hend, ?_, ?_⟩
  · rw [List.append_assoc]
    exact first?_seq_least hrun hshort hu
  · simp [Way.followedBy, hgroups]
  · simp [Way.followedBy, htaken]
  · change all u.rest = _
    rw [← all_append_of_isBlankRun hblank, htaken, all_append_of_isBlankRun hg]

structure Finds (text rest : List Char) (a : Assignment) (w : Way) : Prop where
  groups : w.groups = [a.key, a.value]
  edge : isEdge w.rest.head? = true
  shorter : w.rest.length < text.length
  all_rest : all w.rest = all rest

theorem Finds.behind {text : List Char} {w : Way} (h : Finds text rest a w) (hcs : g ++ text = cs)
    (v : Way) (hv : v.groups = []) :
    Finds cs rest a (v.followedBy w) where
  groups := by rw [Way.followedBy, hv, List.nil_append, h.groups]
  edge := h.edge
  shorter := by
    have := h.shorter
    rw [← hcs, List.length_append]
    exact Nat.lt_add_left _ this
  all_rest := h.all_rest

theorem rel_first?_line (h : IsFirstLine line rest) (prev : Option Char) :
    Option.Rel (Finds (line ++ rest) rest) (ofLine? line)
      (lineExpression.first? prev (line ++ rest)) := by
  obtain ⟨key, back, rfl, hkey, hback⟩ : ∃ key back, key ++ back = line ∧
      (∀ c ∈ key, isKeyChar c = true) ∧ ∀ c ∈ back.head?, isKeyChar c = false :=
    ⟨line.takeWhile isKeyChar, line.dropWhile isKeyChar, List.takeWhile_append_dropWhile,
      fun c hc => List.mem_takeWhile_imp hc, stops_dropWhile isKeyChar line⟩
  have hstop := stops_append hback h.2 (by decide)
  have hequals : ∀ prev c cs, isKeyChar c = true →
      (Expression.seq (.one (· == '=')) valueExpression).first? prev (c :: cs) = none := by
    intro prev c cs hc
    apply first?_seq_one_eq_none
    rintro d ⟨⟩
    rw [beq_eq_false_iff_ne]
    rintro rfl
    exact absurd hc (by decide)
  rw [ofLine?, takeWhile_append_stop hkey hback, dropWhile_append_stop hkey hback,
    List.append_assoc]
  cases key with
  | nil =>
    rw [List.nil_append, lineExpression, first?_seq_word_eq_none hstop]
    exact .none
  | cons k ks =>
    have hks : ∀ c ∈ ks, isKeyChar c = true := fun c hc => hkey c (List.mem_cons_of_mem k hc)
    rw [List.cons_append, lineExpression, first?_seq_word (hkey k (by simp)) hequals,
      takeWhile_append_stop hks hstop, dropWhile_append_stop hks hstop]
    by_cases hvalue : back.head? = some '='
    · obtain ⟨value, rfl⟩ : ∃ value, back = '=' :: value := List.head?_eq_some_iff.1 hvalue
      have hfirst : IsFirstLine value rest := ⟨fun hmem => h.1 (by simp [hmem]), h.2⟩
      obtain ⟨w, hw, hgroups, hedge, hwhole, hall⟩ := exists_first?_value hfirst (some '=')
      rw [List.cons_append, first?_seq_one (by decide), hw]
      refine .some ⟨?_, hedge, ?_, hall⟩
      · simp [Way.followedBy, hgroups]
      · have hlength := congrArg List.length hwhole
        simp only [List.length_append, List.length_cons, Way.followedBy] at hlength ⊢
        omega
    · have hother : ∀ c ∈ back.head?, (c == '=') = false := fun c hc =>
        beq_eq_false_iff_ne.2 fun heq => hvalue (heq ▸ hc)
      rw [first?_seq_one_eq_none (stops_append hother h.2 (by decide))]
      split
      · exact absurd rfl hvalue
      · exact .none

theorem first?_expression (hprev : isEdge prev = true) (cs : List Char) :
    ∃ p, expression.first? prev cs = (lineExpression.first? p (trimStart cs)).map fun w =>
      Way.followedBy ⟨[], [], cs⟩ (Way.followedBy ⟨cs.takeWhile isBlank, [], trimStart cs⟩ w) := by
  have hkey : ∀ prev c cs, isBlank c = true → lineExpression.first? prev (c :: cs) = none := by
    intro prev c cs hc
    apply first?_seq_word_eq_none
    rintro d ⟨⟩
    rw [← Bool.not_eq_true]
    intro hd
    rw [isBlank_of_isKeyChar hd] at hc
    exact absurd hc (by decide)
  refine ⟨(cs.takeWhile isBlank).getLast?.or prev, ?_⟩
  rw [expression, first?_seq_lineStart hprev, first?_seq_most hkey, Option.map_map]
  rfl

theorem rel_first? (h : IsFirstLine line rest) (hcs : trimStart cs = line ++ rest)
    (hprev : isEdge prev = true) :
    Option.Rel (Finds cs rest) (ofLine? line) (expression.first? prev cs) := by
  obtain ⟨p, hfirst⟩ := first?_expression hprev cs
  have hrel := rel_first?_line h p
  rw [hfirst, hcs]
  generalize ofLine? line = found, lineExpression.first? p (line ++ rest) = way at hrel ⊢
  cases hrel with
  | none => exact .none
  | some hw =>
    have hblank := takeWhile_trimStart cs
    rw [hcs] at hblank
    exact .some ((hw.behind hblank _ rfl).behind (g := []) rfl _ rfl)

theorem first?_eq_none (hprev : isEdge prev = false) (cs : List Char) :
    expression.first? prev cs = none := by
  simp [expression, first?_seq, ways, hprev]

theorem exists_occurrencesFrom_eq (h : IsFirstLine line rest) (hprev : isEdge prev = false) :
    ∃ p, expression.occurrencesFrom prev (line ++ rest) = expression.occurrencesFrom p rest := by
  induction line generalizing prev with
  | nil => exact ⟨prev, rfl⟩
  | cons c line ih =>
    obtain ⟨hc, hline⟩ := not_or.1 (mt List.mem_cons.2 h.1)
    have hedge : isEdge (some c) = false := by simpa [isEdge] using Ne.symm hc
    rw [List.cons_append, occurrencesFrom_cons_of_eq_none (first?_eq_none hprev _)]
    exact ih ⟨hline, h.2⟩ hedge

def FindsAll (prev : Option Char) (cs : List Char) : Prop :=
  (expression.occurrencesFrom prev cs).map Way.groups = (all cs).map fun a => [a.key, a.value]

def AtEdge (prev : Option Char) (cs : List Char) : Prop :=
  isEdge prev = true ∨ isEdge cs.head? = true

theorem FindsAll.of_finds {w : Way} (hfirst : expression.first? prev cs = some w)
    (hw : Finds cs rest a w) (hall : all cs = a :: all rest)
    (hrest : FindsAll w.taken.getLast? w.rest) : FindsAll prev cs := by
  rw [FindsAll, occurrencesFrom_of_eq_some hfirst hw.shorter, hall, ← hw.all_rest, List.map_cons,
    List.map_cons, hw.groups, hrest]

theorem FindsAll.of_none (hfirst : expression.first? prev cs = none)
    (hall : ∀ front back, IsFirstLine front back → front ++ back = cs → all cs = all back)
    (hrest : ∀ prev ds, ds.length < cs.length → AtEdge prev ds → FindsAll prev ds) :
    FindsAll prev cs := by
  cases cs with
  | nil => rw [FindsAll, occurrencesFrom_nil, all_nil]; rfl
  | cons c cs =>
    rw [FindsAll, occurrencesFrom_cons_of_eq_none hfirst]
    by_cases hedge : isEdge (some c) = true
    · have htail : all (c :: cs).tail = all (c :: cs) := all_tail hedge
      rw [hrest (some c) cs (by simp) (.inl hedge), ← htail]
      rfl
    · obtain ⟨front, back, hline, rfl⟩ := exists_isFirstLine cs
      obtain ⟨p, hp⟩ := exists_occurrencesFrom_eq hline (Bool.not_eq_true _ ▸ hedge)
      have hc : c ≠ '\n' := by
        rintro rfl
        exact hedge rfl
      have hshorter : back.length < (c :: (front ++ back)).length := by
        rw [List.length_cons, List.length_append]
        omega
      rw [hp, hrest p back hshorter (.inr hline.2),
        hall (c :: front) back ⟨by simp [hline.1, hc.symm], hline.2⟩ rfl]

theorem findsAll_of_atEdge (h : AtEdge prev cs) : FindsAll prev cs := by
  -- What is left gets shorter with each match, and with each line that has none. A match may end
  -- behind some of the blanks that follow its line; these do not change what the rest assigns.
  generalize hn : cs.length = n
  induction n using Nat.strong_induction_on generalizing prev cs with
  | _ n ih =>
    subst hn
    have hrest : ∀ prev ds, ds.length < cs.length → AtEdge prev ds → FindsAll prev ds :=
      fun prev ds hlt hds => ih ds.length hlt hds rfl
    by_cases hprev : isEdge prev = true
    · obtain ⟨line, rest, hline, hstart⟩ := exists_isFirstLine (trimStart cs)
      have hrel := rel_first? hline hstart.symm hprev
      have hall := all_of_trimStart hline hstart.symm
      generalize hfound : ofLine? line = found, hway : expression.first? prev cs = way at hrel hall
      cases hrel with
      | some hw => exact .of_finds hway hw hall (hrest _ _ hw.shorter (.inr hw.edge))
      | none =>
        refine .of_none hway ?_ hrest
        rintro front back hfront rfl
        exact all_line_of_trimStart hfront hline hstart.symm hfound
    · refine .of_none (first?_eq_none (Bool.not_eq_true _ ▸ hprev) cs) ?_ hrest
      rintro front back hfront rfl
      cases front with
      | nil => rfl
      | cons c front =>
        obtain rfl := eq_lineFeed_of_isEdge (h.resolve_left hprev)
        exact absurd hfront.1 (by simp)

theorem map_groups_occurrences (cs : List Char) :
    (expression.occurrences cs).map Way.groups = (all cs).map fun a => [a.key, a.value] :=
  findsAll_of_atEdge (.inl rfl)

end PlatformRules.Assignment
