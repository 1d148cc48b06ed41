import PlatformRules.Proofs.Host.Entries
import PlatformRules.Proofs.Text.Parts
import PlatformRules.Proofs.Text.Terminators

namespace PlatformRules

open Text

inductive ReleaseKey where
  | id | idLike | version
deriving Repr, DecidableEq

namespace ReleaseKey

def name : ReleaseKey → List Char
  | id => "ID".toList
  | idLike => "ID_LIKE".toList
  | version => "VERSION_ID".toList

end ReleaseKey

def OsRelease.takeOver (r : OsRelease) : List (List Char) → OsRelease
  | [key, value] => r.assign ⟨key, value⟩
  | _ => r

def OsRelease.get (r : OsRelease) : ReleaseKey → Option (List Char)
  | .id => r.id
  | .idLike => r.idLike
  | .version => r.version

namespace Assignment

def isQuote (c : Char) : Bool :=
  c == '"' || c == '\''

def Unquotes (value v : List Char) : Prop :=
  ∃ left right, value = left ++ v ++ right ∧ (∀ c ∈ left ++ right, isQuote c = true) ∧
    (∀ c ∈ v.head?, isQuote c = false) ∧ ∀ c ∈ v.getLast?, isQuote c = false

end Assignment

namespace ReleaseKey

def Assigns (k : ReleaseKey) (line v : List Char) : Prop :=
  v ≠ [] ∧ ∃ value, trim line = k.name ++ '=' :: value ∧ Assignment.Unquotes value v

def IsLastValue (k : ReleaseKey) (lines : List (List Char)) : Option (List Char) → Prop
  | some v => ∃ before line after, lines = before ++ line :: after ∧ k.Assigns line v ∧
      ∀ l ∈ after, ∀ u, ¬ k.Assigns l u
  | none => ∀ l ∈ lines, ∀ u, ¬ k.Assigns l u

def IsAbout (k : ReleaseKey) (line : List Char) : Prop :=
  k.name ++ ['='] <+: trim line

instance (k : ReleaseKey) (line : List Char) : Decidable (k.IsAbout line) :=
  inferInstanceAs (Decidable (k.name ++ ['='] <+: trim line))

def entries (k : ReleaseKey) (lines : List (List Char)) : List (List Char) :=
  (lines.filter (k.IsAbout ·)).map trim

end ReleaseKey

inductive IsIdle (line : List Char) : Prop
  | blank (h : IsBlankRun line)
  | comment {text : List Char} (h : trim line = '#' :: text)
  | other {key value : List Char} (h : trim line = key ++ '=' :: value) (hkey : '=' ∉ key)
      (hother : ∀ k : ReleaseKey, k.name ≠ key)

namespace Assignment

open Expression

variable {line value v : List Char} {a : Assignment}

theorem unquote_eq (value : List Char) :
    unquote value = (value.dropWhile isQuote).rdropWhile isQuote := rfl

theorem unquote_eq_iff (hv : v ≠ []) : unquote value = v ↔ Unquotes value v := by
  rw [unquote_eq]
  constructor
  · rintro rfl
    generalize hwithout : value.dropWhile isQuote = without at hv ⊢
    have hback : without.rdropWhile isQuote ++ without.rtakeWhile isQuote = without :=
      List.rdropWhile_append_rtakeWhile
    refine ⟨value.takeWhile isQuote, without.rtakeWhile isQuote, ?_, ?_, ?_, ?_⟩
    · rw [List.append_assoc, hback, ← hwithout, List.takeWhile_append_dropWhile]
    · exact List.forall_mem_append.2 ⟨fun c hc => List.mem_takeWhile_imp hc,
        fun c hc => List.mem_rtakeWhile_imp hc⟩
    · have hhead := stops_dropWhile isQuote value
      rwa [hwithout, ← hback, List.head?_append_of_ne_nil _ hv] at hhead
    · rw [List.rdropWhile, List.getLast?_reverse]
      exact stops_dropWhile isQuote without.reverse
  · rintro ⟨left, right, rfl, hquotes, hhead, hlast⟩
    obtain ⟨hleft, hright⟩ := List.forall_mem_append.1 hquotes
    have hstop : ∀ c ∈ (v ++ right).head?, isQuote c = false := by
      rwa [List.head?_append_of_ne_nil _ hv]
    have hright' : ∀ c ∈ right.reverse, isQuote c = true := by simpa using hright
    have hlast' : ∀ c ∈ v.reverse.head?, isQuote c = false := by rwa [List.head?_reverse]
    rw [List.append_assoc, dropWhile_append_stop hleft hstop, List.rdropWhile, List.reverse_append,
      dropWhile_append_stop hright' hlast', List.reverse_reverse]

theorem ofLine?_eq_some_iff : ofLine? line = some a ↔ ∃ rest, line = a.key ++ '=' :: rest ∧
    a.key ≠ [] ∧ (∀ c ∈ a.key, isKeyChar c = true) ∧ a.value = trimEnd rest := by
  constructor
  · intro h
    rw [ofLine?] at h
    split at h
    · next c cs rest hkey hback =>
      obtain rfl := Option.some.inj h
      refine ⟨rest, ?_, by simp, fun d hd => List.mem_takeWhile_imp (hkey ▸ hd), rfl⟩
      rw [← hback, ← hkey, List.takeWhile_append_dropWhile]
    · exact absurd h.symm (Option.some_ne_none a)
  · obtain ⟨key, value⟩ := a
    rintro ⟨rest, rfl, hne, hkey, rfl⟩
    obtain ⟨c, cs, rfl⟩ := List.exists_cons_of_ne_nil hne
    have hstop : ∀ d ∈ ('=' :: rest).head?, isKeyChar d = false := by
      rintro d ⟨⟩
      decide
    rw [ofLine?, takeWhile_append_stop hkey hstop, dropWhile_append_stop hkey hstop]
    rfl

theorem ofLine?_trimStart_eq_some_iff : ofLine? (trimStart line) = some a ↔
    trim line = a.key ++ '=' :: a.value ∧ a.key ≠ [] ∧ ∀ c ∈ a.key, isKeyChar c = true := by
  have htrim (hkey : ∀ c ∈ a.key, isKeyChar c = true) (rest : List Char) :
      trimEnd (a.key ++ '=' :: rest) = a.key ++ '=' :: trimEnd rest := by
    rw [trimEnd_word_append fun c hc => isBlank_of_isKeyChar (hkey c hc),
      trimEnd_cons rest (by decide)]
  rw [ofLine?_eq_some_iff]
  constructor
  · rintro ⟨rest, hline, hne, hkey, hvalue⟩
    rw [trim, hline, htrim hkey, hvalue]
    exact ⟨rfl, hne, hkey⟩
  · rintro ⟨hline, hne, hkey⟩
    obtain ⟨g, hg, hstart⟩ := exists_trimEnd_append (trimStart line)
    have hvalue : a.value = trimEnd a.value := by
      have hfix : trimEnd (trim line) = trim line := List.rdropWhile_idempotent isBlank _
      rw [hline, htrim hkey] at hfix
      exact (List.cons.inj (List.append_cancel_left hfix)).2.symm
    refine ⟨a.value ++ g, ?_, hne, hkey, ?_⟩
    · rw [← hstart, ← trim, hline]
      simp
    · rw [trimEnd_append hg, ← hvalue]

theorem all_eq_filterMap (cs : List Char) :
    all cs = (cs.splitOn '\n').filterMap fun line => ofLine? (trimStart line) := by
  induction cs using induction_on_lines with
  | nil =>
    rw [all_nil, List.splitOn_nil]
    rfl
  | last cs hcs hne =>
    have hline : IsFirstLine cs [] := ⟨hcs, rfl⟩
    have hall := all_line hline
    rw [List.append_nil, all_nil, List.append_nil] at hall
    rw [hall, List.splitOn_eq_singleton hcs, List.filterMap_cons, List.filterMap_nil]
    cases ofLine? (trimStart cs) <;> rfl
  | line cs ds hcs ih =>
    rw [all_line ⟨hcs, rfl⟩, List.splitOn_append_cons_self_of_not_mem hcs, List.filterMap_cons, ← ih]
    have hedge : isEdge ('\n' :: ds).head? = true := rfl
    rw [← all_tail hedge, List.tail_cons]
    cases ofLine? (trimStart cs) <;> rfl

end Assignment

namespace ReleaseKey

variable {k : ReleaseKey} {line v : List Char}

theorem isKey_name (k : ReleaseKey) :
    k.name ≠ [] ∧ ∀ c ∈ k.name, Assignment.isKeyChar c = true := by
  cases k <;> exact ⟨by decide, forall_of_all (by decide)⟩

def assigned? (k : ReleaseKey) (a : Assignment) : Option (List Char) :=
  if a.key = k.name ∧ Assignment.unquote a.value ≠ [] then some (Assignment.unquote a.value) else none

def lineValue? (k : ReleaseKey) (line : List Char) : Option (List Char) :=
  (Assignment.ofLine? (trimStart line)).bind k.assigned?

theorem assigned?_eq_some_iff {a : Assignment} :
    k.assigned? a = some v ↔ a.key = k.name ∧ v ≠ [] ∧ Assignment.Unquotes a.value v := by
  rw [assigned?, Option.ite_none_right_eq_some, Option.some.injEq]
  constructor
  · rintro ⟨⟨hkey, hne⟩, rfl⟩
    exact ⟨hkey, hne, (Assignment.unquote_eq_iff hne).1 rfl⟩
  · rintro ⟨hkey, hne, hquotes⟩
    obtain rfl := (Assignment.unquote_eq_iff hne).2 hquotes
    exact ⟨⟨hkey, hne⟩, rfl⟩

theorem lineValue?_eq_some_iff : k.lineValue? line = some v ↔ k.Assigns line v := by
  rw [lineValue?, Option.bind_eq_some_iff]
  constructor
  · rintro ⟨⟨key, value⟩, hline, hv⟩
    obtain ⟨htrim, -, -⟩ := Assignment.ofLine?_trimStart_eq_some_iff.1 hline
    obtain ⟨rfl, hne, hquotes⟩ := assigned?_eq_some_iff.1 hv
    exact ⟨hne, value, htrim, hquotes⟩
  · rintro ⟨hne, value, htrim, hquotes⟩
    exact ⟨⟨k.name, value⟩, Assignment.ofLine?_trimStart_eq_some_iff.2 ⟨htrim, k.isKey_name⟩,
      assigned?_eq_some_iff.2 ⟨rfl, hne, hquotes⟩⟩

theorem lineValue?_eq_none_iff : k.lineValue? line = none ↔ ∀ u, ¬ k.Assigns line u := by
  simp only [Option.eq_none_iff_forall_ne_some, ne_eq, lineValue?_eq_some_iff]

theorem Assigns.isAbout (h : k.Assigns line v) : k.IsAbout line := by
  obtain ⟨-, value, htrim, -⟩ := h
  exact ⟨value, by rw [htrim]; simp⟩

theorem assigns_trim_iff : k.Assigns (trim line) v ↔ k.Assigns line v := by
  rw [Assigns, Assigns, trim_trim]

theorem lineValue?_trim (k : ReleaseKey) (line : List Char) :
    k.lineValue? (trim line) = k.lineValue? line := by
  apply Option.ext
  intro v
  rw [lineValue?_eq_some_iff, lineValue?_eq_some_iff, assigns_trim_iff]

theorem lineValue?_of_not_isAbout (h : ¬ k.IsAbout line) : k.lineValue? line = none :=
  lineValue?_eq_none_iff.2 fun _ hassigns => h hassigns.isAbout

theorem isAbout_trim_iff : k.IsAbout (trim line) ↔ k.IsAbout line := by
  rw [IsAbout, IsAbout, trim_trim]

theorem entries_eq_filter (k : ReleaseKey) (lines : List (List Char)) :
    k.entries lines = (lines.map trim).filter (k.IsAbout ·) := by
  have htrim : (fun line => decide (k.IsAbout line)) ∘ trim = fun line => decide (k.IsAbout line) := by
    funext line
    exact decide_eq_decide.2 isAbout_trim_iff
  rw [entries, List.filter_map, htrim]

theorem filterMap_entries (k : ReleaseKey) (lines : List (List Char)) :
    (k.entries lines).filterMap k.lineValue? = lines.filterMap k.lineValue? := by
  rw [entries, List.filterMap_map, List.filterMap_filter]
  apply List.filterMap_congr
  intro line _
  rw [Function.comp_apply, lineValue?_trim]
  split
  · rfl
  · next h => exact (lineValue?_of_not_isAbout (of_decide_eq_false (by simpa using h))).symm

theorem getLast?_filterMap_eq_iff {lines : List (List Char)} {o : Option (List Char)} :
    (lines.filterMap k.lineValue?).getLast? = o ↔ k.IsLastValue lines o := by
  rw [List.getLast?_filterMap]
  cases o with
  | none =>
    rw [List.findSome?_eq_none_iff]
    simp only [List.mem_reverse, lineValue?_eq_none_iff]
    rfl
  | some v =>
    rw [List.findSome?_eq_some_iff, IsLastValue]
    constructor
    · rintro ⟨after, line, before, hlines, hline, hafter⟩
      refine ⟨before.reverse, line, after.reverse, ?_, lineValue?_eq_some_iff.1 hline, ?_⟩
      · rw [← List.reverse_reverse lines, hlines]
        simp
      · intro l hl
        exact lineValue?_eq_none_iff.1 (hafter l (List.mem_reverse.1 hl))
    · rintro ⟨before, line, after, rfl, hline, hafter⟩
      refine ⟨after.reverse, line, before.reverse, by simp, lineValue?_eq_some_iff.2 hline, ?_⟩
      intro l hl
      exact lineValue?_eq_none_iff.2 (hafter l (List.mem_reverse.1 hl))

end ReleaseKey

theorem IsIdle.not_isAbout {line : List Char} (h : IsIdle line) (k : ReleaseKey) :
    ¬ k.IsAbout line := by
  obtain ⟨c, cs, hname⟩ := List.exists_cons_of_ne_nil k.isKey_name.1
  have hkey := k.isKey_name.2
  rintro ⟨back, htrim⟩
  cases h with
  | blank h =>
    rw [trim_eq_nil_iff.2 h, hname] at htrim
    exact absurd htrim (List.cons_ne_nil c _)
  | comment h =>
    rw [h, hname] at htrim
    obtain rfl : c = '#' := (List.cons.inj htrim).1
    exact absurd (hkey '#' (by simp [hname])) (by decide)
  | @other key value h hequals hother =>
    have hfront {w : List Char} (hw : '=' ∉ w) (rest : List Char) :
        (w ++ '=' :: rest).takeWhile (· != '=') = w :=
      takeWhile_append_stop (fun c hc => bne_iff_ne.2 (ne_of_mem_of_not_mem hc hw)) (by simp)
    have hname : '=' ∉ k.name := fun hmem => absurd (hkey '=' hmem) (by decide)
    rw [h, List.append_assoc, List.singleton_append] at htrim
    have heq := congrArg (List.takeWhile (· != '=')) htrim
    rw [hfront hname, hfront hequals] at heq
    exact hother k heq

def ofLines (lines : List (List Char)) : List Char :=
  ['\n'].intercalate lines

theorem not_mem_of_mem_splitOn {cs : List Char} : ∀ line ∈ cs.splitOn '\n', '\n' ∉ line := by
  induction cs using induction_on_lines with
  | nil => simp
  | last cs hcs hne => simpa [List.splitOn_eq_singleton hcs] using hcs
  | line cs ds hcs ih =>
    rw [List.splitOn_append_cons_self_of_not_mem hcs]
    exact List.forall_mem_cons.2 ⟨hcs, ih⟩

namespace OsRelease

open ReleaseKey

variable {cs ds : List Char} {k : ReleaseKey}

theorem eq_of_get {r s : OsRelease} (h : ∀ k : ReleaseKey, r.get k = s.get k) : r = s := by
  cases r
  cases s
  simp only [mk.injEq]
  exact ⟨h .id, h .idLike, h .version⟩

theorem get_assign (r : OsRelease) (a : Assignment) (k : ReleaseKey) :
    (r.assign a).get k = (k.assigned? a).or (r.get k) := by
  by_cases hvalue : Assignment.unquote a.value = []
  · simp [assign, assigned?, hvalue]
  · have hempty : (Assignment.unquote a.value).isEmpty = false := List.isEmpty_eq_false_iff.2 hvalue
    have hname : (k.assigned? a) =
        if a.key = k.name then some (Assignment.unquote a.value) else none := by
      simp [assigned?, hvalue]
    rw [hname]
    simp only [assign, hempty, Bool.false_eq_true, if_false]
    by_cases hid : a.key = "ID".toList
    · rw [if_pos hid, hid]
      cases k <;> rfl
    by_cases hlike : a.key = "ID_LIKE".toList
    · rw [if_neg hid, if_pos hlike, hlike]
      cases k <;> rfl
    by_cases hversion : a.key = "VERSION_ID".toList
    · rw [if_neg hid, if_neg hlike, if_pos hversion, hversion]
      cases k <;> rfl
    have hother : a.key ≠ k.name := by
      cases k
      · exact hid
      · exact hlike
      · exact hversion
    rw [if_neg hid, if_neg hlike, if_neg hversion, if_neg hother, Option.none_or]

theorem get_foldl_assign (as : List Assignment) (r : OsRelease) (k : ReleaseKey) :
    (as.foldl assign r).get k = (as.filterMap k.assigned?).getLast?.or (r.get k) := by
  induction as using List.reverseRecOn with
  | nil => rfl
  | append_singleton as a ih =>
    have hlast : ([a].filterMap k.assigned?).getLast? = k.assigned? a := by
      rw [List.filterMap_cons, List.filterMap_nil]
      cases k.assigned? a <;> rfl
    rw [List.foldl_concat, get_assign, ih, List.filterMap_append, List.getLast?_append, hlast,
      Option.or_assoc]

theorem get_ofText (cs : List Char) (k : ReleaseKey) :
    (ofText cs).get k = ((cs.splitOn '\n').filterMap k.lineValue?).getLast? := by
  have hstart : (({} : OsRelease).get k) = none := by
    cases k <;> rfl
  rw [ofText, get_foldl_assign, Assignment.all_eq_filterMap, List.filterMap_filterMap, hstart,
    Option.or_none]
  rfl

theorem ofText_eq_of_lines {r : OsRelease} (h : ∀ k : ReleaseKey,
    ((cs.splitOn '\n').filterMap k.lineValue?).getLast? = r.get k) : ofText cs = r := by
  apply eq_of_get
  intro k
  rw [get_ofText, h k]

theorem ofText_eq_foldl_occurrences (cs : List Char) :
    ofText cs = ((Assignment.expression.occurrences cs).map Way.groups).foldl takeOver {} := by
  rw [Assignment.map_groups_occurrences, List.foldl_map]
  rfl

theorem ofText_eq_of_entries (h : ∀ k : ReleaseKey,
    k.entries (cs.splitOn '\n') = k.entries (ds.splitOn '\n')) : ofText cs = ofText ds := by
  apply ofText_eq_of_lines
  intro k
  rw [get_ofText, ← k.filterMap_entries, h k, k.filterMap_entries]

theorem map_trim_splitOn_of_addsReturns (h : AddsReturns cs ds) {front : List Char}
    (hfront : '\n' ∉ front) :
    ((front ++ ds).splitOn '\n').map trim = ((front ++ cs).splitOn '\n').map trim := by
  -- `front` is what both texts have in front of here on the line that is being read.
  induction h generalizing front with
  | nil => rfl
  | @cons c cs ds h ih =>
    by_cases hc : c = '\n'
    · subst hc
      have hrest := ih (List.not_mem_nil (a := '\n'))
      rw [List.nil_append, List.nil_append] at hrest
      rw [List.splitOn_append_cons_self_of_not_mem hfront,
        List.splitOn_append_cons_self_of_not_mem hfront, List.map_cons, List.map_cons, hrest]
    · have hmore : '\n' ∉ front ++ [c] := by simp [hfront, Ne.symm hc]
      have hrest := ih hmore
      rwa [List.append_assoc, List.append_assoc, List.singleton_append, List.singleton_append]
        at hrest
  | @feed cs ds h ih =>
    have hmore : '\n' ∉ front ++ ['\r'] := by simp [hfront]
    have hreturn : IsBlankRun ['\r'] := by decide
    have hrest := ih (List.not_mem_nil (a := '\n'))
    rw [List.nil_append, List.nil_append] at hrest
    have hsplit : (front ++ '\r' :: '\n' :: ds).splitOn '\n' =
        (front ++ ['\r']) :: ds.splitOn '\n' := by
      rw [← List.splitOn_append_cons_self_of_not_mem hmore]
      simp
    rw [hsplit, List.splitOn_append_cons_self_of_not_mem hfront, List.map_cons, List.map_cons, hrest,
      trim_append_right hreturn]

theorem entries_splitOn_ofLines (k : ReleaseKey) {lines : List (List Char)}
    (h : ∀ line ∈ lines, '\n' ∉ line) :
    k.entries ((ofLines lines).splitOn '\n') = k.entries lines := by
  by_cases hnil : lines = []
  · subst hnil
    cases k <;> rfl
  · rw [ofLines, List.splitOn_intercalate '\n' h hnil]

theorem ofText_ofLines {lines : List (List Char)} (hmem : ∀ line ∈ lines, line ∈ cs.splitOn '\n')
    (h : ∀ k : ReleaseKey, k.entries lines = k.entries (cs.splitOn '\n')) :
    ofText (ofLines lines) = ofText cs := by
  apply ofText_eq_of_entries
  intro k
  rw [entries_splitOn_ofLines k fun line hline => not_mem_of_mem_splitOn line (hmem line hline), h k]

/-- A release is read line by line: for each key, the value of the last line that assigns one. Lines
about other things, the terminators of the lines and their order across keys do not matter. -/
theorem ofText_takes_last_values (cs : List Char) :
    ofText cs = ((Assignment.expression.occurrences cs).map Way.groups).foldl takeOver {} ∧
    (∀ (k : ReleaseKey) (o : Option (List Char)),
      (ofText cs).get k = o ↔ k.IsLastValue (cs.splitOn '\n') o) ∧
    (∀ before line after, cs.splitOn '\n' = before ++ line :: after → IsIdle line →
      ofText (ofLines (before ++ after)) = ofText cs) ∧
    (∀ ds, AddsReturns cs ds → ofText ds = ofText cs) ∧
    ∀ lines : List (List Char), lines.Perm (cs.splitOn '\n') →
      (∀ k : ReleaseKey, lines.filter (k.IsAbout ·) = (cs.splitOn '\n').filter (k.IsAbout ·)) →
      ofText (ofLines lines) = ofText cs := by
  refine ⟨ofText_eq_foldl_occurrences cs, ?_, ?_, ?_, ?_⟩
  · intro k o
    rw [get_ofText, getLast?_filterMap_eq_iff]
  · intro before line after hlines hidle
    apply ofText_ofLines
    · intro l hl
      rw [hlines]
      simp only [List.mem_append, List.mem_cons] at hl ⊢
      tauto
    · intro k
      rw [hlines, entries, entries]
      simp [hidle.not_isAbout k]
  · intro ds hds
    apply ofText_eq_of_entries
    intro k
    have htrim := map_trim_splitOn_of_addsReturns hds (List.not_mem_nil (a := '\n'))
    rw [List.nil_append, List.nil_append] at htrim
    rw [entries_eq_filter, entries_eq_filter, htrim]
  · intro lines hperm hfilter
    apply ofText_ofLines fun line hline => hperm.mem_iff.1 hline
    intro k
    rw [entries, entries, hfilter k]

theorem ofText_takes_last_values_derivative :
    (ofText "ID=a\n#\nID='c'\nID_LIKE=b".toList).get .id = some "c".toList ∧
    ofText "ID=a\nID='c'\nID_LIKE=b".toList = ofText "ID=a\n#\nID='c'\nID_LIKE=b".toList ∧
    ofText "ID=a\n#\r\nID='c'\r\nID_LIKE=b".toList =
      ofText "ID=a\n#\nID='c'\nID_LIKE=b".toList ∧
    ofText "ID_LIKE=b\nID=a\n#\nID='c'".toList = ofText "ID=a\n#\nID='c'\nID_LIKE=b".toList := by
  obtain ⟨-, hvalue, hidle, hreturns, horder⟩ :=
    ofText_takes_last_values "ID=a\n#\nID='c'\nID_LIKE=b".toList
  have hlines : "ID=a\n#\nID='c'\nID_LIKE=b".toList.splitOn '\n' =
      ["ID=a".toList, "#".toList, "ID='c'".toList, "ID_LIKE=b".toList] := by
    decide
  rw [hlines] at hvalue hidle horder
  refine ⟨(hvalue .id _).2 ?_, ?_, ?_, ?_⟩
  · refine ⟨["ID=a".toList, "#".toList], "ID='c'".toList, ["ID_LIKE=b".toList], rfl, ?_, ?_⟩
    · have hc : "c".toList ≠ [] := by decide
      exact ⟨hc, "'c'".toList, by decide, (Assignment.unquote_eq_iff hc).1 (by decide)⟩
    · intro l hl
      obtain rfl := List.mem_singleton.1 hl
      exact ReleaseKey.lineValue?_eq_none_iff.1 (by decide)
  · have hcomment : trim "#".toList = ['#'] := by decide
    exact hidle ["ID=a".toList] "#".toList ["ID='c'".toList, "ID_LIKE=b".toList] rfl
      (.comment hcomment)
  · apply hreturns
    repeat first | exact .nil | apply AddsReturns.feed | apply AddsReturns.cons
  · refine horder ["ID_LIKE=b".toList, "ID=a".toList, "#".toList, "ID='c'".toList] ?_ ?_
    · decide
    · intro k
      cases k <;> decide

end OsRelease

end PlatformRules
