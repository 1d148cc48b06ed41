import Mathlib.Data.List.Basic
import PlatformRules.Proofs.Text.Runs
import PlatformRules.Text.Expression

namespace PlatformRules.Text

variable {p : Char → Bool} {cs : List Char} {w : Way}

theorem of_mem_runs (h : w ∈ runs p cs) :
    w.taken ++ w.rest = cs ∧ (∀ c ∈ w.taken, p c = true) ∧ w.groups = [] := by
  induction cs generalizing w with
  | nil =>
    obtain rfl := List.mem_singleton.1 h
    simp
  | cons c cs ih =>
    rw [runs] at h
    split at h
    · next hc =>
      rcases List.mem_append.1 h with h | h
      · obtain ⟨v, hv, rfl⟩ := List.mem_map.1 h
        obtain ⟨hcs, hrun, -⟩ := ih hv
        exact ⟨congrArg (c :: ·) hcs, List.forall_mem_cons.2 ⟨hc, hrun⟩, rfl⟩
      · obtain rfl := List.mem_singleton.1 h
        simp
    · obtain rfl := List.mem_singleton.1 h
      simp

theorem runs_eq (p : Char → Bool) (cs : List Char) :
    ∃ others, runs p cs = ⟨cs.takeWhile p, [], cs.dropWhile p⟩ :: others ∧
      ∀ u ∈ others, ∃ c ds, u.rest = c :: ds ∧ p c = true := by
  induction cs with
  | nil => exact ⟨[], rfl, by simp⟩
  | cons c cs ih =>
    by_cases hc : p c = true
    · obtain ⟨others, heq, hothers⟩ := ih
      refine ⟨others.map (fun w => ⟨c :: w.taken, [], w.rest⟩) ++ [⟨[], [], c :: cs⟩], ?_, ?_⟩
      · simp [runs, hc, heq]
      · intro u hu
        rcases List.mem_append.1 hu with hu | hu
        · obtain ⟨v, hv, rfl⟩ := List.mem_map.1 hu
          exact hothers v hv
        · obtain rfl := List.mem_singleton.1 hu
          exact ⟨c, cs, rfl, hc⟩
    · exact ⟨[], by simp [runs, hc], by simp⟩

theorem runs_reverse_eq {run : List Char} (hrun : ∀ c ∈ run, p c = true) (rest : List Char) :
    ∃ shorter longer, (runs p (run ++ rest)).reverse = shorter ++ ⟨run, [], rest⟩ :: longer ∧
      ∀ u ∈ shorter, ∃ ds, ds ≠ [] ∧ u.taken ++ ds = run ∧ u.rest = ds ++ rest := by
  induction run with
  | nil =>
    refine ⟨[], ?_⟩
    cases rest with
    | nil => exact ⟨[], rfl, by simp⟩
    | cons c cs =>
      rw [List.nil_append, runs]
      split
      · exact ⟨_, by rw [List.reverse_append]; rfl, by simp⟩
      · exact ⟨[], rfl, by simp⟩
  | cons c run ih =>
    have hc := hrun c (by simp)
    obtain ⟨shorter, longer, heq, hshorter⟩ := ih fun d hd => hrun d (List.mem_cons_of_mem c hd)
    refine ⟨⟨[], [], c :: run ++ rest⟩ :: shorter.map (fun w => ⟨c :: w.taken, [], w.rest⟩),
      longer.map (fun w => ⟨c :: w.taken, [], w.rest⟩), ?_, ?_⟩
    · rw [List.cons_append, runs, if_pos hc, List.reverse_append, ← List.map_reverse, heq]
      simp
    · intro u hu
      rcases List.mem_cons.1 hu with rfl | hu
      · exact ⟨c :: run, by simp, rfl, rfl⟩
      · obtain ⟨v, hv, rfl⟩ := List.mem_map.1 hu
        obtain ⟨ds, hne, htaken, hrest⟩ := hshorter v hv
        exact ⟨ds, hne, congrArg (c :: ·) htaken, hrest⟩

theorem mem_runs {run : List Char} (hrun : ∀ c ∈ run, p c = true) (rest : List Char) :
    ⟨run, [], rest⟩ ∈ runs p (run ++ rest) := by
  obtain ⟨shorter, longer, heq, -⟩ := runs_reverse_eq hrun rest
  rw [← List.mem_reverse, heq]
  simp

namespace Expression

variable {e f : Expression} {prev : Option Char} {v : Way}

theorem first?_seq (e f : Expression) (prev : Option Char) (cs : List Char) :
    (seq e f).first? prev cs = (e.ways prev cs).findSome? fun v =>
      (f.first? (v.taken.getLast?.or prev) v.rest).map v.followedBy := by
  simp only [first?, ways, List.head?_flatMap, List.head?_map]

theorem first?_seq_of_cons {vs : List Way} (hways : e.ways prev cs = v :: vs)
    (hvs : ∀ u ∈ vs, ∀ prev, f.first? prev u.rest = none) :
    (seq e f).first? prev cs = (f.first? (v.taken.getLast?.or prev) v.rest).map v.followedBy := by
  have hnone : (vs.findSome? fun u =>
      (f.first? (u.taken.getLast?.or prev) u.rest).map u.followedBy) = none := by
    rw [List.findSome?_eq_none_iff]
    intro u hu
    rw [hvs u hu, Option.map_none]
  rw [first?_seq, hways, List.findSome?_cons, hnone]
  cases (f.first? (v.taken.getLast?.or prev) v.rest).map v.followedBy <;> rfl

theorem first?_seq_lineStart (h : isEdge prev = true) :
    (seq lineStart f).first? prev cs = (f.first? prev cs).map (Way.followedBy ⟨[], [], cs⟩) := by
  have hways : lineStart.ways prev cs = [⟨[], [], cs⟩] := by simp [ways, h]
  exact first?_seq_of_cons hways (by simp)

theorem first?_seq_one {c : Char} (hc : p c = true) :
    (seq (one p) f).first? prev (c :: cs) =
      (f.first? (some c) cs).map (Way.followedBy ⟨[c], [], cs⟩) := by
  have hways : (one p).ways prev (c :: cs) = [⟨[c], [], cs⟩] := by simp [ways, hc]
  exact first?_seq_of_cons hways (by simp)

theorem first?_seq_one_eq_none (h : ∀ c ∈ cs.head?, p c = false) :
    (seq (one p) f).first? prev cs = none := by
  cases cs with
  | nil => rfl
  | cons c cs => simp [first?, ways, h c rfl]

theorem first?_seq_most (hf : ∀ prev c cs, p c = true → f.first? prev (c :: cs) = none) :
    (seq (most p) f).first? prev cs =
      (f.first? ((cs.takeWhile p).getLast?.or prev) (cs.dropWhile p)).map
        (Way.followedBy ⟨cs.takeWhile p, [], cs.dropWhile p⟩) := by
  obtain ⟨others, heq, hothers⟩ := runs_eq p cs
  have hways : (most p).ways prev cs = ⟨cs.takeWhile p, [], cs.dropWhile p⟩ :: others := heq
  apply first?_seq_of_cons hways
  intro u hu prev
  obtain ⟨c, ds, hrest, hc⟩ := hothers u hu
  rw [hrest]
  exact hf prev c ds hc

theorem first?_seq_word {c : Char} (hc : p c = true)
    (hf : ∀ prev c cs, p c = true → f.first? prev (c :: cs) = none) :
    (seq (group (seq (one p) (most p))) f).first? prev (c :: cs) =
      (f.first? ((c :: cs.takeWhile p).getLast?.or prev) (cs.dropWhile p)).map
        (Way.followedBy ⟨c :: cs.takeWhile p, [c :: cs.takeWhile p], cs.dropWhile p⟩) := by
  obtain ⟨others, heq, hothers⟩ := runs_eq p cs
  have hways : (group (seq (one p) (most p))).ways prev (c :: cs) =
      ⟨c :: cs.takeWhile p, [c :: cs.takeWhile p], cs.dropWhile p⟩ ::
        others.map fun u => ⟨c :: u.taken, (c :: u.taken) :: u.groups, u.rest⟩ := by
    simp [ways, hc, heq, Way.followedBy, Way.keep]
  apply first?_seq_of_cons hways
  intro u hu prev
  obtain ⟨v, hv, rfl⟩ := List.mem_map.1 hu
  obtain ⟨d, ds, hrest, hd⟩ := hothers v hv
  simp only [hrest]
  exact hf prev d ds hd

theorem first?_seq_word_eq_none (h : ∀ c ∈ cs.head?, p c = false) :
    (seq (group (seq (one p) (most p))) f).first? prev cs = none := by
  cases cs with
  | nil => rfl
  | cons c cs => simp [first?, ways, h c rfl]

theorem first?_seq_least {run rest : List Char} (hrun : ∀ c ∈ run, p c = true)
    (hshort : ∀ ds, ds ≠ [] → ds <:+ run → ∀ prev, f.first? prev (ds ++ rest) = none)
    (hw : f.first? (run.getLast?.or prev) rest = some w) :
    (seq (group (least p)) f).first? prev (run ++ rest) =
      some (Way.followedBy ⟨run, [run], rest⟩ w) := by
  obtain ⟨shorter, longer, heq, hshorter⟩ := runs_reverse_eq hrun rest
  have hways : (group (least p)).ways prev (run ++ rest) =
      shorter.map Way.keep ++ ⟨run, [run], rest⟩ :: longer.map Way.keep := by
    rw [ways, ways, heq, List.map_append]
    rfl
  rw [first?_seq, hways, List.findSome?_append, List.findSome?_cons]
  have hnone : ((shorter.map Way.keep).findSome? fun u =>
      (f.first? (u.taken.getLast?.or prev) u.rest).map u.followedBy) = none := by
    rw [List.findSome?_eq_none_iff]
    intro u hu
    obtain ⟨v, hv, rfl⟩ := List.mem_map.1 hu
    obtain ⟨ds, hne, htaken, hrest⟩ := hshorter v hv
    have hfirst := hshort ds hne ⟨v.taken, htaken⟩
    simp [Way.keep, hrest, hfirst]
  rw [hnone, hw]
  rfl

theorem first?_lineEnd_eq_some_iff : lineEnd.first? prev cs = some w ↔
    isEdge cs.head? = true ∧ w = ⟨[], [], cs⟩ := by
  rw [first?, ways]
  split
  · next h => simp [h, eq_comm]
  · next h => simp [h]

theorem exists_of_first?_most_lineEnd (h : (seq (most p) lineEnd).first? prev cs = some w) :
    w.taken ++ w.rest = cs ∧ (∀ c ∈ w.taken, p c = true) ∧ w.groups = [] ∧
      isEdge w.rest.head? = true := by
  rw [first?_seq] at h
  obtain ⟨v, hv, hfirst⟩ := List.exists_of_findSome?_eq_some h
  obtain ⟨u, hu, rfl⟩ := Option.map_eq_some_iff.1 hfirst
  obtain ⟨hedge, rfl⟩ := first?_lineEnd_eq_some_iff.1 hu
  obtain ⟨hcs, hrun, hgroups⟩ := of_mem_runs hv
  exact ⟨by simpa [Way.followedBy] using hcs, by simpa [Way.followedBy] using hrun,
    by simp [Way.followedBy, hgroups], hedge⟩

theorem occurrencesFrom_of_eq_some (h : e.first? prev cs = some w) (hw : w.rest.length < cs.length) :
    e.occurrencesFrom prev cs = w :: e.occurrencesFrom w.taken.getLast? w.rest := by
  have hfilter : (e.first? prev cs).filter (fun w => decide (w.rest.length < cs.length)) = some w := by
    simp [h, hw]
  rw [occurrencesFrom]
  split
  · next u hu =>
    obtain rfl := Option.some.inj (hu.symm.trans hfilter)
    rfl
  · next hu => exact absurd (hfilter.symm.trans hu) (Option.some_ne_none w)

theorem occurrencesFrom_nil (e : Expression) (prev : Option Char) :
    e.occurrencesFrom prev [] = [] := by
  rw [occurrencesFrom]
  split
  · next u hu => exact absurd (Option.filter_eq_some_iff.1 hu).2 (by simp)
  · rfl

theorem occurrencesFrom_cons_of_eq_none {c : Char} (h : e.first? prev (c :: cs) = none) :
    e.occurrencesFrom prev (c :: cs) = e.occurrencesFrom (some c) cs := by
  rw [occurrencesFrom]
  split
  · next u hu => simp [h] at hu
  · rfl

theorem eq_lineFeed_of_isEdge {c : Char} (h : isEdge (some c) = true) : c = '\n' := by
  simpa [isEdge] using h

theorem stops_append {back rest : List Char} (hback : ∀ c ∈ back.head?, p c = false)
    (hrest : isEdge rest.head? = true) (hp : p '\n' = false) :
    ∀ c ∈ (back ++ rest).head?, p c = false := by
  cases back with
  | nil =>
    intro c hc
    obtain rfl := eq_lineFeed_of_isEdge (hc ▸ hrest)
    exact hp
  | cons b back => exact hback

def IsFirstLine (line rest : List Char) : Prop :=
  '\n' ∉ line ∧ isEdge rest.head? = true

variable {line rest : List Char}

theorem exists_isFirstLine (cs : List Char) : ∃ line rest, IsFirstLine line rest ∧
    line ++ rest = cs := by
  refine ⟨cs.takeWhile (· != '\n'), cs.dropWhile (· != '\n'), ⟨?_, ?_⟩,
    List.takeWhile_append_dropWhile⟩
  · intro hmem
    simpa using List.mem_takeWhile_imp hmem
  · rw [isEdge, Option.all_eq_true]
    intro c hc
    simpa using stops_dropWhile (· != '\n') cs c hc

namespace IsFirstLine

variable (h : IsFirstLine line rest)
include h

theorem takeWhile : (line ++ rest).takeWhile (· != '\n') = line := by
  have hstop : ∀ c ∈ ([] ++ rest).head?, (c != '\n') = false := stops_append (by simp) h.2 rfl
  exact takeWhile_append_stop (fun _ hc => bne_iff_ne.2 (ne_of_mem_of_not_mem hc h.1)) hstop

theorem dropWhile : (line ++ rest).dropWhile (· != '\n') = rest :=
  List.append_cancel_left (by rw [List.takeWhile_append_dropWhile, h.takeWhile])

theorem subset_of_append_eq {taken rest' : List Char} (heq : taken ++ rest' = line ++ rest)
    (hedge : isEdge rest'.head? = true) : line ⊆ taken := by
  rcases List.append_eq_append_iff.1 heq with ⟨ds, rfl, rfl⟩ | ⟨ds, rfl, rfl⟩
  · cases ds with
    | nil => simp
    | cons c ds =>
      obtain rfl := eq_lineFeed_of_isEdge hedge
      exact absurd h.1 (by simp)
  · exact List.subset_append_left line ds

theorem isSome_first?_most_lineEnd_iff :
    ((seq (most p) lineEnd).first? prev (line ++ rest)).isSome ↔ ∀ c ∈ line, p c = true := by
  constructor
  · intro hsome
    obtain ⟨w, hw⟩ := Option.isSome_iff_exists.1 hsome
    obtain ⟨heq, hrun, -, hedge⟩ := exists_of_first?_most_lineEnd hw
    exact fun c hc => hrun c (h.subset_of_append_eq heq hedge hc)
  · intro hrun
    rw [first?_seq, List.findSome?_isSome_iff]
    refine ⟨_, mem_runs hrun rest, ?_⟩
    rw [first?_lineEnd_eq_some_iff.2 ⟨h.2, rfl⟩]
    rfl

end IsFirstLine

end Expression

end PlatformRules.Text
