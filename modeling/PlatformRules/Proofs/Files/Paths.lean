import PlatformRules.Files.Discovery
import PlatformRules.Proofs.Folds

namespace PlatformRules

namespace FileTree

structure IsName (name : FileName) : Prop where
  slash : Path.slash ∉ name
  proper : name ≠ [] ∧ name ≠ Place.here ∧ name ≠ Place.up
  length : name.length ≤ nameLimit

instance (name : FileName) : Decidable (IsName name) :=
  decidable_of_iff
    (Path.slash ∉ name ∧ (name ≠ [] ∧ name ≠ Place.here ∧ name ≠ Place.up) ∧
      name.length ≤ nameLimit)
    ⟨fun ⟨slash, proper, length⟩ => ⟨slash, proper, length⟩, fun h => ⟨h.slash, h.proper, h.length⟩⟩

theorem IsName.enter {name : FileName} (h : IsName name) (p : Place) :
    p.enter name = p ++ [name] := by
  obtain ⟨hempty, hdot, hdots⟩ := h.proper
  simp [Place.enter, hempty, hdot, hdots]

def IsPlace (p : Place) : Prop :=
  ∃ start names, p = start ++ names ∧ (start = [Place.root] ∨ ∀ name ∈ start, name = Place.up) ∧
    ∀ name ∈ names, IsName name

theorem isPlace_of_names {p : Place} (h : ∀ name ∈ p, IsName name) : IsPlace p :=
  ⟨[], p, rfl, .inr (by simp), h⟩

structure IsTree (t : FileTree) : Prop where
  nodup : (t.files.map (·.1)).Nodup
  apart : ∀ f ∈ t.files, t.hasFolder f.1 = false
  places : ∀ f ∈ t.files, IsPlace f.1

variable {t : FileTree} {path : Path} {p rest : Place}

theorem isTree_of_names (hnodup : (t.files.map (·.1)).Nodup)
    (hapart : ∀ f ∈ t.files, t.hasFolder f.1 = false)
    (hnames : ∀ f ∈ t.files, ∀ name ∈ f.1, IsName name) : t.IsTree :=
  ⟨hnodup, hapart, fun f hf => isPlace_of_names (hnames f hf)⟩

def rooted : List FileName → List FileName
  | [] => []
  | name :: names => (if name = [] then Place.root else name) :: names

theorem rooted_append {names : List FileName} (h : names ≠ []) (more : List FileName) :
    rooted (names ++ more) = rooted names ++ more := by
  cases names with
  | nil => exact absurd rfl h
  | cons name names => rfl

theorem names_eq (h : path ≠ []) : names path = rooted (path.splitOn Path.slash) := by
  have hpath : path.isEmpty = false := by simpa using h
  rw [names, hpath]
  generalize path.splitOn Path.slash = names
  cases names with
  | nil => rfl
  | cons name names =>
    cases name with
    | nil => rfl
    | cons b name => simp [rooted]

theorem join_front (path : Path) : ∃ front, (path = front ∨ path = front ++ [Path.slash]) ∧
    ∀ rest, join path rest = front ++ Path.slash :: [Path.slash].intercalate rest := by
  unfold join
  by_cases h : endsInSlash path = true
  · obtain ⟨front, rfl⟩ : ∃ front, path = front ++ [Path.slash] := by
      simpa [endsInSlash, List.getLast?_eq_some_iff] using h
    exact ⟨front, .inr rfl, fun rest => by simp [h]⟩
  · exact ⟨path, .inl rfl, fun rest => by simp [h]⟩

theorem prefix_join (path : Path) (rest : Place) : path <+: join path rest := by
  unfold join
  split <;> simp

theorem length_le_join (path : Path) (rest : Place) :
    path.length + ([Path.slash].intercalate rest).length ≤ (join path rest).length := by
  unfold join
  split <;> simp only [List.length_append, List.length_cons] <;> omega

theorem join_ne_nil (path : Path) (rest : Place) : join path rest ≠ [] := by
  obtain ⟨front, -, hjoin⟩ := join_front path
  simp [hjoin]

theorem join_injective {more : Place} (hrest : rest ≠ []) (hmore : more ≠ [])
    (hslash : ∀ name ∈ rest, Path.slash ∉ name) (hslash' : ∀ name ∈ more, Path.slash ∉ name)
    (h : join path rest = join path more) : rest = more := by
  obtain ⟨front, -, hjoin⟩ := join_front path
  have hsame := (hjoin rest).symm.trans (h ▸ hjoin more)
  obtain ⟨-, hsame⟩ := List.cons.inj (List.append_cancel_left hsame)
  rw [← List.splitOn_intercalate Path.slash hslash hrest, hsame,
    List.splitOn_intercalate Path.slash hslash' hmore]

theorem names_join (hpath : path ≠ []) (hne : rest ≠ [])
    (hrest : ∀ name ∈ rest, Path.slash ∉ name) : ∃ names',
      (names path = names' ∨ names path = names' ++ [[]]) ∧
        names (join path rest) = names' ++ rest := by
  obtain ⟨front, hfront, hjoin⟩ := join_front path
  refine ⟨rooted (front.splitOn Path.slash), ?_, ?_⟩
  · rw [names_eq hpath]
    rcases hfront with rfl | rfl
    · exact .inl rfl
    · right
      rw [List.splitOn_append_cons_self, rooted_append (List.splitOn_ne_nil _ _)]
      rfl
  · rw [names_eq (join_ne_nil path rest), hjoin, List.splitOn_append_cons_self,
      rooted_append (List.splitOn_ne_nil _ _), List.splitOn_intercalate _ hrest hne]

theorem place_eq_ok_iff : t.place path = .ok p ↔
    path ≠ [] ∧ path.length ≤ pathLimit ∧ (names path).foldlM t.step [] = .ok p := by
  unfold place follow
  by_cases hpath : path = []
  · simp [hpath]
  · rw [if_neg (by simpa using hpath)]
    by_cases hlong : path.length > pathLimit
    · simp [hlong, Nat.not_le.2 hlong]
    · simp [hpath, hlong, Nat.not_lt.1 hlong]

theorem step_eq_ok {name : FileName} {q : Place} (h : t.step p name = .ok q) :
    t.hasFolder p = true ∧ q = p.enter name := by
  unfold step at h
  split at h
  · simp at h
  · next hfolder =>
    split at h
    · simp at h
    · exact ⟨by simpa using hfolder, (Except.ok.inj h).symm⟩

theorem step_of_isName {name : FileName} (hfolder : t.hasFolder p = true) (hname : IsName name) :
    t.step p name = .ok (p ++ [name]) := by
  rw [step, hfolder, if_neg (by simp), if_neg (Nat.not_lt.2 hname.length), hname.enter]

theorem hasFolder_of_file {f : Place × File} (hf : f ∈ t.files) {back : Place}
    (h : f.1 = p ++ back) (hne : back ≠ []) : t.hasFolder p = true := by
  have hany : t.files.any (fun f => p != f.1 && p.isPrefixOf f.1) = true := by
    refine List.any_eq_true.2 ⟨f, hf, ?_⟩
    have hstart : p.isPrefixOf f.1 = true := List.isPrefixOf_iff_prefix.2 ⟨back, h.symm⟩
    have hpne : p ≠ f.1 := by
      rw [h]
      simpa using hne
    simp [hstart, hpne]
  simp [hasFolder, hany]

theorem foldlM_step {f : Place × File} (hf : f ∈ t.files) (h : f.1 = p ++ rest)
    (hrest : ∀ name ∈ rest, IsName name) : rest.foldlM t.step p = .ok (p ++ rest) := by
  induction rest generalizing p with
  | nil => simp [pure, Except.pure]
  | cons name rest ih =>
    have hfolder := hasFolder_of_file hf h (List.cons_ne_nil name rest)
    have happend : p ++ name :: rest = p ++ [name] ++ rest := by simp
    have hnext := ih (h.trans happend) fun n hn => hrest n (List.mem_cons_of_mem name hn)
    rw [List.foldlM_cons, step_of_isName hfolder (hrest name (by simp)), happend]
    exact hnext

theorem place_join {f : Place × File} (hplace : t.place path = .ok p) (hf : f ∈ t.files)
    (h : f.1 = p ++ rest) (hne : rest ≠ []) (hrest : ∀ name ∈ rest, IsName name) :
    t.place (join path rest) = if (join path rest).length > pathLimit then .error .longName
      else .ok (p ++ rest) := by
  obtain ⟨hpath, -, hfold⟩ := place_eq_ok_iff.1 hplace
  obtain ⟨names', hnames, hjoin⟩ := names_join hpath hne fun name hname => (hrest name hname).slash
  have hreached : names'.foldlM t.step [] = .ok p := by
    rcases hnames with hnames | hnames
    · rwa [← hnames]
    · rw [hnames, List.foldlM_append] at hfold
      obtain ⟨q, hinner, hlast⟩ := exists_of_bind_eq_ok hfold
      have hstep : t.step q [] = .ok p := (bind_pure (t.step q [])).symm.trans hlast
      rw [hinner, (step_eq_ok hstep).2]
      rfl
  have hwhole : (names (join path rest)).foldlM t.step [] = .ok (p ++ rest) := by
    rw [hjoin, List.foldlM_append, hreached]
    exact foldlM_step hf h hrest
  have hnonempty : (join path rest).isEmpty = false :=
    by simpa using join_ne_nil path rest
  rw [place, follow, hnonempty, if_neg Bool.false_ne_true, hwhole]

section Dots

def dots (n : Nat) : Path :=
  (List.replicate n [Path.dot, Path.slash]).flatten

theorem dots_succ (n : Nat) : dots (n + 1) = Path.dot :: Path.slash :: dots n := by
  simp [dots, List.replicate_succ]

theorem splitOn_dots (n : Nat) :
    (dots n).splitOn Path.slash = List.replicate n Place.here ++ [[]] := by
  induction n with
  | zero => rfl
  | succ n ih =>
    have hdot : [Path.dot].splitOn Path.slash = [Place.here] := by decide
    have hmore := List.splitOn_append_cons_self (a := Path.slash) [Path.dot] (dots n)
    rw [ih, hdot] at hmore
    rw [dots_succ, List.replicate_succ]
    exact hmore

theorem length_dots (n : Nat) : (dots n).length = 2 * n := by
  simp [dots, Nat.mul_comm]

theorem place_dots (t : FileTree) {n : Nat} (hn : n ≠ 0) (hlength : 2 * n ≤ pathLimit) :
    t.place (dots n) = .ok [] := by
  obtain ⟨n, rfl⟩ := Nat.exists_eq_succ_of_ne_zero hn
  have hne : dots (n + 1) ≠ [] := by simp [dots_succ]
  have hdot : t.step [] Place.here = .ok [] := rfl
  have hend : t.step [] [] = .ok [] := rfl
  have hdots : ∀ n, (List.replicate n Place.here ++ [[]]).foldlM t.step [] = .ok [] := by
    intro n
    induction n with
    | zero =>
      rw [List.replicate_zero, List.nil_append, List.foldlM_cons, hend]
      rfl
    | succ n ih =>
      rw [List.replicate_succ, List.cons_append, List.foldlM_cons, hdot]
      exact ih
  refine place_eq_ok_iff.2 ⟨hne, by rwa [length_dots], ?_⟩
  rw [names_eq hne, splitOn_dots]
  exact hdots (n + 1)

end Dots

end FileTree

end PlatformRules
