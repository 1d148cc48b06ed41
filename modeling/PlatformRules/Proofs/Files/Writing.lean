import PlatformRules.Proofs.Files.Documents

namespace PlatformRules

namespace FileTree

variable {t u v : FileTree} {path folder : Path} {p q rest : Place} {bytes : List UInt8}

/-- Between two trees folders may be added, and at one place a file may be added or changed, unless
a folder is there. -/
structure SameBut (q : Place) (t u : FileTree) : Prop where
  folders : ∀ p, t.hasFolder p = true → u.hasFolder p = true
  files : u.files.filter (·.1 ≠ q) = t.files.filter (·.1 ≠ q)
  folder : t.hasFolder q = true → u.files = t.files

structure Refills (q : Place) (t u : FileTree) : Prop extends SameBut q t u where
  ways : u.folders = t.folders
  places : u.files.map (·.1) = t.files.map (·.1)

theorem SameBut.refl (q : Place) (t : FileTree) : SameBut q t t :=
  ⟨fun _ => id, rfl, fun _ => rfl⟩

theorem SameBut.trans (h : SameBut q t u) (h' : SameBut q u v) : SameBut q t v :=
  ⟨fun p hp => h'.folders p (h.folders p hp), h'.files.trans h.files,
    fun hq => (h'.folder (h.folders q hq)).trans (h.folder hq)⟩

theorem Refills.refl (q : Place) (t : FileTree) : Refills q t t :=
  ⟨.refl q t, rfl, rfl⟩

theorem Refills.trans (h : Refills q t u) (h' : Refills q u v) : Refills q t v :=
  ⟨h.toSameBut.trans h'.toSameBut, h'.ways.trans h.ways, h'.places.trans h.places⟩

theorem sameBut_addFolder (q p : Place) (t : FileTree) :
    SameBut q t { t with folders := t.folders ++ [p] } := by
  refine ⟨fun x hx => ?_, rfl, fun _ => rfl⟩
  simp only [hasFolder, List.any_append, Bool.or_eq_true] at hx ⊢
  tauto

theorem sameBut_addFolders {names : List FileName} (h : t.addFolders p names = .ok u) :
    SameBut q t u := by
  induction names generalizing t p with
  | nil =>
    obtain rfl := Except.ok.inj h
    exact .refl q t
  | cons name names ih =>
    rw [addFolders] at h
    obtain ⟨r, -, h⟩ := exists_of_bind_eq_ok h
    split at h
    · exact ih h
    · split at h
      · cases h
      · exact (sameBut_addFolder q r t).trans (ih h)

theorem isSome_content?_iff : (t.content? p).isSome = true ↔
    p ∈ Place.voids ∨ p ∈ t.files.map (·.1) := by
  unfold content?
  split
  · next hvoid => simp [hvoid]
  · next hvoid => rw [isSome_file?_iff, or_iff_right hvoid]

theorem places_put (t : FileTree) (q : Place) (bytes : List UInt8) :
    (t.put q bytes).files.map (·.1) =
      t.files.map (·.1) ++ if (t.content? q).isSome then [] else [q] := by
  unfold put content?
  split
  · simp
  · split
    · next hfile =>
      rw [List.append_nil, List.map_map]
      refine List.map_congr_left fun f _ => ?_
      rw [Function.comp_apply]
      split
      · next hf => exact hf.symm
      · rfl
    · simp

theorem folders_put (t : FileTree) (q : Place) (bytes : List UInt8) :
    (t.put q bytes).folders = t.folders := by
  unfold put
  split <;> [rfl; (split <;> rfl)]

theorem hasFolder_put (h : t.hasFolder p = true) : (t.put q bytes).hasFolder p = true := by
  have hplaces : ∀ t : FileTree, t.hasFolder p = (p.isGiven || t.folders.any (p.isPrefixOf ·) ||
      (t.files.map (·.1)).any fun r => p != r && p.isPrefixOf r) := by
    intro t
    rw [hasFolder, List.any_map]
    rfl
  rw [hplaces] at h ⊢
  rw [folders_put, places_put, List.any_append, ← Bool.or_assoc, h, Bool.true_or]

theorem filter_put (t : FileTree) (q : Place) (bytes : List UInt8) :
    (t.put q bytes).files.filter (·.1 ≠ q) = t.files.filter (·.1 ≠ q) := by
  unfold put
  split
  · rfl
  · split
    · dsimp only
      induction t.files with
      | nil => rfl
      | cons f files ih =>
        rw [List.map_cons]
        by_cases hf : f.1 = q
        · rw [List.filter_cons_of_neg (by simp [hf]), List.filter_cons_of_neg (by simp [hf]), ih]
        · rw [if_neg hf, List.filter_cons_of_pos (by simpa using hf),
            List.filter_cons_of_pos (by simpa using hf), ih]
    · simp

theorem sameBut_put (h : t.hasFolder q = false) : SameBut q t (t.put q bytes) :=
  ⟨fun _ => hasFolder_put, filter_put t q bytes, fun hq => by simp [h] at hq⟩

theorem isSome_content?_put (t : FileTree) (q : Place) (bytes : List UInt8) :
    ((t.put q bytes).content? q).isSome = true := by
  rw [isSome_content?_iff, places_put, List.mem_append, ← or_assoc, ← isSome_content?_iff]
  by_cases h : (t.content? q).isSome = true
  · exact .inl h
  · rw [if_neg h]
    exact .inr (List.mem_singleton_self q)

theorem refills_put (h : t.hasFolder q = false) (hcontent : (t.content? q).isSome = true) :
    Refills q t (t.put q bytes) :=
  ⟨sameBut_put h, folders_put t q bytes, by rw [places_put, if_pos hcontent, List.append_nil]⟩

theorem Refills.content? (h : Refills q t u) (p : Place) :
    (u.content? p).isSome = (t.content? p).isSome := by
  rw [Bool.eq_iff_iff, isSome_content?_iff, isSome_content?_iff, h.places]

theorem Refills.foldersBelow (h : Refills q t u) (p : Place) :
    u.foldersBelow p = t.foldersBelow p := by
  have hbelow : ∀ t : FileTree, t.files.filterMap (fun f => p.below? f.1) =
      (t.files.map (·.1)).filterMap p.below? := by
    intro t
    rw [List.filterMap_map]
    rfl
  rw [FileTree.foldersBelow, FileTree.foldersBelow, hbelow u, hbelow t, h.places, h.ways]

theorem target_eq_ok (h : t.target path = .ok q) : t.stop path = .ok q ∧ t.hasFolder q = false := by
  unfold target at h
  obtain ⟨p, hstop, h⟩ := exists_of_bind_eq_ok h
  by_cases hif : (t.hasFolder p || endsInSlash path) = true
  · rw [if_pos hif] at h
    cases h
  · rw [if_neg hif] at h
    split at h
    · cases h
    · obtain rfl := Except.ok.inj h
      simp only [Bool.or_eq_true, not_or, Bool.not_eq_true] at hif
      exact ⟨hstop, hif.1⟩

theorem append_eq_ok (h : t.append path bytes = .ok u) :
    ∃ q, t.target path = .ok q ∧ u = t.put q ((t.file? q).elim [] (·.bytes) ++ bytes) := by
  unfold append at h
  cases htarget : t.target path with
  | error e => simp [htarget, Except.map] at h
  | ok q =>
    rw [htarget] at h
    exact ⟨q, rfl, (Except.ok.inj h).symm⟩

theorem SameBut.foldlM_step (h : SameBut q t u) {names : List FileName} {p p' : Place}
    (hnames : names.foldlM t.step p = .ok p') : names.foldlM u.step p = .ok p' := by
  induction names generalizing p with
  | nil => exact hnames
  | cons name names ih =>
    rw [List.foldlM_cons] at hnames ⊢
    obtain ⟨r, hstep, hnames⟩ := exists_of_bind_eq_ok hnames
    have hfolder := (step_eq_ok hstep).1
    have hstep' : u.step p name = .ok r := by
      rw [← hstep, step, step, hfolder, h.folders p hfolder]
      rfl
    rw [hstep']
    exact ih hnames

theorem SameBut.follow (h : SameBut q t u) {names : List FileName}
    (hnames : t.follow path names = .ok p) : u.follow path names = .ok p := by
  unfold FileTree.follow at hnames ⊢
  split at hnames
  · cases hnames
  · split at hnames
    · cases hnames
    · next hpath hlong => rw [if_neg hpath, if_neg hlong, h.foldlM_step hnames]

theorem SameBut.mem_iff (h : SameBut q t u) (hp : p ≠ q) :
    p ∈ u.files.map (·.1) ↔ p ∈ t.files.map (·.1) := by
  have hfilter : ∀ t : FileTree,
      p ∈ t.files.map (·.1) ↔ p ∈ (t.files.filter (·.1 ≠ q)).map (·.1) := by
    intro t
    simp only [List.mem_map, List.mem_filter, decide_eq_true_eq]
    constructor
    · rintro ⟨f, hf, rfl⟩
      exact ⟨f, ⟨hf, hp⟩, rfl⟩
    · rintro ⟨f, ⟨hf, -⟩, rfl⟩
      exact ⟨f, hf, rfl⟩
  rw [hfilter u, h.files, ← hfilter t]

theorem lookup_filter_ne {files : List (Place × File)} (hp : p ≠ q) :
    (files.filter (·.1 ≠ q)).lookup p = files.lookup p := by
  induction files with
  | nil => rfl
  | cons f files ih =>
    by_cases hf : f.1 = q
    · have hpf : (p == f.1) = false := by simpa [hf] using hp
      rw [List.filter_cons_of_neg (by simp [hf]), ih, List.lookup_cons, hpf]
    · rw [List.filter_cons_of_pos (by simpa using hf), List.lookup_cons, List.lookup_cons, ih]

theorem SameBut.file? (h : SameBut q t u) (hp : p ≠ q) : u.file? p = t.file? p := by
  rw [FileTree.file?, FileTree.file?, ← lookup_filter_ne hp, h.files, lookup_filter_ne hp]

theorem SameBut.file?_folder (h : SameBut q t u) (hfolder : t.hasFolder p = true) :
    u.file? p = t.file? p := by
  by_cases hp : p = q
  · subst hp
    rw [FileTree.file?, h.folder hfolder]
    rfl
  · exact h.file? hp

theorem sameBut_opened (h : (t.addParents path >>= (·.append path bytes)) = .ok u) :
    ∃ q, SameBut q t u ∧ u.stop path = .ok q ∧ (u.content? q).isSome = true := by
  obtain ⟨v, hparents, happend⟩ := exists_of_bind_eq_ok h
  obtain ⟨q, htarget, rfl⟩ := append_eq_ok happend
  obtain ⟨hstop, hfolder⟩ := target_eq_ok htarget
  have hsame : SameBut q v (v.put q ((v.file? q).elim [] (·.bytes) ++ bytes)) :=
    sameBut_put hfolder
  exact ⟨q, (sameBut_addFolders hparents).trans hsame, hsame.follow hstop,
    isSome_content?_put _ _ _⟩

section

variable (h : SameBut q t u) (hq : documentBelow? p q = none)
include h hq

theorem SameBut.documentsBelow : u.documentsBelow p = t.documentsBelow p := by
  have hfilter : ∀ files : List (Place × File), files.filterMap (fun f => documentBelow? p f.1) =
      (files.filter (·.1 ≠ q)).filterMap fun f => documentBelow? p f.1 := by
    intro files
    rw [List.filterMap_filter]
    refine List.filterMap_congr fun f _ => ?_
    by_cases hf : f.1 = q
    · simp [hf, hq]
    · simp [hf]
  rw [FileTree.documentsBelow, FileTree.documentsBelow, hfilter u.files, h.files, ← hfilter]

theorem SameBut.document (hrest : t.IsDocumentBelow p rest) :
    p ++ rest ≠ q ∧ u.IsDocumentBelow p rest := by
  have hne : p ++ rest ≠ q := by
    rintro rfl
    obtain ⟨name, names, rfl⟩ := List.exists_cons_of_ne_nil hrest.ne_nil
    have hname := hrest.2.1 name (by simp)
    have hsome : documentBelow? p (p ++ name :: names) = some (name :: names) :=
      documentBelow?_eq_some_iff.2 ⟨below?_eq_some_iff.2 ⟨rfl, name, names, rfl,
        fun hroot => hname.slash (hroot ▸ by decide), hname.proper.2.2⟩,
        isDocument_iff.2 hrest.2.2⟩
    rw [hsome] at hq
    cases hq
  exact ⟨hne, (h.mem_iff hne).2 hrest.1, hrest.2⟩

theorem SameBut.readText (hplace : t.place folder = .ok p) (hrest : t.IsDocumentBelow p rest) :
    u.readText (join folder rest) = t.readText (join folder rest) := by
  obtain ⟨hne, hrest'⟩ := h.document hq hrest
  have hcontent : u.content? (p ++ rest) = t.content? (p ++ rest) := by
    rw [content?, content?, h.file? hne]
  have hsome : (t.content? (p ++ rest)).isSome = true := by
    unfold content?
    split
    · rfl
    · exact isSome_file?_iff.2 hrest.1
  have hread : u.read (join folder rest) = t.read (join folder rest) := by
    rw [FileTree.read, FileTree.read, place_document hplace hrest,
      place_document (h.follow hplace) hrest']
    split
    · rfl
    · obtain ⟨f, hf⟩ := Option.isSome_iff_exists.1 hsome
      simp only [bind, Except.bind, hcontent, hf]
  rw [FileTree.readText, FileTree.readText, hread]

end

end FileTree

end PlatformRules
