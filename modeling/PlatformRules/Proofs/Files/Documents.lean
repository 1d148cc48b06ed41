import Mathlib.Data.List.Nodup
import Mathlib.Data.List.TakeWhile
import PlatformRules.Proofs.Files.Paths

namespace PlatformRules

namespace FileTree

variable {t : FileTree} {path : Path} {p rest : Place}

def IsDocumentName (name : FileName) : Prop :=
  ∃ stem ending, name = stem ++ Path.dot :: ending ∧ stem ≠ [] ∧
    ending.map UInt8.toAsciiLower = Utf8.encode documentExtension

theorem below?_eq_some_iff {q : Place} : p.below? q = some rest ↔ q = p ++ rest ∧
    ∃ name names, rest = name :: names ∧ name ≠ Place.root ∧ name ≠ Place.up := by
  unfold Place.below?
  constructor
  · intro h
    split at h
    · cases h
    · next name names hdrop =>
      split at h
      · next hif =>
        simp only [Bool.and_eq_true, bne_iff_ne, List.isPrefixOf_iff_prefix] at hif
        obtain ⟨⟨⟨more, rfl⟩, hroot⟩, hup⟩ := hif
        rw [List.drop_left] at hdrop
        obtain rfl := Option.some.inj h
        exact ⟨by rw [hdrop], name, names, rfl, hroot, hup⟩
      · cases h
  · rintro ⟨rfl, name, names, rfl, hroot, hup⟩
    have hstart : p.isPrefixOf (p ++ name :: names) = true :=
      List.isPrefixOf_iff_prefix.2 ⟨name :: names, rfl⟩
    rw [List.drop_left]
    simp [hstart, hroot, hup]

theorem extension?_eq_some_iff {name e : FileName} : extension? name = some e ↔
    ∃ stem, name = stem ++ Path.dot :: e ∧ stem ≠ [] ∧ Path.dot ∉ e := by
  constructor
  · intro h
    simp only [extension?] at h
    split at h
    · next d b bs hdrop =>
      have hwhole := List.takeWhile_append_dropWhile (p := (· != Path.dot)) (l := name.reverse)
      have hd : d = Path.dot := by
        have hhead := List.head?_dropWhile_not (· != Path.dot) name.reverse
        simpa [hdrop] using hhead
      rw [hd] at hdrop
      obtain rfl := Option.some.inj h
      refine ⟨(b :: bs).reverse, ?_, by simp, ?_⟩
      · calc name = name.reverse.reverse := (List.reverse_reverse _).symm
          _ = (name.reverse.takeWhile (· != Path.dot) ++ Path.dot :: b :: bs).reverse := by
            rw [← hdrop, hwhole]
          _ = _ := by simp
      · rw [List.mem_reverse]
        intro hmem
        simpa using List.mem_takeWhile_imp hmem
    · cases h
  · rintro ⟨stem, rfl, hstem, hdot⟩
    have hplain : ∀ b ∈ e.reverse, (b != Path.dot) = true := by
      rintro b hb
      rw [bne_iff_ne]
      rintro rfl
      exact hdot (List.mem_reverse.1 hb)
    obtain ⟨b, bs, hbs⟩ := List.exists_cons_of_ne_nil (List.reverse_ne_nil_iff.2 hstem)
    have hreverse : (stem ++ Path.dot :: e).reverse = e.reverse ++ Path.dot :: b :: bs := by
      simp [← hbs]
    simp only [extension?, hreverse, List.dropWhile_append_of_pos hplain,
      List.takeWhile_append_of_pos hplain]
    simp

theorem isDocument_iff : isDocument p = true ↔ ∃ name ∈ p.getLast?, IsDocumentName name := by
  have hiff : ∀ name, (extension? name).any (fun e =>
      decide (e.map UInt8.toAsciiLower = Utf8.encode documentExtension)) = true ↔
        IsDocumentName name := by
    intro name
    rw [Option.any_eq_true]
    constructor
    · rintro ⟨e, he, hlower⟩
      obtain ⟨stem, hname, hstem, -⟩ := extension?_eq_some_iff.1 he
      exact ⟨stem, e, hname, hstem, of_decide_eq_true hlower⟩
    · rintro ⟨stem, ending, hname, hstem, hlower⟩
      refine ⟨ending, extension?_eq_some_iff.2 ⟨stem, hname, hstem, fun hdot => ?_⟩,
        decide_eq_true hlower⟩
      have := List.mem_map_of_mem (f := UInt8.toAsciiLower) hdot
      rw [hlower] at this
      exact absurd this (by decide)
  unfold isDocument
  cases p.getLast? with
  | none => simp
  | some name => simpa using hiff name

theorem documentBelow?_eq_some_iff {q : Place} :
    documentBelow? p q = some rest ↔ p.below? q = some rest ∧ isDocument rest = true := by
  rw [documentBelow?, Option.filter_eq_some_iff]

theorem IsTree.isName_of_below (h : t.IsTree) {f : Place × File} (hf : f ∈ t.files)
    (hbelow : p.below? f.1 = some rest) : ∀ name ∈ rest, IsName name := by
  obtain ⟨hplace, first, others, rfl, hroot, hup⟩ := below?_eq_some_iff.1 hbelow
  obtain ⟨start, names, hnames, hstart, hnamed⟩ := h.places f hf
  rcases List.append_eq_append_iff.1 (hplace.symm.trans hnames) with
    ⟨more, hmore, hrest⟩ | ⟨more, -, hrest⟩
  · cases more with
    | nil => simpa [hrest] using hnamed
    | cons name more =>
      obtain ⟨rfl, -⟩ := List.cons.inj hrest
      have hmem : first ∈ start := by simp [hmore]
      rcases hstart with rfl | hstart
      · exact absurd (List.mem_singleton.1 hmem) hroot
      · exact absurd (hstart first hmem) hup
  · intro name hname
    exact hnamed name (by simp [hrest, hname])

def IsDocumentBelow (t : FileTree) (p rest : Place) : Prop :=
  p ++ rest ∈ t.files.map (·.1) ∧ (∀ name ∈ rest, IsName name) ∧
    ∃ name ∈ rest.getLast?, IsDocumentName name

theorem IsDocumentBelow.ne_nil (h : t.IsDocumentBelow p rest) : rest ≠ [] := by
  rintro rfl
  simpa using h.2.2

structure IsListing (t : FileTree) (p : Place) (found : List Place) : Prop where
  mem_iff : ∀ rest, rest ∈ found ↔ t.IsDocumentBelow p rest
  nodup : found.Nodup
  sorted : found.Pairwise (· ≤ ·)

theorem IsTree.mem_documentsBelow_iff (h : t.IsTree) :
    rest ∈ t.documentsBelow p ↔ t.IsDocumentBelow p rest := by
  simp only [documentsBelow, List.mem_mergeSort, List.mem_filterMap, documentBelow?_eq_some_iff,
    isDocument_iff]
  constructor
  · rintro ⟨f, hf, hbelow, hdocument⟩
    refine ⟨?_, h.isName_of_below hf hbelow, hdocument⟩
    rw [← (below?_eq_some_iff.1 hbelow).1]
    exact List.mem_map_of_mem hf
  · rintro ⟨hmem, hnamed, hdocument⟩
    obtain ⟨f, hf, hplace⟩ := List.mem_map.1 hmem
    refine ⟨f, hf, below?_eq_some_iff.2 ⟨hplace, ?_⟩, hdocument⟩
    cases rest with
    | nil => simp at hdocument
    | cons name names =>
      have hname := hnamed name (by simp)
      refine ⟨name, names, rfl, ?_, hname.proper.2.2⟩
      rintro rfl
      exact hname.slash (by decide)

theorem nodup_documentsBelow (h : (t.files.map (·.1)).Nodup) (p : Place) :
    (t.documentsBelow p).Nodup := by
  have hplaces : t.files.filterMap (fun f => documentBelow? p f.1) =
      (t.files.map (·.1)).filterMap (documentBelow? p) := by
    rw [List.filterMap_map]
    rfl
  rw [documentsBelow, (List.mergeSort_perm _ _).nodup_iff, hplaces]
  refine h.filterMap fun q q' rest hq hq' => ?_
  obtain ⟨hq, -⟩ := documentBelow?_eq_some_iff.1 hq
  obtain ⟨hq', -⟩ := documentBelow?_eq_some_iff.1 hq'
  rw [(below?_eq_some_iff.1 hq).1, (below?_eq_some_iff.1 hq').1]

theorem pairwise_documentsBelow (t : FileTree) (p : Place) :
    (t.documentsBelow p).Pairwise (· ≤ ·) := by
  have hsorted : (t.documentsBelow p).Pairwise fun a b => (!decide (b < a)) = true :=
    List.pairwise_mergeSort
      (fun a b c hab hbc => by
        simpa [Std.not_lt] using Std.le_trans (by simpa using hab) (by simpa using hbc))
      (fun a b => by simpa using Std.le_total) _
  exact hsorted.imp fun h => by simpa using h

theorem documentsBelow_of_pairwise {found : List Place}
    (h : (t.files.filterMap fun f => documentBelow? p f.1) = found)
    (hsorted : found.Pairwise fun a b => (!decide (b < a)) = true) :
    t.documentsBelow p = found := by
  rw [documentsBelow, h]
  exact List.mergeSort_of_pairwise hsorted

theorem IsTree.isListing (h : t.IsTree) (p : Place) : t.IsListing p (t.documentsBelow p) :=
  ⟨fun _ => h.mem_documentsBelow_iff, nodup_documentsBelow h.nodup p, pairwise_documentsBelow t p⟩

theorem IsListing.eq {found more : List Place} (h : t.IsListing p found)
    (hmore : t.IsListing p more) : found = more := by
  have hperm : found.Perm more := (List.perm_ext_iff_of_nodup h.nodup hmore.nodup).2 fun rest => by
    rw [h.mem_iff, hmore.mem_iff]
  exact hperm.eq_of_pairwise (fun _ _ _ _ hab hba => Std.le_antisymm hab hba) h.sorted hmore.sorted

theorem IsListing.nodup_paths {found : List Place} (h : t.IsListing p found) (path : Path) :
    (found.map (join path)).Nodup := by
  refine h.nodup.map_on fun rest hrest more hmore hjoin => ?_
  obtain hrest := (h.mem_iff rest).1 hrest
  obtain hmore := (h.mem_iff more).1 hmore
  exact join_injective hrest.ne_nil hmore.ne_nil (fun name hname => (hrest.2.1 name hname).slash)
    (fun name hname => (hmore.2.1 name hname).slash) hjoin

theorem isSome_file?_iff : (t.file? p).isSome = true ↔ p ∈ t.files.map (·.1) := by
  rw [file?, ← Option.ne_none_iff_isSome, Ne, List.lookup_eq_none_iff]
  simp

theorem IsTree.file?_folder (h : t.IsTree) (hfolder : t.hasFolder p = true) :
    (t.file? p).isSome = false := by
  rw [Bool.eq_false_iff]
  intro hsome
  obtain ⟨f, hf, rfl⟩ := List.mem_map.1 (isSome_file?_iff.1 hsome)
  simp [h.apart f hf] at hfolder

theorem documents_folder (hplace : t.place path = .ok p) (hfile : (t.file? p).isSome = false)
    (hfolder : t.hasFolder p = true)
    (hopen : ∀ q ∈ t.foldersBelow p, (join path q).length ≤ pathLimit) :
    t.documents path = .ok ((t.documentsBelow p).map (join path)) := by
  have hdeep : t.deepFolder? path p = none := by
    have hnone : (t.foldersBelow p).filter
        (fun q => decide ((join path q).length > pathLimit)) = [] := by
      rw [List.filter_eq_nil_iff]
      intro q hq
      simpa using hopen q hq
    simp [deepFolder?, hnone]
  rw [documents, hplace]
  simp [hfile, hfolder, hdeep]

theorem place_document (hplace : t.place path = .ok p)
    (hrest : t.IsDocumentBelow p rest) : t.place (join path rest) =
      if (join path rest).length > pathLimit then .error .longName else .ok (p ++ rest) := by
  obtain ⟨f, hf, hfile⟩ := List.mem_map.1 hrest.1
  exact place_join hplace hf hfile hrest.ne_nil hrest.2.1

theorem documents_document (hplace : t.place path = .ok p)
    (hrest : t.IsDocumentBelow p rest) : t.documents (join path rest) =
      if (join path rest).length > pathLimit then .error (.missing (join path rest))
      else .ok [join path rest] := by
  have hfile := isSome_file?_iff.2 hrest.1
  rw [documents, place_document hplace hrest]
  by_cases hlong : (join path rest).length > pathLimit
  · rw [if_pos hlong, if_pos hlong]
  · rw [if_neg hlong, if_neg hlong]
    simp [hfile]

theorem readText_document (hplace : t.place path = .ok p)
    (hrest : t.IsDocumentBelow p rest) (hlong : (join path rest).length > pathLimit) :
    t.readText (join path rest) = .error .longName := by
  rw [readText, read, place_document hplace hrest, if_pos hlong]
  rfl

end FileTree

end PlatformRules
