import PlatformRules.Host.Probe
import PlatformRules.Proofs.Evaluation.Meaning
import PlatformRules.Proofs.Host.Release
import PlatformRules.Proofs.Text.Encoding

/-!
The family of a distribution that is derived from another one. Names of distributions are put into
the spelling of the rules and names of families are not, so that the two agree for every parent but
one: rules that name Arch Linux pass over what is derived from it.
-/

namespace PlatformRules

open Text

namespace OsRelease

variable {cs w id like parent : List Char} {r s : OsRelease}

def IsFirstWord (w cs : List Char) : Prop :=
  IsWord w ∧ ∃ front back, cs = front ++ w ++ back ∧ IsBlankRun front ∧ EndsWord back

theorem firstWord?_eq_some_iff : firstWord? cs = some w ↔ IsFirstWord w cs := by
  have hcs : cs.takeWhile isBlank ++ trimStart cs = cs := takeWhile_trimStart cs
  constructor
  · intro h
    rw [firstWord?] at h
    split at h
    · exact absurd h.symm (Option.some_ne_none w)
    · next hne =>
      obtain rfl := Option.some.inj h
      refine ⟨⟨hne, not_blank_takeWhile _⟩, cs.takeWhile isBlank,
        (trimStart cs).dropWhile (!isBlank ·), ?_, isBlankRun_takeWhile cs, endsWord_dropWhile _⟩
      rw [List.append_assoc]
      exact hcs.symm.trans (congrArg _ List.takeWhile_append_dropWhile.symm)
  · rintro ⟨⟨hne, hw⟩, front, back, rfl, hfront, hback⟩
    have hstart : (front ++ w ++ back).dropWhile isBlank = w ++ back := by
      rw [List.append_assoc]
      apply dropWhile_append_stop hfront
      rw [List.head?_append_of_ne_nil _ hne]
      exact fun c hc => hw c (List.mem_of_mem_head? hc)
    rw [firstWord?, hstart, takeWhile_word hw hback]
    cases w with
    | nil => exact absurd rfl hne
    | cons c w => rfl

theorem spelling_eq_ofList_iff : spelling id = String.ofList id ↔ id ≠ "arch".toList := by
  rw [spelling]
  split
  · next h =>
    subst h
    decide
  · next h => exact ⟨fun _ => h, fun _ => rfl⟩

theorem spelling_eq_archlinux_iff :
    spelling id = "archlinux" ↔ id = "arch".toList ∨ id = "archlinux".toList := by
  rw [spelling]
  split
  · next h => simp only [h, true_or]
  · next h =>
    rw [or_iff_right h, ← String.toList_inj, String.toList_ofList]

theorem spelling_ne_fedora (h : id ≠ "fedora".toList) : spelling id ≠ "fedora" := by
  rw [spelling]
  split
  · decide
  · intro heq
    exact h (by rw [← heq, String.toList_ofList])

theorem family?_of_firstWord (hid : r.id = some id) (hfedora : id ≠ "fedora".toList)
    (hlike : r.idLike = some like) (hfirst : IsFirstWord parent like) :
    r.family? = some (String.ofList parent) := by
  rw [family?, distro?, hid, Option.map_some, Option.map_some, if_neg (spelling_ne_fedora hfedora),
    hlike, Option.bind_some, firstWord?_eq_some_iff.2 hfirst]

end OsRelease

namespace LogicPath

theorem isMatch_word_iff {p : LogicPath} {m : Machine} {w : List Char}
    (hlinux : m.system = some "linux") (hword : p.system = .word w) : p.isMatch m = true ↔
      (some "linux" = some (String.ofList w) ∨ m.distro = some (String.ofList w) ∨
        m.family = some (String.ofList w)) ∧
      p.version.holds m = true ∧ p.architecture.holds m.architecture = true := by
  rw [isMatch, Bool.and_eq_true, Bool.and_eq_true, and_assoc, Pattern.holdsSystem_iff, hword]
  simp only [Pattern.DenotesSystem, hlinux, true_and]

end LogicPath

namespace HostProbe

variable {p q : HostProbe} {r s : OsRelease} {id like parent : List Char}

theorem probe_of_release (hsystem : p.system = some "linux") (hr : p.readRelease = .ok r)
    (hid : r.id = some id) : p.probe =
      .ok { p.target with distro := r.distro?, family := r.family?, version := r.major? } := by
  have hknown : ¬ r.id.isNone = true := by simp [hid]
  simp only [probe, hsystem, hr]
  change (if r.id.isNone = true then _ else _) = _
  rw [if_neg hknown]
  rfl

def onLinux (text : String) : HostProbe where
  system := some "linux"
  release := some (Utf8.encode text)
  programs := fun _ _ => .missing

theorem readRelease_onLinux (text : String) :
    (onLinux text).readRelease = .ok (.ofText text.toList) := by
  have hdecode : Utf8.decode? (Utf8.encode text) = some text := Utf8.decode?_eq_some_iff.2 rfl
  simp only [readRelease, onLinux, hdecode]

theorem names_parent_iff : (some "linux" = some (OsRelease.spelling parent) ∨
      some (OsRelease.spelling id) = some (OsRelease.spelling parent) ∨
      some (String.ofList parent) = some (OsRelease.spelling parent)) ↔
    parent ≠ "arch".toList ∨ id = "arch".toList ∨ id = "archlinux".toList := by
  by_cases harch : parent = "arch".toList
  · have hspelling : OsRelease.spelling "arch".toList = "archlinux" := rfl
    have hlinux : some "linux" ≠ some "archlinux" := by decide
    have hparent : some (String.ofList "arch".toList) ≠ some "archlinux" := by decide
    rw [harch, hspelling, or_iff_right hlinux, or_iff_left hparent, or_iff_right (by simp),
      Option.some.injEq, OsRelease.spelling_eq_archlinux_iff]
  · have hsame := OsRelease.spelling_eq_ofList_iff.2 harch
    exact ⟨fun _ => .inl harch, fun _ => .inr (.inr (congrArg some hsame.symm))⟩

/-- The first machine is like the second before anything else. Its family is the name of the second
as it stands in the release file, and a path that names the second matches both as far as the system
goes, unless the second is Arch Linux: then it passes over the first. -/
theorem family_of_derivative (hp : p.system = some "linux") (hq : q.system = some "linux")
    (hr : p.readRelease = .ok r) (hs : q.readRelease = .ok s) (hid : r.id = some id)
    (hfedora : id ≠ "fedora".toList) (hlike : r.idLike = some like)
    (hfirst : OsRelease.IsFirstWord parent like) (hparent : s.id = some parent) :
    r.family? = some (String.ofList parent) ∧ (r.family? = s.distro? ↔ parent ≠ "arch".toList) ∧
    ∃ m n, p.probe = .ok m ∧ q.probe = .ok n ∧
      ∀ path : LogicPath, ∀ w, path.system = .word w → s.distro? = some (String.ofList w) →
        (path.isMatch n = true ↔
          path.version.holds n = true ∧ path.architecture.holds n.architecture = true) ∧
        (path.isMatch m = true ↔
          (parent ≠ "arch".toList ∨ id = "arch".toList ∨ id = "archlinux".toList) ∧
            path.version.holds m = true ∧ path.architecture.holds m.architecture = true) := by
  have hfamily := OsRelease.family?_of_firstWord hid hfedora hlike hfirst
  have hdistro : s.distro? = some (OsRelease.spelling parent) := by
    rw [OsRelease.distro?, hparent, Option.map_some]
  refine ⟨hfamily, ?_, _, _, probe_of_release hp hr hid, probe_of_release hq hs hparent, ?_⟩
  · rw [hfamily, hdistro, Option.some.injEq, eq_comm, OsRelease.spelling_eq_ofList_iff]
  · intro path w hpath hw
    have hword : some (String.ofList w) = some (OsRelease.spelling parent) := by rw [← hw, hdistro]
    constructor
    · rw [LogicPath.isMatch_word_iff hq hpath]
      exact and_iff_right (.inr (.inl hw))
    · have hname : r.distro? = some (OsRelease.spelling id) := by
        rw [OsRelease.distro?, hid, Option.map_some]
      rw [LogicPath.isMatch_word_iff hp hpath, hword]
      simp only [hname, hfamily]
      rw [names_parent_iff]

theorem family_of_derivative_ubuntu :
    let p := onLinux "ID=linuxmint\nID_LIKE='ubuntu debian'"
    let q := onLinux "ID=ubuntu\nID_LIKE=debian"
    let path : LogicPath := ⟨.returns, .word "ubuntu".toList, .plain .any, .any, "x".toList⟩
    ∃ m n, p.probe = .ok m ∧ q.probe = .ok n ∧ path.isMatch m = true ∧ path.isMatch n = true := by
  intro p q path
  have hr : OsRelease.ofText "ID=linuxmint\nID_LIKE='ubuntu debian'".toList =
      { id := some "linuxmint".toList, idLike := some "ubuntu debian".toList } := by
    apply OsRelease.ofText_eq_of_lines
    intro k
    cases k <;> decide
  have hs : OsRelease.ofText "ID=ubuntu\nID_LIKE=debian".toList =
      { id := some "ubuntu".toList, idLike := some "debian".toList } := by
    apply OsRelease.ofText_eq_of_lines
    intro k
    cases k <;> decide
  have hfirst : OsRelease.IsFirstWord "ubuntu".toList "ubuntu debian".toList :=
    OsRelease.firstWord?_eq_some_iff.1 (by decide)
  obtain ⟨-, -, m, n, hm, hn, hpath⟩ := family_of_derivative (p := p) (q := q) rfl rfl
    (readRelease_onLinux _) (readRelease_onLinux _) (congrArg OsRelease.id hr) (by decide)
    (congrArg OsRelease.idLike hr) hfirst (congrArg OsRelease.id hs)
  obtain ⟨hparent, hderived⟩ := hpath path "ubuntu".toList rfl (by rw [hs]; decide)
  exact ⟨m, n, hm, hn, hderived.2 ⟨.inl (by decide), rfl, rfl⟩, hparent.2 ⟨rfl, rfl⟩⟩

/-- Manjaro is like Arch Linux, and a rule for Arch Linux passes over it. -/
theorem exists_family_ne_distro : ∃ text parentText : String,
    let r := OsRelease.ofText text.toList
    let s := OsRelease.ofText parentText.toList
    r.id = some "manjaro".toList ∧ r.idLike = some "arch".toList ∧ s.id = some "arch".toList ∧
    r.family? = some "arch" ∧ s.distro? = some "archlinux" ∧
    Vocabulary.isSystem "archlinux".toList = true ∧ Vocabulary.isSystem "arch".toList = false ∧
    ∃ m n, (onLinux text).probe = .ok m ∧ (onLinux parentText).probe = .ok n ∧
      let path : LogicPath := ⟨.returns, .word "archlinux".toList, .plain .any, .any, "x".toList⟩
      path.isMatch n = true ∧ path.isMatch m = false := by
  refine ⟨"ID=manjaro\nID_LIKE=arch\n", "ID=arch\n", ?_⟩
  have hr : OsRelease.ofText "ID=manjaro\nID_LIKE=arch\n".toList =
      { id := some "manjaro".toList, idLike := some "arch".toList } := by
    apply OsRelease.ofText_eq_of_lines
    intro k
    cases k <;> decide
  have hs : OsRelease.ofText "ID=arch\n".toList = { id := some "arch".toList } := by
    apply OsRelease.ofText_eq_of_lines
    intro k
    cases k <;> decide
  have hm := probe_of_release rfl (hr ▸ readRelease_onLinux "ID=manjaro\nID_LIKE=arch\n") rfl
  have hn := probe_of_release rfl (hs ▸ readRelease_onLinux "ID=arch\n") rfl
  intro r s
  rw [show r = _ from hr, show s = _ from hs]
  exact ⟨rfl, rfl, rfl, by decide, by decide, by decide, by decide, _, _, hm, hn, by decide,
    by decide⟩

end HostProbe

end PlatformRules
