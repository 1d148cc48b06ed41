import PlatformRules.Proofs.Line.Sentences

namespace PlatformRules

open Text

namespace Machine

theorem isShortest_iff {ds : List Char} :
    isShortest ds = true ↔ ds.head? ≠ some '0' ∧ ∀ c ∈ ds, c.isDigit := by
  simp [isShortest]

theorem isPlainSpelling_of_sign {ds : List Char} :
    isPlainSpelling ('-' :: ds) = true ↔ isShortest ds = true := by
  by_cases h : ds = ['0'] <;> simp [isPlainSpelling, h, isShortest]

theorem isPlainSpelling_of_isDigit {ds : List Char} (hds : ∀ c ∈ ds, c.isDigit) :
    isPlainSpelling ds = true ↔ ds = ['0'] ∨ isShortest ds = true := by
  unfold isPlainSpelling
  split
  · next ds => exact absurd (hds '-' (by simp)) (by decide)
  · simp

theorem isPlainSpelling_and_spells_iff {literal : List Char} {n : Int} :
    isPlainSpelling literal = true ∧ Spells literal n ↔ Decimal.Writes literal n := by
  constructor
  · rintro ⟨hplain, sign, digits, rfl, hsign, hne, hdigits, hn⟩
    rcases hsign with rfl | rfl | rfl
    · obtain rfl : n = digitsValue digits := by simpa using hn
      rcases (isPlainSpelling_of_isDigit hdigits).1 hplain with rfl | hshort
      · exact .zero
      · exact .positive ⟨hne, hdigits, (isShortest_iff.1 hshort).1⟩
    · have hshort : isShortest (['+'] ++ digits) = true := by
        simpa [isPlainSpelling] using hplain
      exact absurd ((isShortest_iff.1 hshort).2 '+' (by simp)) (by decide)
    · obtain rfl : n = -(digitsValue digits : Int) := by simpa using hn
      have hshort := isPlainSpelling_of_sign.1 hplain
      exact .negative ⟨hne, hdigits, (isShortest_iff.1 hshort).1⟩
  · rintro (_ | ⟨hne, hdigits, hhead⟩ | ⟨hne, hdigits, hhead⟩)
    · exact ⟨rfl, [], ['0'], rfl, .inl rfl, by simp, by simp, rfl⟩
    · have hshort := isShortest_iff.2 ⟨hhead, hdigits⟩
      have hplain := (isPlainSpelling_of_isDigit hdigits).2 (.inr hshort)
      exact ⟨hplain, [], _, rfl, .inl rfl, hne, hdigits, rfl⟩
    · have hshort := isShortest_iff.2 ⟨hhead, hdigits⟩
      exact ⟨isPlainSpelling_of_sign.2 hshort, ['-'], _, rfl, .inr (.inr rfl), hne, hdigits, rfl⟩

theorem versionText?_eq_some_iff {m : Machine} {literal : List Char} :
    m.versionText? = some (String.ofList literal) ↔
      ∃ v, m.version = some v ∧ Decimal.Writes literal v.toInt := by
  rw [versionText?, Option.map_eq_some_iff]
  refine exists_congr fun v => and_congr_right fun _ => ?_
  rw [Decimal.writes_iff, eq_comm, ← String.toList_inj, String.toList_ofList]
  rfl

theorem readsVersion_iff {m : Machine} {literal : List Char} :
    m.readsVersion literal = true ↔ m.versionText? = some (String.ofList literal) := by
  rw [versionText?_eq_some_iff, readsVersion]
  cases m.version with
  | none => simp
  | some v =>
    simp only [Bool.and_eq_true, beq_iff_eq, readInt32?_eq_some_iff, isPlainSpelling_and_spells_iff,
      Option.some.injEq, exists_eq_left']

/-- Whether a literal reads as the version is told without the text of the version, and yet it does
just if it is that text. There is a text if there is a version; it is the decimal text of that,
which is the only one. -/
theorem readsVersion_iff_text (m : Machine) (literal : List Char) :
    (m.readsVersion literal = true ↔ m.versionText? = some (String.ofList literal)) ∧
    (m.readsVersion literal = true ↔ ∃ v, m.version = some v ∧ Decimal.Writes literal v.toInt) ∧
    (m.versionText? = none ↔ m.version = none) ∧
    ∀ v, m.version = some v →
      ∃ text, m.versionText? = some text ∧ ∀ w, Decimal.Writes w v.toInt ↔ w = text.toList := by
  refine ⟨readsVersion_iff, readsVersion_iff.trans versionText?_eq_some_iff, ?absent, ?text⟩
  case absent => rw [versionText?, Option.map_eq_none_iff]
  case text =>
    intro v hv
    exact ⟨int32Text v, by rw [versionText?, hv, Option.map_some], fun w => Decimal.writes_iff⟩

theorem readsVersion_iff_text_least :
    let m : Machine := { version := some Int32.minValue }
    m.readsVersion "-2147483648".toList = true ∧ m.readsVersion "-02147483648".toList = false ∧
      m.readsVersion "2147483648".toList = false ∧
      ∃ text, m.versionText? = some text ∧ Decimal.Writes text.toList (-2147483648) := by
  intro m
  refine ⟨by decide, by decide, by decide, ?_⟩
  obtain ⟨-, -, -, htext⟩ := readsVersion_iff_text m []
  obtain ⟨text, hsome, hwrites⟩ := htext _ rfl
  exact ⟨text, hsome, (hwrites _).2 rfl⟩

end Machine

namespace Pattern

def Denotes (field : Option String) : Pattern → Prop
  | any => True
  | defined => field ≠ none
  | word w => field = some (String.ofList w)

def DenotesSystem (m : Machine) : Pattern → Prop
  | any => True
  | defined => if m.system = some "linux" then m.distro ≠ none else m.system ≠ none
  | word w => m.system = some (String.ofList w) ∨
      m.system = some "linux" ∧ (m.distro = some (String.ofList w) ∨ m.family = some (String.ofList w))

variable {p : Pattern} {m : Machine}

theorem holds_iff {field : Option String} : p.holds field = true ↔ p.Denotes field := by
  cases p with
  | any => simp [holds, Denotes]
  | defined => simp [holds, Denotes, Option.isSome_iff_ne_none]
  | word w => simp [holds, Denotes]

theorem holdsSystem_iff : p.holdsSystem m = true ↔ p.DenotesSystem m := by
  have hlinux : m.isLinux = true ↔ m.system = some "linux" := by
    simp [Machine.isLinux, Machine.linuxName]
  unfold holdsSystem
  by_cases h : m.system = some "linux"
  · rw [if_pos (hlinux.2 h)]
    cases p with
    | any => simp [DenotesSystem]
    | defined => simp [DenotesSystem, h, Option.isSome_iff_ne_none]
    | word w => simp [DenotesSystem, h, holds, or_assoc]
  · rw [if_neg (fun hm => h (hlinux.1 hm))]
    cases p with
    | any => simp [DenotesSystem, holds]
    | defined => simp [DenotesSystem, h, holds, Option.isSome_iff_ne_none]
    | word w => simp [DenotesSystem, h, holds]

theorem holdsVersion_iff : p.holdsVersion m = true ↔ p.Denotes m.versionText? := by
  cases p with
  | any => simp [holdsVersion, Denotes]
  | defined => simp [holdsVersion, Denotes, Machine.versionText?, Option.isSome_iff_ne_none]
  | word w => exact Machine.readsVersion_iff

end Pattern

namespace Comparator

/-- What a comparator says of the version of a machine: equality is that of the texts, and the
order is that of the numbers. -/
def Denotes (literal : List Char) (m : Machine) : Comparator → Prop
  | equal => m.versionText? = some (String.ofList literal)
  | notEqual => m.versionText? ≠ some (String.ofList literal)
  | less => ∃ v n, m.version = some v ∧ Spells literal n ∧ v.toInt < n
  | greater => ∃ v n, m.version = some v ∧ Spells literal n ∧ n < v.toInt
  | lessOrEqual => ∃ v n, m.version = some v ∧ Spells literal n ∧ v.toInt ≤ n
  | greaterOrEqual => ∃ v n, m.version = some v ∧ Spells literal n ∧ n ≤ v.toInt

variable {c : Comparator} {literal : List Char} {m : Machine}

theorem ordered_iff (hn : IsInteger literal) {test : Int32 → Int32 → Bool} {r : Int → Int → Prop}
    (htest : ∀ v k : Int32, test v k = true ↔ r v.toInt k.toInt) :
    (match m.version, Vocabulary.version? literal with
      | some v, some k => test v k
      | _, _ => false) = true ↔ ∃ v n, m.version = some v ∧ Spells literal n ∧ r v.toInt n := by
  obtain ⟨k, hk⟩ := Option.isSome_iff_exists.1 (Vocabulary.isSome_version?_iff.2 hn)
  have hspells : Spells literal k.toInt := readInt32?_eq_some_iff.1 hk
  rw [hk]
  cases m.version with
  | none => simp
  | some v =>
    simp only [htest]
    constructor
    · intro h
      exact ⟨v, k.toInt, rfl, hspells, h⟩
    · rintro ⟨v', n, hv, hn, h⟩
      obtain rfl := Option.some.inj hv
      rwa [spells_unique hspells hn]

theorem holds_iff (hn : IsInteger literal) : c.holds m literal = true ↔ c.Denotes literal m := by
  cases c with
  | equal => exact Machine.readsVersion_iff
  | notEqual =>
    simp only [holds, Denotes, ne_eq, ← Machine.readsVersion_iff]
    simp
  | less =>
    exact ordered_iff hn fun v k => by simp [Int32.lt_iff_toInt_lt]
  | greater =>
    exact ordered_iff (r := fun v n => n < v) hn fun v k => by simp [Int32.lt_iff_toInt_lt]
  | lessOrEqual =>
    exact ordered_iff hn fun v k => by simp [Int32.le_iff_toInt_le]
  | greaterOrEqual =>
    exact ordered_iff (r := fun v n => n ≤ v) hn fun v k => by simp [Int32.le_iff_toInt_le]

end Comparator

namespace PathFields

def Denotes (m : Machine) : PathFields → Prop
  | none => True
  | system s => s.DenotesSystem m
  | machine s a => s.DenotesSystem m ∧ a.Denotes m.architecture
  | release s v a => s.DenotesSystem m ∧ v.Denotes m.versionText? ∧ a.Denotes m.architecture
  | compared s c n a => s.DenotesSystem m ∧ c.Denotes n m ∧ a.Denotes m.architecture

def logicPath (o : Operator) (value : List Char) : PathFields → LogicPath
  | none => ⟨o, .any, .plain .any, .any, value⟩
  | system s => ⟨o, s, .plain .any, .any, value⟩
  | machine s a => ⟨o, s, .plain .any, a, value⟩
  | release s v a => ⟨o, s, .plain v, a, value⟩
  | compared s c n a => ⟨o, s, .compared (some c) n, a, value⟩

variable {f : PathFields} {m : Machine} {o : Operator} {value source : List Char}

@[simp] theorem logicPath_operator : (f.logicPath o value).operator = o := by
  cases f <;> rfl

@[simp] theorem logicPath_value : (f.logicPath o value).value = value := by
  cases f <;> rfl

theorem isMatch_logicPath_iff (hf : f.IsValid) :
    (f.logicPath o value).isMatch m = true ↔ f.Denotes m := by
  cases f with
  | none => simp [logicPath, LogicPath.isMatch, Pattern.holdsSystem_iff, VersionTest.holds,
      Pattern.holdsVersion_iff, Pattern.holds_iff, Pattern.DenotesSystem, Pattern.Denotes, Denotes]
  | system s => simp [logicPath, LogicPath.isMatch, Pattern.holdsSystem_iff, VersionTest.holds,
      Pattern.holdsVersion_iff, Pattern.holds_iff, Pattern.Denotes, Denotes]
  | machine s a => simp [logicPath, LogicPath.isMatch, Pattern.holdsSystem_iff, VersionTest.holds,
      Pattern.holdsVersion_iff, Pattern.holds_iff, Pattern.Denotes, Denotes]
  | release s v a => simp [logicPath, LogicPath.isMatch, Pattern.holdsSystem_iff, VersionTest.holds,
      Pattern.holdsVersion_iff, Pattern.holds_iff, Denotes, and_assoc]
  | compared s c n a =>
    simp [logicPath, LogicPath.isMatch, Pattern.holdsSystem_iff, VersionTest.holds,
      Comparator.holds_iff hf.2.1, Pattern.holds_iff, Denotes, and_assoc]

end PathFields

end PlatformRules
