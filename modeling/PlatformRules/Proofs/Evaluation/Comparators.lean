import PlatformRules.Proofs.Document.Reading
import PlatformRules.Proofs.Evaluation.Meaning

/-!
The six comparators on one path. Order is that of the numbers, whatever their spelling; equality is
that of the texts, so that the laws that tie the two together hold for the decimal text of a number
and for no other spelling of it.
-/

namespace PlatformRules

open Text

/-- What the comparators say together. `n` is the number that the literal spells, and `holds` tells
of each of the comparators whether a path with it matches the machine. -/
structure Comparator.Coheres (m : Machine) (literal : List Char) (n : Int32)
    (holds : Comparator → Prop) : Prop where
  order : ∀ v, m.version = some v →
    (holds .less ↔ v.toInt < n.toInt) ∧ (holds .greater ↔ n.toInt < v.toInt) ∧
    (holds .lessOrEqual ↔ v.toInt ≤ n.toInt) ∧ (holds .greaterOrEqual ↔ n.toInt ≤ v.toInt)
  trichotomy : m.version ≠ none → Decimal.Writes literal n.toInt →
    ∃! c, (c = .less ∨ c = .equal ∨ c = .greater) ∧ holds c
  union : m.version ≠ none → Decimal.Writes literal n.toInt →
    (holds .lessOrEqual ↔ holds .less ∨ holds .equal) ∧
    (holds .greaterOrEqual ↔ holds .greater ∨ holds .equal)
  complement : holds .notEqual ↔ ¬holds .equal
  otherSpelling : ¬Decimal.Writes literal n.toInt → ¬holds .equal ∧ holds .notEqual
  absent : m.version = none → ∀ c, holds c ↔ c = .notEqual

namespace Comparator

variable {m : Machine} {literal : List Char} {n v : Int32}

theorem denotes_equal_iff : Denotes literal m .equal ↔
    ∃ v, m.version = some v ∧ Decimal.Writes literal v.toInt :=
  Machine.versionText?_eq_some_iff

theorem spells_of_writes {n : Int} (h : Decimal.Writes literal n) : Spells literal n :=
  (Machine.isPlainSpelling_and_spells_iff.2 h).2

theorem not_denotes_equal (hn : Spells literal n.toInt) (h : ¬Decimal.Writes literal n.toInt) :
    ¬Denotes literal m .equal := by
  rw [denotes_equal_iff]
  rintro ⟨v, -, hv⟩
  exact h (spells_unique (spells_of_writes hv) hn ▸ hv)

theorem denotes_ordered_iff (hn : Spells literal n.toInt) (hv : m.version = some v)
    {r : Int → Int → Prop} :
    (∃ v n, m.version = some v ∧ Spells literal n ∧ r v.toInt n) ↔ r v.toInt n.toInt := by
  constructor
  · rintro ⟨w, k, hw, hk, hr⟩
    obtain rfl := Option.some.inj (hv.symm.trans hw)
    rwa [spells_unique hn hk]
  · intro hr
    exact ⟨v, n.toInt, hv, hn, hr⟩

theorem denotes_order (hn : Spells literal n.toInt) (hv : m.version = some v) :
    (Denotes literal m .less ↔ v.toInt < n.toInt) ∧
    (Denotes literal m .greater ↔ n.toInt < v.toInt) ∧
    (Denotes literal m .lessOrEqual ↔ v.toInt ≤ n.toInt) ∧
    (Denotes literal m .greaterOrEqual ↔ n.toInt ≤ v.toInt) :=
  ⟨denotes_ordered_iff hn hv, denotes_ordered_iff hn hv (r := fun v n => n < v),
    denotes_ordered_iff hn hv, denotes_ordered_iff hn hv (r := fun v n => n ≤ v)⟩

theorem denotes_equal_iff_of_writes (hwrites : Decimal.Writes literal n.toInt)
    (hv : m.version = some v) : Denotes literal m .equal ↔ v.toInt = n.toInt := by
  rw [denotes_equal_iff]
  constructor
  · rintro ⟨w, hw, h⟩
    obtain rfl := Option.some.inj (hv.symm.trans hw)
    exact spells_unique (spells_of_writes h) (spells_of_writes hwrites)
  · intro heq
    exact ⟨v, hv, heq ▸ hwrites⟩

theorem denotes_of_absent (h : m.version = none) (c : Comparator) :
    Denotes literal m c ↔ c = .notEqual := by
  have htext : m.versionText? = none := by rw [Machine.versionText?, h, Option.map_none]
  cases c <;> simp [Denotes, h, htext]

theorem existsUnique_of_writes (hwrites : Decimal.Writes literal n.toInt)
    (hv : m.version = some v) :
    ∃! c, (c = .less ∨ c = .equal ∨ c = .greater) ∧ Denotes literal m c := by
  obtain ⟨hless, hgreater, -, -⟩ := denotes_order (spells_of_writes hwrites) hv
  have hequal := denotes_equal_iff_of_writes hwrites hv
  rcases Int.lt_trichotomy v.toInt n.toInt with h | h | h
  · refine ⟨.less, ⟨.inl rfl, hless.2 h⟩, ?_⟩
    rintro c ⟨rfl | rfl | rfl, hc⟩
    · rfl
    · exact absurd (hequal.1 hc) (by omega)
    · exact absurd (hgreater.1 hc) (by omega)
  · refine ⟨.equal, ⟨.inr (.inl rfl), hequal.2 h⟩, ?_⟩
    rintro c ⟨rfl | rfl | rfl, hc⟩
    · exact absurd (hless.1 hc) (by omega)
    · rfl
    · exact absurd (hgreater.1 hc) (by omega)
  · refine ⟨.greater, ⟨.inr (.inr rfl), hgreater.2 h⟩, ?_⟩
    rintro c ⟨rfl | rfl | rfl, hc⟩
    · exact absurd (hless.1 hc) (by omega)
    · exact absurd (hequal.1 hc) (by omega)
    · rfl

theorem union_of_writes (hwrites : Decimal.Writes literal n.toInt) (hv : m.version = some v) :
    (Denotes literal m .lessOrEqual ↔ Denotes literal m .less ∨ Denotes literal m .equal) ∧
    (Denotes literal m .greaterOrEqual ↔ Denotes literal m .greater ∨ Denotes literal m .equal) := by
  obtain ⟨hless, hgreater, hle, hge⟩ := denotes_order (spells_of_writes hwrites) hv
  rw [hless, hgreater, hle, hge, denotes_equal_iff_of_writes hwrites hv]
  omega

theorem coheres_denotes (hn : Spells literal n.toInt) :
    Coheres m literal n (Denotes literal m) := by
  constructor
  case order =>
    intro v hv
    exact denotes_order hn hv
  case trichotomy =>
    intro hknown hwrites
    obtain ⟨v, hv⟩ := Option.ne_none_iff_exists'.1 hknown
    exact existsUnique_of_writes hwrites hv
  case union =>
    intro hknown hwrites
    obtain ⟨v, hv⟩ := Option.ne_none_iff_exists'.1 hknown
    exact union_of_writes hwrites hv
  case complement => exact Iff.rfl
  case otherSpelling =>
    intro h
    have hequal := not_denotes_equal (m := m) hn h
    exact ⟨hequal, hequal⟩
  case absent => exact denotes_of_absent

end Comparator

namespace Grammar

variable {source : List Char} {t op system comparator literal arch value : Token}

theorem exists_kind_of_checkComparator (h : checkComparator source t = .ok ()) :
    ∃ c, t.kind = .comparator c := by
  unfold checkComparator at h
  split at h
  · next c hc => exact ⟨c, hc⟩
  · simp at h

theorem exists_version_of_checkComparedVersion (h : checkComparedVersion source t = .ok ()) :
    ∃ n, Vocabulary.version? (t.text source) = some n := by
  unfold checkComparedVersion at h
  split at h
  · next hkind =>
    simp only [checkVersion, hkind] at h
    split at h
    · next hsome => exact Option.isSome_iff_exists.1 hsome
    · simp at h
  · simp at h

theorem checkComparator_synthetic (c : Comparator) :
    checkComparator source (.synthetic (.comparator c)) = .ok () := rfl

theorem checkTokens_compared_iff {o : Operator} (hop : op.kind = .operator o) :
    checkTokens source [op, system, comparator, literal, arch, value] = .ok () ↔
      checkOperator source op = .ok () ∧ checkSystem source 1 system = .ok () ∧
      checkComparator source comparator = .ok () ∧ checkComparedVersion source literal = .ok () ∧
      checkArchitecture source 4 arch = .ok () ∧ checkValue 5 value = .ok () := by
  simp only [checkTokens, hop, checkFields, bind_eq_ok_iff]

end Grammar

namespace Line

variable {source : List Char} {l : Line}

def withComparator (l : Line) (c : Comparator) : Line :=
  ⟨l.tokens.set 2 (.synthetic (.comparator c)), by simpa using l.length_le⟩

theorem tokens_openEnded_eq (l : Line) : (Document.openEnded l).tokens = l.content := by
  unfold Document.openEnded content
  split <;> rfl

theorem check_of_one_lt_length (h : 1 < l.content.length) :
    l.check source = Grammar.checkTokens source l.content := by
  unfold check
  unfold content at h ⊢
  by_cases hends : l.endsLine = true
  · have hlong : 1 < l.length := by
      rw [if_pos hends, List.length_dropLast] at h
      unfold length
      omega
    simp [hends, hlong]
  · simp [hends]

theorem content_withComparator {op system comparator literal arch value : Token}
    (h : l.content = [op, system, comparator, literal, arch, value]) (c : Comparator) :
    (l.withComparator c).content = [op, system, .synthetic (.comparator c), literal, arch, value] := by
  by_cases hends : l.endsLine = true
  · obtain ⟨e, hlast, hkind⟩ := (Option.any_eq_true _ _).1 hends
    obtain ⟨ts, htokens⟩ := List.getLast?_eq_some_iff.1 hlast
    rw [content, if_pos hends, htokens, List.dropLast_concat] at h
    subst h
    exact content_of_concat (by simp [withComparator, htokens]) (eq_of_beq hkind)
  · rw [content, if_neg hends] at h
    have hopen : (l.withComparator c).endsLine = l.endsLine := by
      simp [endsLine, last?, withComparator, h]
    rw [content, hopen, if_neg hends]
    simp [withComparator, h]

end Line

namespace LogicPath

variable {source : List Char} {p : LogicPath}

def comparedBy (p : LogicPath) (c : Comparator) (literal : List Char) : LogicPath :=
  { p with version := .compared (some c) literal }

theorem exists_of_isCompared {ts : List Token} (h : ofTokens? source ts = some p)
    (hcompared : p.version.isCompared = true) :
    ∃ op o system comparator literal arch value,
      ts = [op, system, comparator, literal, arch, value] ∧ op.kind = .operator o ∧
      p = ⟨o, .ofToken source system, .compare source comparator literal, .ofToken source arch,
        value.text source⟩ := by
  unfold ofTokens? at h
  split at h
  · next op system version arch value =>
    unfold ofTokens?.build at h
    split at h
    · obtain rfl := Option.some.inj h
      simp [VersionTest.isCompared] at hcompared
    · simp at h
  · next op system comparator literal arch value =>
    unfold ofTokens?.build at h
    split at h
    · next o ho =>
      exact ⟨op, o, system, comparator, literal, arch, value, rfl, ho, (Option.some.inj h).symm⟩
    · simp at h
  · simp at h

theorem ofTokens?_compared {op system comparator literal arch value : Token} {o : Operator}
    {c : Comparator} (hop : op.kind = .operator o) (hc : comparator.kind = .comparator c) :
    ofTokens? source [op, system, comparator, literal, arch, value] =
      some ⟨o, .ofToken source system, .compared (some c) (literal.text source),
        .ofToken source arch, value.text source⟩ := by
  simp only [ofTokens?, ofTokens?.build, hop, VersionTest.compare, hc]

theorem isMatch_comparedBy_iff {m : Machine} {literal : List Char} (hliteral : IsInteger literal)
    (hsystem : p.system.holdsSystem m = true) (harch : p.architecture.holds m.architecture = true)
    (c : Comparator) : (p.comparedBy c literal).isMatch m = true ↔ c.Denotes literal m := by
  simp [isMatch, comparedBy, hsystem, harch, VersionTest.holds, Comparator.holds_iff hliteral]

/-- A path that compares versions, on a line that is accepted: its literal spells a number, and it
can have each of the comparators. Where the other fields match, the six cohere. -/
theorem comparators_cohere {l : Line} {m : Machine} (hcheck : l.check source = .ok ())
    (hpath : ofLine? source (Document.openEnded l) = some p)
    (hcompared : p.version.isCompared = true) (hsystem : p.system.holdsSystem m = true)
    (harch : p.architecture.holds m.architecture = true) :
    ∃ c literal n, p = p.comparedBy c literal ∧ Vocabulary.version? literal = some n ∧
      (∀ d, (l.withComparator d).check source = .ok () ∧
        ofLine? source (Document.openEnded (l.withComparator d)) = some (p.comparedBy d literal)) ∧
      Comparator.Coheres m literal n fun d => (p.comparedBy d literal).isMatch m = true := by
  obtain ⟨op, o, system, comparator, literal, arch, value, hcontent, hop, rfl⟩ :=
    exists_of_isCompared hpath hcompared
  rw [Line.tokens_openEnded_eq] at hcontent
  rw [Line.check_of_one_lt_length (by simp [hcontent]), hcontent,
    Grammar.checkTokens_compared_iff hop] at hcheck
  obtain ⟨hoperator, hsystem', hcomparator, hliteral, harch', hvalue⟩ := hcheck
  obtain ⟨c, hc⟩ := Grammar.exists_kind_of_checkComparator hcomparator
  obtain ⟨n, hn⟩ := Grammar.exists_version_of_checkComparedVersion hliteral
  have hspells : Spells (literal.text source) n.toInt := readInt32?_eq_some_iff.1 hn
  refine ⟨c, literal.text source, n, ?_, hn, ?_, ?_⟩
  · simp [comparedBy, VersionTest.compare, hc]
  · intro d
    have hcontent' := Line.content_withComparator hcontent d
    constructor
    · rw [Line.check_of_one_lt_length (by simp [hcontent']), hcontent',
        Grammar.checkTokens_compared_iff hop]
      exact ⟨hoperator, hsystem', Grammar.checkComparator_synthetic d, hliteral, harch', hvalue⟩
    · rw [ofLine?, Line.tokens_openEnded_eq, hcontent', ofTokens?_compared hop rfl]
      rfl
  · have hdenotes : (fun d => (comparedBy _ d (literal.text source)).isMatch m = true) =
        Comparator.Denotes (literal.text source) m := funext fun d => propext
      (isMatch_comparedBy_iff ⟨n.toInt, hspells, isInt32_toInt n⟩ hsystem harch d)
    exact hdenotes ▸ Comparator.coheres_denotes hspells

theorem comparators_cohere_plus :
    let source := "-> osx > +013 any \"x\"".toList
    let l : Line := ⟨[⟨.operator .returns, some ⟨0, 2⟩⟩, ⟨.system, some ⟨3, 6⟩⟩,
      ⟨.comparator .greater, some ⟨7, 8⟩⟩, ⟨.version, some ⟨9, 13⟩⟩, ⟨.wildcard, some ⟨14, 17⟩⟩,
      ⟨.value, some ⟨19, 20⟩⟩, .synthetic .lineEnd], by decide⟩
    let p : LogicPath :=
      ⟨.returns, .word "osx".toList, .compared (some .greater) "+013".toList, .any, "x".toList⟩
    let m : Machine := { system := some "osx", version := some 13 }
    l.check source = .ok () ∧ ofLine? source (Document.openEnded l) = some p ∧
      p.isMatch m = false ∧ (p.comparedBy .equal "+013".toList).isMatch m = false ∧
      (p.comparedBy .greaterOrEqual "+013".toList).isMatch m = true ∧
      (p.comparedBy .notEqual "+013".toList).isMatch m = true := by
  intro source l p m
  have hcheck : l.check source = .ok () := by decide
  have hpath : ofLine? source (Document.openEnded l) = some p := by decide
  obtain ⟨c, literal, n, hp, hn, -, hcoheres⟩ :=
    comparators_cohere (m := m) hcheck hpath rfl (by decide) rfl
  obtain ⟨rfl, rfl⟩ : c = .greater ∧ literal = "+013".toList := by
    have hversion := congrArg LogicPath.version hp
    simp only [p, comparedBy, VersionTest.compared.injEq, Option.some.injEq] at hversion
    exact ⟨hversion.1.symm, hversion.2.symm⟩
  obtain rfl : n = 13 := Option.some.inj (hn.symm.trans (by decide))
  obtain ⟨-, hgreater, -, hge⟩ := hcoheres.order 13 rfl
  have hother : ¬Decimal.Writes "+013".toList (13 : Int32).toInt := by
    rw [Decimal.writes_iff]
    decide
  obtain ⟨hequal, hnotEqual⟩ := hcoheres.otherSpelling hother
  refine ⟨hcheck, hpath, ?_, ?_, hge.2 (by decide), hnotEqual⟩
  · rw [hp]
    exact Bool.eq_false_iff.2 fun h => absurd (hgreater.1 h) (by decide)
  · exact Bool.eq_false_iff.2 hequal

end LogicPath

end PlatformRules
