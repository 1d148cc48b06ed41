import PlatformRules.Foreign.Call
import PlatformRules.Proofs.Folds
import PlatformRules.Proofs.Line.Canonical

namespace PlatformRules

namespace Token.Kind

variable {k k' : Kind} {n : Nat}

theorem ofCode?_eq_some_iff : ofCode? n = some k ↔ k.code = n := by
  constructor
  · intro h
    obtain ⟨hlt, rfl⟩ := List.getElem?_eq_some_iff.1 h
    have hall : ∀ i (hi : i < all.length), code all[i] = i := by decide
    exact hall n hlt
  · rintro rfl
    exact ofCode?_code k

theorem ofCode?_eq_none_iff : ofCode? n = none ↔ 22 ≤ n :=
  List.getElem?_eq_none_iff

theorem code_lt (k : Kind) : k.code < 22 :=
  List.idxOf_lt_length_of_mem (mem_all k)

theorem code_injective (h : k.code = k'.code) : k = k' := by
  rw [← ofCode?_eq_some_iff, ofCode?_code] at h
  exact (Option.some.inj h).symm

end Token.Kind

theorem Line.tokens_ofSlots {slots : List Token} (h : slots.length = lineCapacity) :
    (ofSlots slots).tokens = slots.filter fun t => !t.isVacant := by
  change (slots.take lineCapacity).filter _ = _
  rw [← h, List.take_length]

def Token.IsPortable (u : Token) : Prop :=
  ∀ r ∈ u.range, r.start ≤ r.stop ∧ r.stop ≤ 2147483647

namespace ForeignToken

variable {t : ForeignToken} {u : Token} {cause : CallError}

def IsLegal (t : ForeignToken) : Prop :=
  t.kind ≤ 21 ∧ (0 ≤ t.start → t.start ≤ t.stop)

def IsVacant (t : ForeignToken) : Prop :=
  t.kind = 21 ∧ t.start < 0

instance : DecidablePred IsLegal :=
  fun _ => inferInstanceAs (Decidable (_ ∧ (_ → _)))

instance : DecidablePred IsVacant :=
  fun _ => inferInstanceAs (Decidable (_ ∧ _))

structure Denotes (t : ForeignToken) (u : Token) : Prop where
  code_eq : u.kind.code = t.kind.toNat
  range_eq : u.range =
    if t.start < 0 then none else some ⟨t.start.toInt.toNat, t.stop.toInt.toNat⟩

theorem kind_le_iff {kind : UInt8} : kind ≤ 21 ↔ kind.toNat < 22 :=
  UInt8.le_iff_toNat_le.trans Nat.lt_succ_iff.symm

theorem toToken_eq_ok_iff : t.toToken = .ok u ↔ t.IsLegal ∧ t.Denotes u := by
  unfold toToken
  cases hkind : Token.Kind.ofCode? t.kind.toNat with
  | none =>
    refine iff_of_false (by simp) fun h => ?_
    exact Nat.not_lt.2 (Token.Kind.ofCode?_eq_none_iff.1 hkind) (kind_le_iff.1 h.1.1)
  | some kind =>
    have hcode := Token.Kind.ofCode?_eq_some_iff.1 hkind
    have hlegal : t.kind ≤ 21 := kind_le_iff.2 (hcode ▸ kind.code_lt)
    have hsame : t.Denotes u ↔ u = ⟨kind, if t.start < 0 then none else
        some ⟨t.start.toInt.toNat, t.stop.toInt.toNat⟩⟩ := by
      constructor
      · rintro ⟨hu, hrange⟩
        obtain ⟨k, range⟩ := u
        obtain rfl : k = kind := Token.Kind.code_injective (hu.trans hcode.symm)
        exact congrArg _ hrange
      · rintro rfl
        exact ⟨hcode, rfl⟩
    rw [hsame, IsLegal]
    by_cases hstart : t.start < 0
    · have hnot : ¬0 ≤ t.start := Int32.not_le.2 hstart
      simp [hstart, hnot, hlegal, Token.synthetic, eq_comm]
    · by_cases hstop : t.stop < t.start
      · have hnot : ¬t.start ≤ t.stop := Int32.not_le.2 hstop
        simp [hstart, hstop, hnot, Int32.not_lt.1 hstart]
      · simp [hstart, hstop, hlegal, eq_comm, Int32.not_lt.1 hstop]

theorem lineStatus_of_toToken (h : t.toToken = .error cause) : cause.lineStatus = -6 := by
  unfold toToken at h
  split at h
  · obtain rfl := Except.error.inj h
    rfl
  · split at h
    · simp at h
    · split at h
      · obtain rfl := Except.error.inj h
        rfl
      · simp at h

theorem exists_of_isLegal (h : t.IsLegal) : ∃ u, t.toToken = .ok u := by
  cases hkind : Token.Kind.ofCode? t.kind.toNat with
  | none =>
    have hge := Token.Kind.ofCode?_eq_none_iff.1 hkind
    exact absurd (kind_le_iff.1 h.1) (Nat.not_lt.2 hge)
  | some kind =>
    exact ⟨⟨kind, _⟩, toToken_eq_ok_iff.2 ⟨h, Token.Kind.ofCode?_eq_some_iff.1 hkind, rfl⟩⟩

theorem Denotes.isVacant_iff (h : t.Denotes u) : u.isVacant = true ↔ t.IsVacant := by
  have hkind : u.kind = .undefined ↔ t.kind = 21 := by
    rw [← UInt8.toNat_inj, ← h.code_eq]
    exact ⟨fun hu => hu ▸ rfl, fun hcode => Token.Kind.code_injective hcode⟩
  have hrange : u.range = none ↔ t.start < 0 := by
    rw [h.range_eq]
    split <;> simp [*]
  rw [Token.isVacant, beq_iff_eq, IsVacant, ← hkind, ← hrange]
  obtain ⟨kind, range⟩ := u
  simp [Token.vacant, Token.synthetic]

theorem Denotes.unique {v : Token} (hu : t.Denotes u) (hv : t.Denotes v) : u = v := by
  obtain ⟨kind, range⟩ := u
  obtain ⟨kind', range'⟩ := v
  obtain rfl : kind = kind' := Token.Kind.code_injective (hu.code_eq.trans hv.code_eq.symm)
  exact congrArg _ (hu.range_eq.trans hv.range_eq.symm)

theorem toNat_le (n : Int32) : n.toInt.toNat ≤ 2147483647 := by
  have := n.toInt_lt
  omega

theorem toInt_offset {n : Nat} (h : n ≤ 2147483647) : (offset n).toInt = n := by
  rw [offset, Nat.min_eq_left h, Int32.toInt_ofNat_of_lt (by omega)]

theorem isPortable_of_denotes (hlegal : t.IsLegal) (h : t.Denotes u) : u.IsPortable := by
  intro r hr
  rw [h.range_eq] at hr
  split at hr
  · simp at hr
  · next hstart =>
    obtain rfl := Option.some.inj hr
    have hle := Int32.le_iff_toInt_le.1 (hlegal.2 (Int32.not_lt.1 hstart))
    exact ⟨Int.toNat_le_toNat hle, toNat_le t.stop⟩

theorem toToken_ofToken (h : u.IsPortable) : (ofToken u).toToken = .ok u := by
  obtain ⟨kind, range⟩ := u
  have hcode : (UInt8.ofNat kind.code).toNat = kind.code := by
    have := kind.code_lt
    simp
    omega
  have hkind : UInt8.ofNat kind.code ≤ 21 := by
    rw [kind_le_iff, hcode]
    exact kind.code_lt
  rw [toToken_eq_ok_iff]
  cases range with
  | none =>
    have hnot : ¬(0 : Int32) ≤ -1 := by decide
    exact ⟨⟨hkind, fun h => absurd h hnot⟩, hcode.symm, rfl⟩
  | some r =>
    obtain ⟨hle, hmax⟩ := h r rfl
    have hstart : (offset r.start).toInt = r.start := toInt_offset (Nat.le_trans hle hmax)
    have hstop : (offset r.stop).toInt = r.stop := toInt_offset hmax
    have hnot : ¬offset r.start < 0 := by
      rw [Int32.lt_iff_toInt_lt, hstart]
      simp
    have hforward : offset r.start ≤ offset r.stop := by
      rw [Int32.le_iff_toInt_le, hstart, hstop]
      omega
    refine ⟨⟨hkind, fun _ => hforward⟩, hcode.symm, ?_⟩
    change some r = if offset r.start < 0 then none else
      some ⟨(offset r.start).toInt.toNat, (offset r.stop).toInt.toNat⟩
    rw [if_neg hnot, hstart, hstop, Int.toNat_natCast, Int.toNat_natCast]

end ForeignToken

namespace ForeignLine

variable {l c : Line} {native : ForeignLine}

theorem lineStatus_of_toLine {cause : CallError} (h : native.toLine = .error cause) :
    (∃ t ∈ native.slots, ¬t.IsLegal) ∧ cause.lineStatus = -6 := by
  unfold toLine at h
  cases hslots : native.slots.mapM ForeignToken.toToken with
  | ok us => simp [hslots, Except.map] at h
  | error cause' =>
    obtain rfl : cause' = cause := by simpa [hslots, Except.map] using h
    obtain ⟨t, ht, herror⟩ := exists_of_mapM_eq_error hslots
    refine ⟨⟨t, ht, fun hlegal => ?_⟩, ForeignToken.lineStatus_of_toToken herror⟩
    obtain ⟨u, hu⟩ := ForeignToken.exists_of_isLegal hlegal
    simp [hu] at herror

structure Denotes (native : ForeignLine) (l : Line) : Prop where
  legal : ∀ t ∈ native.slots, t.IsLegal
  tokens : List.Forall₂ ForeignToken.Denotes (native.slots.filter (¬·.IsVacant)) l.tokens

theorem denotes_of_toLine (hslots : native.slots.length = lineCapacity)
    (h : native.toLine = .ok l) : native.Denotes l := by
  unfold toLine at h
  cases hus : native.slots.mapM ForeignToken.toToken with
  | error cause => simp [hus, Except.map] at h
  | ok us =>
    rw [hus] at h
    obtain rfl := Except.ok.inj h
    have hread := mapM_eq_ok_iff.1 hus
    have hdenotes : List.Forall₂ (fun t u => t.IsLegal ∧ t.Denotes u) native.slots us :=
      hread.imp fun _ _ h => ForeignToken.toToken_eq_ok_iff.1 h
    obtain ⟨hlegal, hdenotes⟩ := (List.forall₂_and_left _ _).1 hdenotes
    refine ⟨hlegal, ?_⟩
    rw [Line.tokens_ofSlots (hread.length_eq.symm.trans hslots)]
    apply List.rel_filter _ hdenotes
    intro t u htu
    simp [← htu.isVacant_iff]

theorem toLine_eq_ok_iff (hslots : native.slots.length = lineCapacity) :
    native.toLine = .ok l ↔ native.Denotes l := by
  constructor
  · exact denotes_of_toLine hslots
  · intro hl
    cases h : native.toLine with
    | error cause =>
      obtain ⟨⟨t, ht, hnot⟩, -⟩ := lineStatus_of_toLine h
      exact absurd (hl.legal t ht) hnot
    | ok c =>
      have hunique : Relator.RightUnique ForeignToken.Denotes := fun _ _ _ hu hv => hu.unique hv
      have hc := (denotes_of_toLine hslots h).tokens
      exact congrArg Except.ok (Line.ext (List.right_unique_forall₂' hunique hc hl.tokens))

theorem exists_denotes (hslots : native.slots.length = lineCapacity)
    (hlegal : ∀ t ∈ native.slots, t.IsLegal) : ∃ l, native.Denotes l := by
  cases h : native.toLine with
  | error cause =>
    obtain ⟨⟨t, ht, hnot⟩, -⟩ := lineStatus_of_toLine h
    exact absurd (hlegal t ht) hnot
  | ok l => exact ⟨l, denotes_of_toLine hslots h⟩

theorem Denotes.tokens_eq_nil_iff (h : native.Denotes l) :
    l.tokens = [] ↔ ∀ t ∈ native.slots, t.IsVacant := by
  rw [← List.length_eq_zero_iff, ← h.tokens.length_eq, List.length_eq_zero_iff,
    List.filter_eq_nil_iff]
  simp

theorem Denotes.isPortable (h : native.Denotes l) {u : Token} (hu : u ∈ l.tokens) :
    u.IsPortable ∧ u.isVacant = false := by
  obtain ⟨⟨i, hi⟩, rfl⟩ := List.get_of_mem hu
  have hi' := h.tokens.length_eq.symm ▸ hi
  have hdenotes := h.tokens.get hi' hi
  obtain ⟨ht, hnot⟩ := List.mem_filter.1 (List.get_mem _ ⟨i, hi'⟩)
  refine ⟨ForeignToken.isPortable_of_denotes (h.legal _ ht) hdenotes, ?_⟩
  rw [← Bool.not_eq_true, hdenotes.isVacant_iff]
  simpa using hnot

theorem toLine_ofLine (h : ∀ t ∈ l.tokens, t.IsPortable ∧ t.isVacant = false) :
    (ofLine l).toLine = .ok l := by
  have hread : (ofLine l).slots.mapM ForeignToken.toToken = .ok l.slots := by
    rw [ofLine, mapM_eq_ok_iff, List.forall₂_map_left_iff, List.forall₂_same]
    intro t ht
    apply ForeignToken.toToken_ofToken
    rcases List.mem_append.1 ht with ht | ht
    · exact (h t ht).1
    · obtain rfl := List.eq_of_mem_replicate ht
      intro r hr
      simp [Token.vacant, Token.synthetic] at hr
  rw [toLine, hread]
  refine congrArg Except.ok (Line.ext ?_)
  rw [Line.tokens_ofSlots l.length_slots, Line.slots, List.filter_append,
    List.filter_eq_self.2 fun t ht => by simp [(h t ht).2]]
  simp [Token.isVacant]

theorem slots_ofLine (l : Line) : (ofLine l).slots =
    l.tokens.map .ofToken ++ List.replicate (lineCapacity - l.length) .vacant := by
  rw [ofLine, Line.slots, List.map_append, List.map_replicate]
  rfl

end ForeignLine

theorem Token.IsPortable.of_isAdded {t : Token} (h : Canonical.IsAdded t) : t.IsPortable := by
  intro r hr
  simp [h.1] at hr

theorem Token.isVacant_of_isAdded {t : Token} (h : Canonical.IsAdded t) : t.isVacant = false := by
  rw [isVacant, beq_eq_false_iff_ne]
  rintro rfl
  exact h.2 rfl

namespace Foreign

variable {native output : ForeignLine} {l c : Line}

theorem normalize_of_illegal (hslots : native.slots.length = lineCapacity)
    (h : ∃ t ∈ native.slots, ¬t.IsLegal) (output : ForeignLine) :
    ∃ cause, normalize (some native) (some output) =
      { status := -6, memory := some output, error := some cause } := by
  obtain ⟨t, ht, hnot⟩ := h
  cases hread : native.toLine with
  | ok l => exact absurd ((ForeignLine.denotes_of_toLine hslots hread).legal t ht) hnot
  | error cause =>
    refine ⟨cause, ?_⟩
    rw [← (ForeignLine.lineStatus_of_toLine hread).2]
    simp [normalize, normalizeResult, hread, CallReply.ofResult, bind, Except.bind]

theorem normalize_of_canonical_error {cause : ShapeError}
    (hslots : native.slots.length = lineCapacity) (hl : native.Denotes l)
    (hcause : l.canonical = .error cause) (output : ForeignLine) :
    normalize (some native) (some output) =
      { status := if cause = .emptyLine then -2 else -5, memory := some output,
        error := some (.shape cause) } := by
  have hstatus : (CallError.shape cause).lineStatus = if cause = .emptyLine then -2 else -5 := by
    cases cause <;> rfl
  have hread := (ForeignLine.toLine_eq_ok_iff hslots).2 hl
  rw [← hstatus]
  simp [normalize, normalizeResult, hread, hcause, CallReply.ofResult, bind, Except.bind,
    Except.mapError]

theorem normalize_of_canonical (hread : native.toLine = .ok l) (hc : l.canonical = .ok c)
    (output : ForeignLine) :
    normalize (some native) (some output) = { status := 0, memory := some (.ofLine c) } := by
  simp [normalize, normalizeResult, hread, hc, CallReply.ofResult, bind, Except.bind,
    Except.mapError, pure, Except.pure]

theorem isPortable_of_canonical (h : native.Denotes l) (hc : l.canonical = .ok c) :
    ∀ u ∈ c.tokens, u.IsPortable ∧ u.isVacant = false := by
  intro u hu
  rcases Line.mem_canonical hc u hu with hu | hu
  · exact h.isPortable hu
  · exact ⟨.of_isAdded hu, Token.isVacant_of_isAdded hu⟩

theorem status_normalize (hslots : native.slots.length = lineCapacity) (hl : native.Denotes l)
    (output : ForeignLine) :
    let r := normalize (some native) (some output)
    (r.status = -2 ↔ ∀ t ∈ native.slots, t.IsVacant) ∧
    (r.status = -5 ↔
      (∃ t ∈ native.slots, ¬t.IsVacant) ∧ ∃ cause, l.canonical = .error cause) ∧
    (r.status = 0 ↔ ∃ c, l.canonical = .ok c) ∧ (r.status ≠ 0 → r.memory = some output) := by
  intro r
  have hempty := Line.canonical_eq_emptyLine_iff.trans hl.tokens_eq_nil_iff
  have hsome : (∃ t ∈ native.slots, ¬t.IsVacant) ↔ l.canonical ≠ .error .emptyLine := by
    rw [Ne, hempty]
    simp
  rw [hsome, ← hempty]
  cases hc : l.canonical with
  | error cause =>
    have hr : r = _ := normalize_of_canonical_error hslots hl hc output
    rw [hr]
    by_cases hcause : cause = .emptyLine <;> simp [hcause]
  | ok c =>
    have hread := (ForeignLine.toLine_eq_ok_iff hslots).2 hl
    have hr : r = _ := normalize_of_canonical hread hc output
    rw [hr]
    simp

theorem memory_normalize (hslots : native.slots.length = lineCapacity) (hl : native.Denotes l)
    (hc : l.canonical = .ok c) (output : ForeignLine) :
    let r := normalize (some native) (some output)
    r.memory = some (.ofLine c) ∧
    (∃ used, List.Forall₂ ForeignToken.Denotes used c.tokens ∧ (ForeignLine.ofLine c).slots =
      used ++ List.replicate (lineCapacity - c.length) .vacant) ∧
    ∀ other, normalize r.memory (some other) = { status := 0, memory := r.memory } := by
  intro r
  have hread := (ForeignLine.toLine_eq_ok_iff hslots).2 hl
  have hr : r = _ := normalize_of_canonical hread hc output
  have hportable := isPortable_of_canonical hl hc
  rw [hr]
  refine ⟨rfl, ⟨c.tokens.map .ofToken, ?_, ForeignLine.slots_ofLine c⟩, ?_⟩
  · rw [List.forall₂_map_left_iff, List.forall₂_same]
    intro u hu
    have htold := ForeignToken.toToken_ofToken (hportable u hu).1
    exact (ForeignToken.toToken_eq_ok_iff.1 htold).2
  · -- What was told is read back as the canonical line, which is its own canonical form.
    exact normalize_of_canonical (ForeignLine.toLine_ofLine hportable) (Line.canonical_canonical hc)

/-- Whatever stands in the slots, the status tells what became of them. The output changes only if
the line has a canonical form, which is its own canonical form. -/
theorem normalize_total (hslots : native.slots.length = lineCapacity) (output : ForeignLine) :
    let r := normalize (some native) (some output)
    r.status ∈ [0, -2, -5, -6] ∧ (r.status ≠ 0 → r.memory = some output) ∧
    (r.status = -6 ↔ ∃ t ∈ native.slots, ¬t.IsLegal) ∧
    ((∀ t ∈ native.slots, t.IsLegal) → ∃ l, native.Denotes l) ∧
    ∀ l, native.Denotes l →
      (r.status = -2 ↔ ∀ t ∈ native.slots, t.IsVacant) ∧
      (r.status = -5 ↔
        (∃ t ∈ native.slots, ¬t.IsVacant) ∧ ∃ cause, l.canonical = .error cause) ∧
      (r.status = 0 ↔ ∃ c, l.canonical = .ok c) ∧
      ∀ c, l.canonical = .ok c → r.memory = some (.ofLine c) ∧
        (∃ used, List.Forall₂ ForeignToken.Denotes used c.tokens ∧
          (ForeignLine.ofLine c).slots =
            used ++ List.replicate (lineCapacity - c.length) .vacant) ∧
        ∀ other, normalize r.memory (some other) = { status := 0, memory := r.memory } := by
  intro r
  by_cases hlegal : ∀ t ∈ native.slots, t.IsLegal
  · obtain ⟨l, hl⟩ := ForeignLine.exists_denotes hslots hlegal
    obtain ⟨hvacant, hmalformed, hcanonical, hkept⟩ := status_normalize hslots hl output
    have hnone : ¬∃ t ∈ native.slots, ¬t.IsLegal := by simpa using hlegal
    have hmem : r.status = 0 ∨ r.status = -2 ∨ r.status = -5 := by
      cases hc : l.canonical with
      | ok c => exact .inl (hcanonical.2 ⟨c, hc⟩)
      | error cause =>
        by_cases hall : ∀ t ∈ native.slots, t.IsVacant
        · exact .inr (.inl (hvacant.2 hall))
        · exact .inr (.inr (hmalformed.2 ⟨by simpa using hall, cause, hc⟩))
    refine ⟨by simp; omega, hkept, iff_of_false (by omega) hnone, fun _ => ⟨l, hl⟩, ?_⟩
    intro l hl
    obtain ⟨hvacant, hmalformed, hcanonical, -⟩ := status_normalize hslots hl output
    exact ⟨hvacant, hmalformed, hcanonical, fun c hc => memory_normalize hslots hl hc output⟩
  · have hillegal : ∃ t ∈ native.slots, ¬t.IsLegal := by simpa using hlegal
    obtain ⟨cause, hcause⟩ := normalize_of_illegal hslots hillegal output
    have hr : r = _ := hcause
    rw [hr]
    refine ⟨by simp, fun _ => rfl, iff_of_true rfl hillegal, fun h => absurd h hlegal, ?_⟩
    exact fun l hl => absurd hl.legal hlegal

theorem normalize_total_gaps :
    let gap : ForeignToken := ⟨21, -7, 3⟩
    let native : ForeignLine := ⟨[gap, ⟨7, 0, 2⟩, ⟨21, -1, 0⟩, ⟨20, 4, 5⟩, gap, gap, gap, gap]⟩
    let l : Line := ⟨[⟨.operator .returns, some ⟨0, 2⟩⟩, ⟨.value, some ⟨4, 5⟩⟩], by decide⟩
    let r := normalize (some native) (some .vacant)
    native.slots.length = lineCapacity ∧ native.Denotes l ∧ r.status = 0 ∧
      r.memory = some ⟨[⟨7, 0, 2⟩, ⟨12, -1, 0⟩, ⟨12, -1, 0⟩, ⟨12, -1, 0⟩, ⟨20, 4, 5⟩, ⟨0, -1, 0⟩,
        .vacant, .vacant]⟩ := by
  intro gap native l r
  have hslots : native.slots.length = lineCapacity := rfl
  have hl : native.Denotes l := ForeignLine.denotes_of_toLine hslots rfl
  obtain ⟨-, -, -, -, hline⟩ := normalize_total hslots .vacant
  obtain ⟨-, -, hstatus, hmemory⟩ := hline l hl
  exact ⟨hslots, hl, hstatus.2 ⟨_, rfl⟩, (hmemory _ rfl).1⟩

end Foreign

end PlatformRules
