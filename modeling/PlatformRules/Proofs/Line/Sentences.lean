import PlatformRules.LogicPath
import PlatformRules.Proofs.Line.Lexemes
import PlatformRules.Proofs.Token.Words

/-!
The sentences of the language, as they are written. A logic path has one of five forms; its words
stand behind gaps, and its value may hold quotes. The scanner finds the words of a path again, and
only in a text of this form.
-/

namespace PlatformRules

open Text

namespace Pattern

def spelling : Pattern → List Char
  | any => Vocabulary.wildcardWord.toList
  | defined => Vocabulary.definedWord.toList
  | word w => w

def Allows (p : List Char → Prop) : Pattern → Prop
  | any | defined => True
  | word w => p w

theorem allows_congr {p q : List Char → Prop} (h : ∀ w, p w ↔ q w) (x : Pattern) :
    x.Allows p ↔ x.Allows q := by
  cases x with
  | any => exact Iff.rfl
  | defined => exact Iff.rfl
  | word w => exact h w

end Pattern

inductive PathFields where
  | none
  | system (system : Pattern)
  | machine (system architecture : Pattern)
  | release (system version architecture : Pattern)
  | compared (system : Pattern) (comparator : Comparator) (literal : List Char)
      (architecture : Pattern)

namespace PathFields

def words : PathFields → List (List Char)
  | none => []
  | system s => [s.spelling]
  | machine s a => [s.spelling, a.spelling]
  | release s v a => [s.spelling, v.spelling, a.spelling]
  | compared s c n a => [s.spelling, c.symbol.toList, n, a.spelling]

def IsSystemField : Pattern → Prop :=
  Pattern.Allows (IsNameOf Vocabulary.systems)

def IsArchitectureField : Pattern → Prop :=
  Pattern.Allows (IsNameOf Vocabulary.architectures)

def IsVersionField : Pattern → Prop :=
  Pattern.Allows IsInteger

def IsValid : PathFields → Prop
  | none => True
  | system s => IsSystemField s
  | machine s a => IsSystemField s ∧ IsArchitectureField a
  | release s v a => IsSystemField s ∧ IsVersionField v ∧ IsArchitectureField a
  | compared s _ n a => IsSystemField s ∧ IsInteger n ∧ IsArchitectureField a

section

variable {p : List Char → Prop}

theorem spelling_of_allows {q : List Char → Prop} {x : Pattern} (hx : x.Allows q)
    (hany : p Vocabulary.wildcardWord.toList) (hdefined : p Vocabulary.definedWord.toList)
    (hq : ∀ w, q w → p w) : p x.spelling := by
  cases x with
  | any => exact hany
  | defined => exact hdefined
  | word w => exact hq w hx

theorem forall_mem_words {f : PathFields} (hf : f.IsValid)
    (hany : p Vocabulary.wildcardWord.toList) (hdefined : p Vocabulary.definedWord.toList)
    (hsystem : ∀ w, IsNameOf Vocabulary.systems w → p w)
    (harchitecture : ∀ w, IsNameOf Vocabulary.architectures w → p w)
    (hversion : ∀ w, IsInteger w → p w) (hcomparator : ∀ c : Comparator, p c.symbol.toList) :
    ∀ w ∈ f.words, p w := by
  have field {q : List Char → Prop} (hq : ∀ w, q w → p w) {x : Pattern} (hx : x.Allows q) :
      p x.spelling := spelling_of_allows hx hany hdefined hq
  cases f with
  | none => simp [words]
  | system s => simpa [words] using field hsystem hf
  | machine s a =>
    simpa [words] using And.intro (field hsystem hf.1) (field harchitecture hf.2)
  | release s v a =>
    simpa [words] using And.intro (field hsystem hf.1)
      (And.intro (field hversion hf.2.1) (field harchitecture hf.2.2))
  | compared s c n a =>
    simpa [words] using And.intro (field hsystem hf.1)
      (And.intro (hcomparator c) (And.intro (hversion n hf.2.1) (field harchitecture hf.2.2)))

end

theorem isFieldWord_of_mem {f : PathFields} (hf : f.IsValid) : ∀ w ∈ f.words, IsFieldWord w := by
  refine forall_mem_words (p := IsFieldWord) hf ?_ ?_ ?_ ?_ ?_ ?_
  · exact isFieldWord_of_visible (by decide) (forall_of_all (by decide))
  · exact isFieldWord_of_visible (by decide) (forall_of_all (by decide))
  · exact fun _ => Vocabulary.isFieldWord_of_isNameOf Vocabulary.systems_subset
  · exact fun _ => Vocabulary.isFieldWord_of_isNameOf Vocabulary.architectures_subset
  · exact fun _ => IsInteger.isFieldWord
  · intro c
    cases c <;> exact isFieldWord_of_visible (by decide) (forall_of_all (by decide))

theorem ofWord_ne_undefined_of_mem {f : PathFields} (hf : f.IsValid) :
    ∀ w ∈ f.words, Token.Kind.ofWord w ≠ .undefined := by
  refine forall_mem_words (p := (Token.Kind.ofWord · ≠ .undefined)) hf ?_ ?_ ?_ ?_ ?_ ?_
  · simp [Token.Kind.ofWord_wildcardWord]
  · simp [Token.Kind.ofWord_definedWord]
  · intro w hw
    simp [Token.Kind.ofWord_of_isSystem (Vocabulary.isSystem_iff.2 hw)]
  · intro w hw
    simp [Token.Kind.ofWord_of_isArchitecture (Vocabulary.isArchitecture_iff.2 hw)]
  · intro w hw
    simp [Token.Kind.ofWord_of_isSome_version? (Vocabulary.isSome_version?_iff.2 hw)]
  · intro c
    simp [Token.Kind.ofWord_symbol]

end PathFields

inductive Spaced : List (List Char) → List Char → Prop
  | nil : Spaced [] []
  | cons {gap word text : List Char} {words : List (List Char)} (hgap : IsGap gap)
      (htext : Spaced words text) : Spaced (word :: words) (gap ++ (word ++ text))

inductive Statement where
  | blank
  | comment (text : List Char)
  | action (name argument : List Char)
  | path (operator : Operator) (fields : PathFields) (value : List Char)

def IsActionName (name : List Char) : Prop :=
  name ≠ [] ∧ ∀ c ∈ name, isAlphanumeric c ∨ c = '_'

theorem IsActionName.isBlank_eq_false {name : List Char} (h : IsActionName name) :
    ∀ c ∈ name, isBlank c = false := by
  intro c hc
  rcases h.2 c hc with hc | rfl
  · exact isBlank_of_isAlphanumeric hc
  · decide

/-- The texts that say something, without the blanks around them. -/
inductive Written : Statement → List Char → Prop
  | blank : Written .blank []
  | comment (text : List Char) : Written (.comment (trim text)) ('#' :: text)
  | action {name text : List Char} (hname : IsActionName name)
      (hword : ∀ c ∈ name, isBlank c = false) (htext : EndsWord text) :
      Written (.action name (trim text)) ('@' :: (name ++ text))
  | path {o : Operator} {f : PathFields} {value text gap : List Char} (hf : f.IsValid)
      (htext : Spaced f.words text) (hgap : IsGap gap) :
      Written (.path o f value) (o.symbol.toList ++ (text ++ (gap ++ '"' :: (value ++ ['"']))))

theorem Spaced.endsWord {words : List (List Char)} {text rest : List Char} (h : Spaced words text)
    (hrest : EndsWord rest) : EndsWord (text ++ rest) := by
  cases h with
  | nil => exact hrest
  | cons hgap _ => rw [List.append_assoc]; exact hgap.endsWord

namespace Lexeme

inductive IsScanned : Lexeme → Prop
  | word (w : List Char) : IsScanned (Lexeme.word w)
  | value (v : List Char) : IsScanned ⟨.value, some v⟩
  | undefined (text : List Char) : IsScanned ⟨.undefined, some text⟩

variable {cs value : List Char} {words : List (List Char)}

theorem isScanned_ofValue (cs : List Char) : ∀ x ∈ ofValue cs, x.IsScanned := by
  intro x hx
  rcases Scan.not_mem_or_eq_append_quote cs with hq | ⟨inside, after, rfl, hq⟩
  · rw [ofValue_open hq, List.mem_singleton] at hx
    exact hx ▸ .undefined _
  · rw [ofValue_closed hq, List.mem_cons] at hx
    rcases hx with rfl | hx
    · exact .value _
    · split at hx
      · simp at hx
      · rw [List.mem_singleton] at hx
        exact hx ▸ .undefined _

theorem isScanned_ofFields (cs : List Char) : ∀ x ∈ ofFields cs, x.IsScanned := by
  fun_induction ofFields cs with
  | case1 cs h => simp
  | case2 cs rest h => exact isScanned_ofValue rest
  | case3 cs c rest h hc ih =>
    intro x hx
    rcases List.mem_cons.1 hx with rfl | hx
    · exact .word _
    · exact ih x hx

theorem IsScanned.isPlaced {x : Lexeme} (h : x.IsScanned) :
    x.text.isSome = true ∧ x.kind.isTerminator = false := by
  cases h with
  | value v => exact ⟨rfl, rfl⟩
  | undefined text => exact ⟨rfl, rfl⟩
  | word w =>
    have hreads := Token.Kind.reads_ofWord w
    refine ⟨rfl, ?_⟩
    change (Token.Kind.ofWord w).isTerminator = false
    cases hkind : Token.Kind.ofWord w <;> rw [hkind] at hreads <;>
      first | exact hreads.elim | rfl

theorem isPlaced_of_mem_ofBody {x : Lexeme} (hx : x ∈ ofBody cs) :
    x.text.isSome = true ∧ x.kind.isTerminator = false := by
  cases cs with
  | nil => simp [ofBody] at hx
  | cons c rest =>
    rw [ofBody] at hx
    split at hx
    · simp only [List.mem_cons, List.not_mem_nil, or_false] at hx
      rcases hx with rfl | rfl <;> exact ⟨rfl, rfl⟩
    · split at hx
      · simp only [List.mem_cons, List.not_mem_nil, or_false] at hx
        rcases hx with rfl | rfl | rfl <;> exact ⟨rfl, rfl⟩
      · rcases List.mem_cons.1 hx with rfl | hx
        · refine ⟨rfl, ?_⟩
          rcases Token.Kind.ofOperatorWord_cases (c :: rest.takeWhile (!isBlank ·)) with
            ⟨o, ho⟩ | hundefined
          · rw [ho, Token.Kind.ofOperatorWord_symbol]
            rfl
          · rw [hundefined]
            rfl
        · exact (isScanned_ofFields _ x hx).isPlaced

theorem ofBody_operator (o : Operator) {rest : List Char} (hrest : EndsWord rest) :
    ofBody (o.symbol.toList ++ rest) =
      ⟨.operator o, some o.symbol.toList⟩ :: ofFields rest := by
  obtain ⟨c, w, hsymbol, hcomment, haction, hw⟩ : ∃ c w, o.symbol.toList = c :: w ∧ c ≠ '#' ∧
      c ≠ '@' ∧ ∀ d ∈ w, isBlank d = false := by
    cases o with
    | returns => exact ⟨'-', ['>'], by decide, by decide, by decide, forall_of_all (by decide)⟩
    | throws => exact ⟨'!', ['>'], by decide, by decide, by decide, forall_of_all (by decide)⟩
  rw [hsymbol, List.cons_append, ofBody, if_neg hcomment, if_neg haction,
    takeWhile_word hw hrest, dropWhile_word hw hrest, ← hsymbol]
  simp only [Token.Kind.ofOperatorWord_symbol]

theorem ofFields_spaced_append {text rest : List Char} (htext : Spaced words text)
    (hwords : ∀ w ∈ words, IsFieldWord w) (hrest : EndsWord rest) :
    ofFields (text ++ rest) = words.map word ++ ofFields rest := by
  induction htext with
  | nil => rfl
  | @cons g w text words hg htext ih =>
    obtain ⟨⟨hne, hw⟩, hhead⟩ := hwords w (by simp)
    obtain ⟨c, w, rfl⟩ := List.exists_cons_of_ne_nil hne
    have hc : c ≠ '"' := fun h => hhead (by rw [h]; rfl)
    have hw' : ∀ d ∈ w, isBlank d = false := fun d hd => hw d (List.mem_cons_of_mem c hd)
    have ih := ih fun v hv => hwords v (List.mem_cons_of_mem _ hv)
    have hends : EndsWord (text ++ rest) := htext.endsWord hrest
    have hword : trimStart (g ++ ((c :: w) ++ (text ++ rest))) = c :: (w ++ (text ++ rest)) := by
      rw [trimStart_append hg.2, List.cons_append, trimStart_cons (hw c (by simp))]
    rw [List.append_assoc, List.append_assoc, ofFields_of_word hword hc, takeWhile_word hw' hends,
      dropWhile_word hw' hends, ih]
    rfl

theorem ofFields_of_spaced {text gap tail : List Char} (htext : Spaced words text)
    (hwords : ∀ w ∈ words, IsFieldWord w) (hgap : IsGap gap) (htail : IsBlankRun tail) :
    ofFields (text ++ (gap ++ '"' :: (value ++ '"' :: tail))) =
      words.map word ++ [⟨.value, some value⟩] := by
  have hquote : trimStart (gap ++ '"' :: (value ++ '"' :: tail)) = '"' :: (value ++ '"' :: tail) := by
    rw [trimStart_append hgap.2, trimStart_cons (by decide)]
  have hmem : '"' ∉ tail := fun h => absurd (htail _ h) (by decide)
  rw [ofFields_spaced_append htext hwords hgap.endsWord, ofFields_of_quote hquote,
    ofValue_closed hmem, if_pos (trimStart_eq_nil_iff.2 htail)]

theorem ofValue_eq_singleton (h : ofValue cs = [⟨.value, some value⟩]) :
    ∃ tail, IsBlankRun tail ∧ cs = value ++ '"' :: tail := by
  rcases Scan.not_mem_or_eq_append_quote cs with hq | ⟨inside, after, rfl, hq⟩
  · simp [ofValue_open hq] at h
  · rw [ofValue_closed hq] at h
    obtain ⟨hvalue, hafter⟩ := List.cons.inj h
    obtain rfl : inside = value := by simpa using hvalue
    refine ⟨after, trimStart_eq_nil_iff.1 ?_, rfl⟩
    by_contra hne
    simp [hne] at hafter

theorem ofValue_ne_cons_word {w : List Char} {more : List Lexeme} (hmore : more ≠ []) :
    ofValue cs ≠ word w :: more := by
  intro h
  rcases Scan.not_mem_or_eq_append_quote cs with hq | ⟨inside, after, rfl, hq⟩
  · rw [ofValue_open hq] at h
    exact hmore (List.cons.inj h).2.symm
  · rw [ofValue_closed hq] at h
    have hkind := congrArg Lexeme.kind (List.cons.inj h).1
    exact Token.Kind.ofWord_ne_value hkind.symm

theorem isGap_takeWhile {c : Char} {rest : List Char} (hends : EndsWord cs)
    (h : trimStart cs = c :: rest) : IsGap (cs.takeWhile isBlank) := by
  refine ⟨?_, isBlankRun_takeWhile cs⟩
  cases cs with
  | nil => simp [trimStart] at h
  | cons d ds => simp [hends d rfl]

theorem spaced_of_ofFields (hends : EndsWord cs)
    (h : ofFields cs = words.map word ++ [⟨.value, some value⟩]) :
    ∃ text gap tail, Spaced words text ∧ IsGap gap ∧ IsBlankRun tail ∧
      cs = text ++ (gap ++ '"' :: (value ++ '"' :: tail)) := by
  induction words generalizing cs with
  | nil =>
    cases hcs : trimStart cs with
    | nil => simp [ofFields_of_blank hcs] at h
    | cons c rest =>
      by_cases hc : c = '"'
      · subst hc
        rw [ofFields_of_quote hcs] at h
        obtain ⟨tail, htail, rfl⟩ := ofValue_eq_singleton h
        refine ⟨[], cs.takeWhile isBlank, tail, .nil, isGap_takeWhile hends hcs, htail, ?_⟩
        rw [← hcs, List.nil_append, takeWhile_trimStart]
      · rw [ofFields_of_word hcs hc] at h
        have hkind := congrArg Lexeme.kind (List.cons.inj h).1
        exact absurd hkind Token.Kind.ofWord_ne_value
  | cons w words ih =>
    cases hcs : trimStart cs with
    | nil => simp [ofFields_of_blank hcs] at h
    | cons c rest =>
      by_cases hc : c = '"'
      · subst hc
        rw [ofFields_of_quote hcs] at h
        exact absurd h (ofValue_ne_cons_word (by simp))
      · rw [ofFields_of_word hcs hc] at h
        obtain ⟨hword, hrest⟩ := List.cons.inj h
        obtain rfl : c :: rest.takeWhile (!isBlank ·) = w :=
          Option.some.inj (congrArg Lexeme.text hword)
        obtain ⟨text, gap, tail, htext, hgap, htail, hrest⟩ := ih (endsWord_dropWhile rest) hrest
        refine ⟨_, gap, tail, .cons (isGap_takeWhile hends hcs) htext, hgap, htail, ?_⟩
        rw [List.append_assoc, List.append_assoc, ← hrest, List.cons_append,
          List.takeWhile_append_dropWhile, ← hcs, takeWhile_trimStart]

end Lexeme

def PathFields.completed : PathFields → List Lexeme
  | none => [.synthetic .wildcard, .synthetic .wildcard, .synthetic .wildcard]
  | system s => [.word s.spelling, .synthetic .wildcard, .synthetic .wildcard]
  | machine s a => [.word s.spelling, .synthetic .wildcard, .word a.spelling]
  | release s v a => [.word s.spelling, .word v.spelling, .word a.spelling]
  | compared s c n a => [.word s.spelling, .word c.symbol.toList, .word n, .word a.spelling]

namespace Statement

def scanned : Statement → List Lexeme
  | blank => []
  | comment text => [⟨.commentSign, some ['#']⟩, ⟨.commentText, some text⟩]
  | action name argument =>
    [⟨.actionSign, some ['@']⟩, ⟨.actionName, some name⟩, ⟨.actionArgument, some argument⟩]
  | path o f value =>
    ⟨.operator o, some o.symbol.toList⟩ :: (f.words.map Lexeme.word ++ [⟨.value, some value⟩])

def lexemes : Statement → List Lexeme
  | path o f value =>
    ⟨.operator o, some o.symbol.toList⟩ :: (f.completed ++ [⟨.value, some value⟩])
  | st => st.scanned

theorem length_lexemes_path (o : Operator) (f : PathFields) (value : List Char) :
    (path o f value).lexemes.length = 5 ∨ (path o f value).lexemes.length = 6 := by
  cases f <;> simp [lexemes, PathFields.completed]

end Statement

namespace Written

variable {st : Statement} {cs : List Char}

theorem ofLine_eq (h : Written st (trim cs)) :
    Lexeme.ofLine cs = st.scanned ++ [.synthetic .lineEnd] := by
  obtain ⟨tail, htail, hcs⟩ := exists_trimEnd_append (trimStart cs)
  change trim cs ++ tail = trimStart cs at hcs
  rw [Lexeme.ofLine, ← hcs]
  congr 1
  generalize trim cs = s at h hcs
  cases h with
  | blank =>
    cases tail with
    | nil => rfl
    | cons c tail =>
      have hc := isBlank_head_trimStart hcs.symm
      simp [htail c (by simp)] at hc
  | comment text =>
    rw [List.cons_append, Lexeme.ofBody, if_pos rfl, trim_append_right htail]
    rfl
  | @action name text hname hword htext =>
    have hends := htext.append htail
    rw [List.cons_append, Lexeme.ofBody, if_neg (by decide), if_pos rfl, List.append_assoc,
      takeWhile_word hword hends, dropWhile_word hword hends, trim_append_right htail]
    rfl
  | @path o f value text gap hf htext hgap =>
    have hends : EndsWord (text ++ (gap ++ '"' :: (value ++ '"' :: tail))) :=
      htext.endsWord hgap.endsWord
    simp only [List.append_assoc, List.cons_append, List.nil_append]
    rw [Lexeme.ofBody_operator o hends,
      Lexeme.ofFields_of_spaced htext (PathFields.isFieldWord_of_mem hf) hgap htail]
    rfl

theorem trim_path {o : Operator} {f : PathFields} {value : List Char}
    (h : Written (.path o f value) cs) : trim cs = cs := by
  cases h with
  | @path _ _ _ text gap hf htext hgap =>
    obtain ⟨c, w, hsymbol, hc⟩ : ∃ c w, o.symbol.toList = c :: w ∧ isBlank c = false := by
      cases o with
      | returns => exact ⟨'-', ['>'], by decide, by decide⟩
      | throws => exact ⟨'!', ['>'], by decide, by decide⟩
    have hends : o.symbol.toList ++ (text ++ (gap ++ '"' :: (value ++ ['"']))) =
        c :: (w ++ (text ++ (gap ++ '"' :: value))) ++ ['"'] := by
      rw [hsymbol]
      simp
    rw [hends, trim, List.cons_append, trimStart_cons hc, ← List.cons_append]
    exact trimEnd_concat _ (by decide)

theorem eq_nil (h : Written .blank cs) : cs = [] := by
  cases h
  rfl

theorem eq_blank (h : Written st cs) (hcs : cs = []) : st = .blank := by
  cases h with
  | blank => rfl
  | comment text => simp at hcs
  | action hname hword htext => simp at hcs
  | path hf htext hgap => simp at hcs

end Written

end PlatformRules
