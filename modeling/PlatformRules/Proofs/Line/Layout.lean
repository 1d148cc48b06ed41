import PlatformRules.Line.Source
import PlatformRules.Proofs.Line.Judgement

namespace PlatformRules

open Text

def spaced (words : List (List Char)) : List Char :=
  words.flatMap fun w => ' ' :: w

theorem intercalate_cons (first : List Char) (words : List (List Char)) :
    List.intercalate [' '] (first :: words) = first ++ spaced words := by
  induction words generalizing first with
  | nil => simp [spaced]
  | cons w words ih =>
    rw [List.intercalate_cons_cons, ih]
    simp [spaced]

theorem spaced_append (words more : List (List Char)) :
    spaced (words ++ more) = spaced words ++ spaced more :=
  List.flatMap_append

theorem spaced_spaced (words : List (List Char)) : Spaced words (spaced words) := by
  induction words with
  | nil => exact .nil
  | cons w words ih =>
    have hcons : spaced (w :: words) = [' '] ++ (w ++ spaced words) := by simp [spaced]
    rw [hcons]
    exact .cons (by decide) ih

def Lexeme.part? (x : Lexeme) : Option (List Char) :=
  match x.kind with
  | .lineEnd | .textEnd | .actionSign => none
  | .commentSign => some ['#']
  | .actionName => some ('@' :: x.text.getD [])
  | .value => some ('"' :: x.text.getD [] ++ ['"'])
  | kind =>
    if x.text.isNone then kind.syntheticText?.map String.toList
    else if x.text.getD [] = [] then none
    else some (x.text.getD [])

theorem Token.part?_eq (source : List Char) (t : Token) :
    t.part? source = (t.lexeme source).part? := by
  unfold Token.part? Lexeme.part?
  rw [Token.isSynthetic_eq source, Token.text_eq]
  rfl

theorem Lexeme.part?_word {w : List Char} (hw : w ≠ []) : (word w).part? = some w := by
  have hreads := Token.Kind.reads_ofWord w
  unfold part? word
  cases hk : Token.Kind.ofWord w <;> rw [hk] at hreads <;> simp_all [Token.Kind.Reads]

namespace Statement

def optional (text : List Char) : List (List Char) :=
  if text = [] then [] else [text]

def parts : Statement → List (List Char)
  | blank => []
  | comment text => ['#'] :: optional text
  | action name argument => ('@' :: name) :: optional argument
  | path o f value => o.symbol.toList :: (f.words ++ ['"' :: value ++ ['"']])

def formatted (st : Statement) : List Char :=
  List.intercalate [' '] st.parts

theorem filterMap_part?_words {words : List (List Char)} (h : ∀ w ∈ words, w ≠ []) :
    (words.map Lexeme.word).filterMap (·.part?) = words := by
  induction words with
  | nil => rfl
  | cons w words ih =>
    have hw := Lexeme.part?_word (h w (by simp))
    rw [List.map_cons, List.filterMap_cons_some hw, ih fun v hv => h v (List.mem_cons_of_mem w hv)]

theorem filterMap_part?_scanned {st : Statement} {cs : List Char} (h : Written st cs) :
    st.scanned.filterMap (·.part?) = st.parts := by
  cases h with
  | blank => rfl
  | comment text =>
    by_cases ht : trim text = [] <;> simp [scanned, parts, optional, Lexeme.part?, ht]
  | @action name text hname hword htext =>
    by_cases ht : trim text = [] <;> simp [scanned, parts, optional, Lexeme.part?, ht]
  | @path o f value text gap hf htext hgap =>
    have hwords : ∀ w ∈ f.words, w ≠ [] := fun w hw => (PathFields.isFieldWord_of_mem hf w hw).1.1
    have hsymbol : o.symbol.toList ≠ [] := by
      cases o <;> decide
    have hoperator : (⟨.operator o, some o.symbol.toList⟩ : Lexeme).part? =
        some o.symbol.toList := by
      simp [Lexeme.part?, hsymbol]
    have hvalue : (⟨.value, some value⟩ : Lexeme).part? = some ('"' :: value ++ ['"']) := rfl
    rw [scanned, List.filterMap_cons_some hoperator, List.filterMap_append,
      filterMap_part?_words hwords, List.filterMap_cons_some hvalue]
    rfl

theorem formatted_comment (text : List Char) :
    (comment text).formatted = '#' :: spaced (optional text) :=
  intercalate_cons ['#'] (optional text)

theorem formatted_action (name argument : List Char) :
    (action name argument).formatted = '@' :: (name ++ spaced (optional argument)) :=
  intercalate_cons ('@' :: name) (optional argument)

theorem formatted_path (o : Operator) (f : PathFields) (value : List Char) :
    (path o f value).formatted =
      o.symbol.toList ++ (spaced f.words ++ ([' '] ++ '"' :: (value ++ ['"']))) := by
  rw [formatted, parts, intercalate_cons, spaced_append]
  simp [spaced]

theorem spaced_optional_nil : spaced (optional []) = [] := by
  simp [spaced, optional]

theorem spaced_optional_of_ne_nil {text : List Char} (h : text ≠ []) :
    spaced (optional text) = ' ' :: text := by
  simp [spaced, optional, h]

theorem trim_spaced_optional (text : List Char) :
    trim (spaced (optional (trim text))) = trim text := by
  by_cases h : trim text = []
  · rw [h]
    rfl
  · have hspaced : ' ' :: trim text = [' '] ++ trim text ++ [] := by simp
    rw [spaced_optional_of_ne_nil h, hspaced, trim_append (by decide) IsBlankRun.nil, trim_trim]

theorem endsWord_spaced (words : List (List Char)) : EndsWord (spaced words) := by
  cases words with
  | nil => simp [spaced, EndsWord]
  | cons w words =>
    intro c hc
    obtain rfl : ' ' = c := by simpa [spaced] using hc
    decide

theorem written_formatted {st : Statement} {cs : List Char} (h : Written st cs) :
    Written st (trim st.formatted) := by
  cases h with
  | blank => exact .blank
  | comment text =>
    have hwritten := Written.comment (trimEnd (spaced (optional (trim text))))
    rw [trim_trimEnd, trim_spaced_optional] at hwritten
    rw [formatted_comment, trim_cons _ (by decide)]
    exact hwritten
  | @action name text hname hword htext =>
    have hends := (endsWord_spaced (optional (trim text))).trimEnd
    have hwritten := Written.action hname hword hends
    rw [trim_trimEnd, trim_spaced_optional] at hwritten
    rw [formatted_action, trim_cons _ (by decide), trimEnd_word_append hword]
    exact hwritten
  | @path o f value text gap hf htext hgap =>
    have hwritten : Written (path o f value) (path o f value).formatted := by
      rw [formatted_path]
      exact .path hf (spaced_spaced f.words) (by decide)
    rw [hwritten.trim_path]
    exact hwritten

theorem mem_spaced {c : Char} {words : List (List Char)} (h : c ∈ spaced words) :
    c = ' ' ∨ ∃ w ∈ words, c ∈ w := by
  simp only [spaced, List.mem_flatMap, List.mem_cons] at h
  obtain ⟨w, hw, rfl | hc⟩ := h
  · exact .inl rfl
  · exact .inr ⟨w, hw, hc⟩

theorem not_mem_spaced_optional {c : Char} {text : List Char} (hspace : c ≠ ' ') (h : c ∉ text) :
    c ∉ spaced (optional text) := by
  intro hm
  rcases mem_spaced hm with hc | ⟨w, hw, hc⟩
  · exact hspace hc
  · unfold optional at hw
    split at hw
    · simp at hw
    · obtain rfl := List.mem_singleton.1 hw
      exact h hc

theorem not_mem_formatted_path {o : Operator} {f : PathFields} {value : List Char} (hf : f.IsValid)
    (hvalue : '\n' ∉ value) : '\n' ∉ (path o f value).formatted := by
  have hsymbol : '\n' ∉ o.symbol.toList := by
    cases o <;> decide
  have hwords : '\n' ∉ spaced f.words := by
    intro hm
    rcases mem_spaced hm with hc | ⟨w, hw, hc⟩
    · simp at hc
    · have := (PathFields.isFieldWord_of_mem hf w hw).1.2 _ hc
      exact absurd this (by decide)
  rw [formatted_path]
  simp [hsymbol, hwords, hvalue]

theorem not_mem_formatted {st : Statement} {cs : List Char} (h : Written st cs) (hcs : '\n' ∉ cs) :
    '\n' ∉ st.formatted := by
  cases h with
  | blank => simp [formatted, parts]
  | comment text =>
    have htext : '\n' ∉ trim text := fun hm => hcs (List.mem_cons_of_mem _ (mem_of_mem_trim hm))
    rw [formatted_comment]
    simp [not_mem_spaced_optional (by decide) htext]
  | @action name text hname hword htext =>
    have htext : '\n' ∉ trim text := fun hm =>
      hcs (List.mem_cons_of_mem _ (List.mem_append_right _ (mem_of_mem_trim hm)))
    have hname : '\n' ∉ name := fun hm => hcs (List.mem_cons_of_mem _ (List.mem_append_left _ hm))
    rw [formatted_action]
    simp [not_mem_spaced_optional (by decide) htext, hname]
  | @path o f value text gap hf htext hgap =>
    have hvalue : '\n' ∉ value := fun hm => hcs (by simp [hm])
    exact not_mem_formatted_path hf hvalue

theorem isBlank_getLast_append {w : List Char} (hw : ∀ c ∈ w.getLast?, isBlank c = false)
    (text : List Char) :
    ∀ c ∈ (w ++ spaced (optional (trim text))).getLast?, isBlank c = false := by
  by_cases htext : trim text = []
  · rw [htext, spaced_optional_nil, List.append_nil]
    exact hw
  · obtain ⟨c, cs, htrim⟩ := List.exists_cons_of_ne_nil htext
    have hlast : (w ++ ' ' :: trim text).getLast? = (trim text).getLast? := by
      simp [htrim, List.getLast?_cons]
    rw [spaced_optional_of_ne_nil htext, hlast]
    exact isBlank_getLast_trimEnd (trimStart text)

theorem isBlank_getLast_formatted {st : Statement} {cs : List Char} (h : Written st cs) :
    ∀ c ∈ st.formatted.getLast?, isBlank c = false := by
  cases h with
  | blank => simp [formatted, parts]
  | comment text =>
    rw [formatted_comment]
    exact isBlank_getLast_append (w := ['#']) (by simp; decide) text
  | @action name text hname hword htext =>
    have hlast : ∀ c ∈ ('@' :: name).getLast?, isBlank c = false := by
      intro c hc
      rcases List.mem_cons.1 (List.mem_of_getLast? hc) with rfl | hc
      · decide
      · exact hword c hc
    rw [formatted_action, ← List.cons_append]
    exact isBlank_getLast_append hlast text
  | @path o f value text gap hf htext hgap =>
    have hconcat : (path o f value).formatted =
        o.symbol.toList ++ (spaced f.words ++ ([' '] ++ '"' :: value)) ++ ['"'] := by
      rw [formatted_path]
      simp
    rw [hconcat, List.getLast?_concat]
    simp
    decide

theorem byteLength_spaced_le {words : List (List Char)} {text : List Char} (h : Spaced words text) :
    byteLength (spaced words) ≤ byteLength text := by
  induction h with
  | nil => simp [spaced]
  | @cons gap w text words hgap _ ih =>
    have hcons : spaced (w :: words) = ' ' :: (w ++ spaced words) := by simp [spaced]
    have hspace : ' '.utf8Size = 1 := rfl
    have := one_le_byteLength hgap.1
    rw [hcons, byteLength_cons, byteLength_append, byteLength_append, byteLength_append]
    omega

theorem byteLength_spaced_optional_le {text : List Char} (h : EndsWord text) :
    byteLength (spaced (optional (trim text))) ≤ byteLength text := by
  by_cases htext : trim text = []
  · rw [htext, spaced_optional_nil]
    exact Nat.zero_le _
  · have hspace : ' '.utf8Size = 1 := rfl
    cases text with
    | nil => exact absurd rfl htext
    | cons b text =>
      have hb : IsBlankRun [b] := by
        intro c hc
        obtain rfl := List.mem_singleton.1 hc
        exact h c rfl
      have htrim : trim (b :: text) = trim text := by
        rw [trim, trim, ← List.singleton_append, trimStart_append hb]
      have := byteLength_trim_le text
      have := b.utf8Size_pos
      rw [spaced_optional_of_ne_nil htext, htrim, byteLength_cons, byteLength_cons]
      omega

def IsGlued (cs : List Char) : Prop :=
  ∃ text, cs = '#' :: text ∧ ¬EndsWord text

instance : DecidablePred IsGlued
  | [] => isFalse (by simp [IsGlued])
  | c :: text =>
    decidable_of_iff (c = '#' ∧ ¬EndsWord text) (by simp [IsGlued, and_assoc])

theorem byteLength_formatted_le {st : Statement} {cs : List Char} (h : Written st cs)
    (hglued : ¬IsGlued cs) : byteLength st.formatted ≤ byteLength cs := by
  cases h with
  | blank => simp [formatted, parts]
  | comment text =>
    have htext : EndsWord text := by
      by_contra hnot
      exact hglued ⟨text, rfl, hnot⟩
    have := byteLength_spaced_optional_le htext
    rw [formatted_comment, byteLength_cons, byteLength_cons]
    omega
  | @action name text hname hword htext =>
    have := byteLength_spaced_optional_le htext
    rw [formatted_action, byteLength_cons, byteLength_cons, byteLength_append, byteLength_append]
    omega
  | @path o f value text gap hf htext hgap =>
    have hwords := byteLength_spaced_le htext
    have hspace : byteLength [' '] = 1 := by decide
    have := one_le_byteLength hgap.1
    rw [formatted_path]
    simp only [byteLength_append]
    omega

theorem byteLength_formatted_of_isGlued {st : Statement} {cs : List Char} (h : Written st cs)
    (htrim : trim cs = cs) (hglued : IsGlued cs) :
    byteLength st.formatted = byteLength cs + 1 := by
  obtain ⟨_, hcs, hnot⟩ := hglued
  cases h with
  | blank => simp at hcs
  | comment text =>
    obtain rfl := (List.cons.inj hcs).2
    cases text with
    | nil => simp [EndsWord] at hnot
    | cons c text =>
      have hc : isBlank c = false := by simpa [EndsWord] using hnot
      have htext : trim (c :: text) = c :: text := by
        rw [trim_cons _ (by decide)] at htrim
        rw [trim, trimStart_cons hc]
        exact (List.cons.inj htrim).2
      have hspace : ' '.utf8Size = 1 := rfl
      rw [formatted_comment, htext, spaced_optional_of_ne_nil (List.cons_ne_nil c text)]
      simp only [byteLength_cons]
      omega
  | action hname hword htext => simp at hcs
  | @path o f value text gap hf htext hgap =>
    cases o with
    | returns => exact absurd (List.cons.inj hcs).1 (by decide)
    | throws => exact absurd (List.cons.inj hcs).1 (by decide)

end Statement

end PlatformRules
