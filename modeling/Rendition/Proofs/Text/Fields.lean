import Rendition.Text.Fields

/-!
# Cutting and joining

The fields of a text are what the library's `List.splitOnP` cuts it into, so cutting and
joining undo each other: the fields, joined by the mark at which they were cut, are the text
(`intercalate_fields`), and parts without the mark are the fields of what they are joined to
(`fields_intercalate`).  At a separator the fields of a text are those of its two sides
(`fields_append_cons`), and so are its words, of which separators are no part, however many stand
side by side (`words_append_gap`).

An ending without the mark belongs to the last of the joined parts (`suffix_append_cons_iff`).
-/

namespace Rendition.Text

variable {isSeparator : Char → Bool}

theorem fields_eq_splitOnP (isSeparator : Char → Bool) (text : List Char) :
    fields isSeparator text = text.splitOnP isSeparator := by
  induction text with
  | nil => rfl
  | cons c rest ih =>
    rw [fields, List.splitOnP_cons_eq_if_modifyHead, ih]
    split
    · rfl
    · cases hfields : rest.splitOnP isSeparator with
      | nil => exact absurd hfields (List.splitOnP_ne_nil _ _)
      | cons field others => rfl

theorem fields_ne_nil (isSeparator : Char → Bool) (text : List Char) :
    fields isSeparator text ≠ [] := by
  rw [fields_eq_splitOnP]
  exact List.splitOnP_ne_nil _ _

/-- **A separator parts the fields.** -/
theorem fields_append_cons {c : Char} (hc : isSeparator c) (before after : List Char) :
    fields isSeparator (before ++ c :: after) =
      fields isSeparator before ++ fields isSeparator after := by
  simp only [fields_eq_splitOnP]
  exact List.splitOnP_append_cons before after hc

/-- No separator stands in a field. -/
theorem isSeparator_of_mem_fields {text field : List Char} (h : field ∈ fields isSeparator text) :
    ∀ c ∈ field, isSeparator c = false := by
  induction text generalizing field with
  | nil =>
    rw [fields, List.mem_singleton] at h
    subst h
    simp
  | cons c rest ih =>
    rw [fields] at h
    split at h
    · rcases List.mem_cons.mp h with rfl | hrest
      · simp
      · exact ih hrest
    · rename_i hc
      cases hfields : fields isSeparator rest with
      | nil => exact absurd hfields (fields_ne_nil _ _)
      | cons first others =>
        simp only [hfields] at h ih
        rcases List.mem_cons.mp h with rfl | hothers
        · rw [List.forall_mem_cons]
          exact ⟨eq_false_of_ne_true hc, ih List.mem_cons_self⟩
        · exact ih (List.mem_cons_of_mem first hothers)

/-- A field has no characters but those of the text. -/
theorem subset_of_mem_fields {text field : List Char} (h : field ∈ fields isSeparator text) :
    field ⊆ text := by
  induction text generalizing field with
  | nil =>
    obtain rfl := List.mem_singleton.mp h
    exact List.Subset.refl []
  | cons c rest ih =>
    rw [fields] at h
    split at h
    · rcases List.mem_cons.mp h with rfl | hrest
      · exact List.nil_subset _
      · exact List.subset_cons_of_subset c (ih hrest)
    · cases hfields : fields isSeparator rest with
      | nil => exact absurd hfields (fields_ne_nil _ _)
      | cons first others =>
        rw [hfields] at h ih
        rcases List.mem_cons.mp h with rfl | hothers
        · exact List.cons_subset_cons c (ih List.mem_cons_self)
        · exact List.subset_cons_of_subset c (ih (List.mem_cons_of_mem first hothers))

theorem mem_words {text word : List Char} :
    word ∈ words isSeparator text ↔ word ∈ fields isSeparator text ∧ word ≠ [] := by
  rw [words, List.mem_filter, Bool.not_eq_true', List.isEmpty_eq_false_iff]

/-- A separator parts the words. -/
theorem words_append_cons {c : Char} (hc : isSeparator c) (before after : List Char) :
    words isSeparator (before ++ c :: after) =
      words isSeparator before ++ words isSeparator after := by
  rw [words, fields_append_cons hc, List.filter_append, words, words]

/-! ## Gaps between words -/

/-- A text without separators is one word. -/
theorem words_eq_singleton {word : List Char} (hne : word ≠ [])
    (hword : ∀ c ∈ word, isSeparator c = false) : words isSeparator word = [word] := by
  rw [words, fields_eq_splitOnP, List.splitOnP_eq_singleton hword]
  simp [hne]

/-- Separators in front of a text belong to no word. -/
theorem words_separators_append {gap : List Char} (hgap : ∀ c ∈ gap, isSeparator c)
    (text : List Char) : words isSeparator (gap ++ text) = words isSeparator text := by
  induction gap with
  | nil => rfl
  | cons c gap ih =>
    obtain ⟨hc, hrest⟩ := List.forall_mem_cons.mp hgap
    have hcut := words_append_cons hc [] (gap ++ text)
    rw [List.nil_append] at hcut
    rw [List.cons_append, hcut, ih hrest]
    rfl

/-- **A gap parts the words**, however long it is. -/
theorem words_append_gap {gap : List Char} (hne : gap ≠ []) (hgap : ∀ c ∈ gap, isSeparator c)
    (before after : List Char) :
    words isSeparator (before ++ gap ++ after) =
      words isSeparator before ++ words isSeparator after := by
  obtain ⟨c, rest, rfl⟩ := List.exists_cons_of_ne_nil hne
  obtain ⟨hc, hrest⟩ := List.forall_mem_cons.mp hgap
  rw [List.append_assoc, List.cons_append, words_append_cons hc, words_separators_append hrest]

/-- Separators behind a text belong to no word. -/
theorem words_append_separators {gap : List Char} (hgap : ∀ c ∈ gap, isSeparator c)
    (text : List Char) : words isSeparator (text ++ gap) = words isSeparator text := by
  by_cases hne : gap = []
  · rw [hne, List.append_nil]
  · have hcut := words_append_gap hne hgap text []
    rw [List.append_nil] at hcut
    rw [hcut]
    exact List.append_nil _

/-- Words with gaps in front of them are the words of what comes next. -/
theorem words_append_flatMap {α : Type} {gap word : α → List Char} {entries : List α}
    (hgaps : ∀ entry ∈ entries, gap entry ≠ [] ∧ ∀ c ∈ gap entry, isSeparator c)
    (hwords : ∀ entry ∈ entries, word entry ≠ [] ∧ ∀ c ∈ word entry, isSeparator c = false)
    (before : List Char) :
    words isSeparator (before ++ entries.flatMap fun entry => gap entry ++ word entry) =
      words isSeparator before ++ entries.map word := by
  induction entries generalizing before with
  | nil => simp only [List.flatMap_nil, List.append_nil, List.map_nil]
  | cons entry rest ih =>
    obtain ⟨⟨hgapNe, hgap⟩, hgapsRest⟩ := List.forall_mem_cons.mp hgaps
    obtain ⟨⟨hwordNe, hword⟩, hwordsRest⟩ := List.forall_mem_cons.mp hwords
    have hfirst : words isSeparator (before ++ gap entry ++ word entry) =
        words isSeparator before ++ [word entry] := by
      rw [words_append_gap hgapNe hgap, words_eq_singleton hwordNe hword]
    rw [List.flatMap_cons, ← List.append_assoc, ← List.append_assoc, ih hgapsRest hwordsRest,
      hfirst, List.append_assoc]
    rfl

/-! ## Joining by a mark -/

variable {mark : Char}

theorem fields_eq_splitOn (mark : Char) (text : List Char) :
    fields (· = mark) text = text.splitOn mark := by
  rw [fields_eq_splitOnP, List.splitOn_eq_splitOnP]
  rfl

/-- **Joining undoes cutting.** -/
theorem intercalate_fields (mark : Char) (text : List Char) :
    [mark].intercalate (fields (· = mark) text) = text := by
  rw [fields_eq_splitOn, List.intercalate_splitOn]

theorem notMem_of_mem_fields {text field : List Char} (h : field ∈ fields (· = mark) text) :
    mark ∉ field :=
  fun hmem => of_decide_eq_false (isSeparator_of_mem_fields h mark hmem) rfl

/-- **Cutting undoes joining**, if the mark stands in none of the parts. -/
theorem fields_intercalate {parts : List (List Char)} (hparts : ∀ part ∈ parts, mark ∉ part)
    (hne : parts ≠ []) : fields (· = mark) ([mark].intercalate parts) = parts := by
  rw [fields_eq_splitOn, List.splitOn_intercalate mark hparts hne]

/-- Parts that are not empty are the words of what they are joined to. -/
theorem words_intercalate {parts : List (List Char)}
    (hparts : ∀ part ∈ parts, part ≠ [] ∧ mark ∉ part) :
    words (· = mark) ([mark].intercalate parts) = parts := by
  cases parts with
  | nil => rfl
  | cons part others =>
    rw [words, fields_intercalate (fun part hpart => (hparts part hpart).2) (List.cons_ne_nil _ _),
      List.filter_eq_self]
    intro part hpart
    simpa using (hparts part hpart).1

/-- **A mark in a joined text parts its parts.** -/
theorem fields_append_of_intercalate {parts : List (List Char)} {before after : List Char}
    (hparts : ∀ part ∈ parts, mark ∉ part)
    (h : [mark].intercalate parts = before ++ mark :: after) :
    parts = fields (· = mark) before ++ fields (· = mark) after := by
  have hne : parts ≠ [] := by
    rintro rfl
    cases before <;> cases h
  rw [← fields_append_cons (decide_eq_true rfl), ← h, fields_intercalate hparts hne]

/-- Parts that are not empty are joined with no mark in front. -/
theorem head?_intercalate_ne {parts : List (List Char)}
    (hparts : ∀ part ∈ parts, part ≠ [] ∧ mark ∉ part) :
    ([mark].intercalate parts).head? ≠ some mark := by
  intro hhead
  obtain ⟨rest, hrest⟩ := List.head?_eq_some_iff.mp hhead
  rw [← List.nil_append (mark :: rest)] at hrest
  have hcut := fields_append_of_intercalate (fun part hpart => (hparts part hpart).2) hrest
  exact (hparts [] (hcut ▸ List.mem_append_left _ List.mem_cons_self)).1 rfl

/-- Nor with one behind. -/
theorem getLast?_intercalate_ne {parts : List (List Char)}
    (hparts : ∀ part ∈ parts, part ≠ [] ∧ mark ∉ part) :
    ([mark].intercalate parts).getLast? ≠ some mark := by
  intro hlast
  obtain ⟨front, hfront⟩ := List.getLast?_eq_some_iff.mp hlast
  have hcut := fields_append_of_intercalate (fun part hpart => (hparts part hpart).2) hfront
  exact (hparts [] (hcut ▸ List.mem_append_right _ List.mem_cons_self)).1 rfl

/-- Nor with two of them side by side. -/
theorem not_infix_intercalate {parts : List (List Char)}
    (hparts : ∀ part ∈ parts, part ≠ [] ∧ mark ∉ part) :
    ¬ [mark, mark] <:+: [mark].intercalate parts := by
  rintro ⟨before, after, h⟩
  rw [List.append_assoc, List.cons_append, List.cons_append, List.nil_append] at h
  have hcut := fields_append_of_intercalate (fun part hpart => (hparts part hpart).2) h.symm
  have hempty : [] ∈ fields (· = mark) (mark :: after) := by
    rw [fields, if_pos (decide_eq_true rfl)]
    exact List.mem_cons_self
  exact (hparts [] (hcut ▸ List.mem_append_right _ hempty)).1 rfl

/-- The last of several parts stands behind a mark. -/
theorem intercalate_concat {front : List (List Char)} (hne : front ≠ []) (last : List Char) :
    [mark].intercalate (front ++ [last]) = [mark].intercalate front ++ mark :: last := by
  induction front with
  | nil => exact absurd rfl hne
  | cons first others ih =>
    cases others with
    | nil => simp only [List.cons_append, List.nil_append, List.intercalate_cons_cons,
        List.intercalate_singleton, List.append_assoc]
    | cons second others =>
      rw [List.cons_append, List.intercalate_cons_of_ne_nil (by simp), ih (List.cons_ne_nil _ _),
        List.intercalate_cons_of_ne_nil (List.cons_ne_nil _ _)]
      simp only [List.append_assoc]

/-- A joined text has the characters of its parts, and the mark. -/
theorem mem_of_mem_intercalate {parts : List (List Char)} {c : Char}
    (h : c ∈ [mark].intercalate parts) : c = mark ∨ ∃ part ∈ parts, c ∈ part := by
  induction parts with
  | nil => cases h
  | cons first others ih =>
    by_cases hothers : others = []
    · rw [hothers, List.intercalate_singleton] at h
      exact Or.inr ⟨first, List.mem_cons_self, h⟩
    · rw [List.intercalate_cons_of_ne_nil hothers, List.mem_append, List.mem_append,
        List.mem_singleton] at h
      rcases h with (hfirst | hmark) | hrest
      · exact Or.inr ⟨first, List.mem_cons_self, hfirst⟩
      · exact Or.inl hmark
      · exact (ih hrest).imp_right fun ⟨part, hpart, hc⟩ =>
          ⟨part, List.mem_cons_of_mem first hpart, hc⟩

/-- What ends the last part ends the whole. -/
theorem intercalate_concat_append (front : List (List Char)) (last tail : List Char) :
    [mark].intercalate (front ++ [last ++ tail]) =
      [mark].intercalate (front ++ [last]) ++ tail := by
  cases front with
  | nil => simp only [List.nil_append, List.intercalate_singleton]
  | cons first others =>
    rw [intercalate_concat (List.cons_ne_nil _ _), intercalate_concat (List.cons_ne_nil _ _),
      List.append_assoc, List.cons_append]

/-! ## Beginnings and endings -/

/-- What stands in front of the first mark. -/
theorem takeWhile_append_cons {front : List Char} (h : mark ∉ front) (rest : List Char) :
    (front ++ mark :: rest).takeWhile (· ≠ mark) = front := by
  have hfront : ∀ c ∈ front, decide (c ≠ mark) = true := fun c hc =>
    decide_eq_true fun heq => h (heq ▸ hc)
  rw [List.takeWhile_append_of_pos hfront, List.takeWhile_cons_of_neg (by simp), List.append_nil]

theorem dropTail?_eq_some_iff {tail text front : List Char} :
    dropTail? tail text = some front ↔ text = front ++ tail := by
  unfold dropTail?
  constructor
  · intro h
    split at h
    · rename_i hsuffix
      obtain ⟨start, rfl⟩ := List.isSuffixOf_iff_suffix.mp hsuffix
      rw [← Option.some.inj h, List.length_append, Nat.add_sub_cancel, List.take_left]
    · cases h
  · rintro rfl
    rw [if_pos (List.isSuffixOf_iff_suffix.mpr (List.suffix_append front tail)),
      List.length_append, Nat.add_sub_cancel, List.take_left]

/-- The first mark is where a text is cut. -/
theorem cutFirst?_append_cons {front : List Char} (h : mark ∉ front) (rest : List Char) :
    cutFirst? mark (front ++ mark :: rest) = some (front, rest) := by
  have hfront : ∀ c ∈ front, decide (c ≠ mark) = true := fun c hc =>
    decide_eq_true fun heq => h (heq ▸ hc)
  rw [cutFirst?, takeWhile_append_cons h, List.dropWhile_append_of_pos hfront,
    List.dropWhile_cons_of_neg (by simp)]

theorem cutFirst?_of_notMem {text : List Char} (h : mark ∉ text) :
    cutFirst? mark text = none := by
  have htext : ∀ c ∈ text, decide (c ≠ mark) = true := fun c hc =>
    decide_eq_true fun heq => h (heq ▸ hc)
  have hdrop : (text ++ []).dropWhile (· ≠ mark) = [] := List.dropWhile_append_of_pos htext
  rw [List.append_nil] at hdrop
  rw [cutFirst?, hdrop]

/-- What is stripped off a text stands at its ends. -/
theorem exists_append_strip (p : Char → Bool) (text : List Char) :
    ∃ front back, text = front ++ strip p text ++ back ∧ (∀ c ∈ front, p c) ∧
      ∀ c ∈ back, p c := by
  let inner := text.dropWhile p
  refine ⟨text.takeWhile p, (inner.reverse.takeWhile p).reverse, ?_, ?_, ?_⟩
  · have hinner : (inner.reverse.dropWhile p).reverse ++ (inner.reverse.takeWhile p).reverse =
        inner := by
      rw [← List.reverse_append, List.takeWhile_append_dropWhile, List.reverse_reverse]
    rw [List.append_assoc, strip, dropRightWhile, hinner, List.takeWhile_append_dropWhile]
  · exact fun c hc => List.all_eq_true.mp List.all_takeWhile c hc
  · exact fun c hc => List.all_eq_true.mp List.all_takeWhile c (List.mem_reverse.mp hc)

/-- Nothing is stripped off a text that is empty or begins and ends with what stays. -/
theorem strip_eq_self {p : Char → Bool} {text : List Char}
    (hhead : ∀ c ∈ text.head?, p c = false) (hlast : ∀ c ∈ text.getLast?, p c = false) :
    strip p text = text := by
  have hdrop : ∀ {text : List Char}, (∀ c ∈ text.head?, p c = false) →
      text.dropWhile p = text := by
    intro text hhead
    cases text with
    | nil => rfl
    | cons c rest => exact List.dropWhile_cons_of_neg (by simp [hhead c rfl])
  have hback : ∀ c ∈ text.reverse.head?, p c = false := by rwa [List.head?_reverse]
  rw [strip, dropRightWhile, hdrop hhead, hdrop hback, List.reverse_reverse]

/-- What encloses such a text is stripped off. -/
theorem strip_enclosed {p : Char → Bool} {c : Char} (hc : p c) {text : List Char}
    (hhead : ∀ c ∈ text.head?, p c = false) (hlast : ∀ c ∈ text.getLast?, p c = false) :
    strip p (c :: text ++ [c]) = text := by
  have hback : ∀ text : List Char, dropRightWhile p (text ++ [c]) = dropRightWhile p text := by
    intro text
    rw [dropRightWhile, dropRightWhile, List.reverse_append, List.reverse_singleton,
      List.singleton_append, List.dropWhile_cons_of_pos hc]
  have hself := strip_eq_self hhead hlast
  rw [strip] at hself ⊢
  rw [List.cons_append, List.dropWhile_cons_of_pos hc]
  cases text with
  | nil => rw [List.nil_append, List.dropWhile_cons_of_pos hc]; rfl
  | cons first rest =>
    have hfirst : ¬ p first = true := by simp [hhead first rfl]
    rw [List.cons_append, List.dropWhile_cons_of_neg hfirst, ← List.cons_append, hback]
    rwa [List.dropWhile_cons_of_neg hfirst] at hself

/-- A mark that does not come again behind it cuts a list in one way only. -/
theorem append_mark_inj {α : Type} {mark : α} {first second rest rest' : List α}
    (h : first ++ mark :: rest = second ++ mark :: rest') (hrest : mark ∉ rest)
    (hrest' : mark ∉ rest') : first = second ∧ rest = rest' := by
  rcases List.append_eq_append_iff.mp h with ⟨more, rfl, hmore⟩ | ⟨more, rfl, hmore⟩
  · cases more with
    | nil => exact ⟨(List.append_nil first).symm, (List.cons.inj hmore).2⟩
    | cons head more =>
      obtain ⟨-, rfl⟩ := List.cons.inj hmore
      exact absurd (List.mem_append_right more List.mem_cons_self) hrest
  · cases more with
    | nil => exact ⟨List.append_nil second, (List.cons.inj hmore).2.symm⟩
    | cons head more =>
      obtain ⟨-, rfl⟩ := List.cons.inj hmore
      exact absurd (List.mem_append_right more List.mem_cons_self) hrest'

/-- What is left without an ending is a beginning. -/
theorem prefix_getD_dropTail? (tail text : List Char) :
    (dropTail? tail text).getD text <+: text := by
  cases hfront : dropTail? tail text with
  | none => exact List.prefix_rfl
  | some front =>
    rw [dropTail?_eq_some_iff.mp hfront]
    exact List.prefix_append front tail

/-- An ending without the mark stands behind the mark. -/
theorem suffix_append_cons_iff {front last tail : List Char} (h : mark ∉ tail) :
    tail <:+ front ++ mark :: last ↔ tail <:+ last := by
  constructor
  · intro htail
    have hlast : mark :: last <:+ front ++ mark :: last := List.suffix_append _ _
    rcases List.suffix_or_suffix_of_suffix htail hlast with hshort | hlong
    · rcases List.suffix_cons_iff.mp hshort with rfl | hshort
      · exact absurd List.mem_cons_self h
      · exact hshort
    · exact absurd (hlong.subset List.mem_cons_self) h
  · intro htail
    exact (htail.trans (List.suffix_cons mark last)).trans (List.suffix_append _ _)

theorem suffix_cons_iff_of_notMem {last tail : List Char} (h : mark ∉ tail) :
    tail <:+ mark :: last ↔ tail <:+ last := by
  rw [← List.nil_append (mark :: last), suffix_append_cons_iff h]

/-- So it belongs to the last of the parts. -/
theorem suffix_intercalate_concat_iff {front : List (List Char)} {last tail : List Char}
    (h : mark ∉ tail) : tail <:+ [mark].intercalate (front ++ [last]) ↔ tail <:+ last := by
  cases front with
  | nil => rw [List.nil_append, List.intercalate_singleton]
  | cons first others =>
    rw [intercalate_concat (List.cons_ne_nil _ _), suffix_append_cons_iff h]

end Rendition.Text
