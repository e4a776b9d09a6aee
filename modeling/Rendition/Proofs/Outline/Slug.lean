import Rendition.Outline.Slug
import Rendition.Proofs.Text.Fields

/-!
# What the slug of a text is

The slug is written in one scan, which remembers nothing but whether it has just put down a dash.
Said without the scan, the characters that leave no trace are taken out first, what is left is cut
at its separators, and of the pieces those that are not empty are joined by dashes (`Slug.pieces`).

The scan agrees with this from wherever it has got to, in one of two ways (`Slug.scan_spec`).
Behind a dash the pieces of the rest follow, as they do at the start of a text.  Behind a letter or
digit the first of them is the rest of a word that has begun, and it may be empty
(`Slug.piecesInWord`).  Either way at most one dash too many is written, and that at the very end.
-/

namespace Rendition

namespace Slug

/-- Whether slugs keep a trace of the character. -/
def isKept (c : Char) : Bool :=
  c.isAlphanum || isSeparator c

/-- The words of a text, as they stand in its slug. -/
def pieces (text : List Char) : List (List Char) :=
  (Text.words isSeparator (text.filter isKept)).map (·.map Char.toLower)

/-- The character is a small letter or a digit. -/
def IsPlain (c : Char) : Prop :=
  c.isLower ∨ c.isDigit

instance (c : Char) : Decidable (IsPlain c) :=
  inferInstanceAs (Decidable (_ ∨ _))

/-- What slugs look like: small letters and digits with dashes between them, none at either end
and no two side by side. -/
structure IsShaped (slug : List Char) : Prop where
  chars : ∀ c ∈ slug, IsPlain c ∨ c = '-'
  head : slug.head? ≠ some '-'
  last : slug.getLast? ≠ some '-'
  apart : ¬ ['-', '-'] <:+: slug

/-! ## Characters -/

theorem isPlain_iff {c : Char} :
    IsPlain c ↔ (97 ≤ c.toNat ∧ c.toNat ≤ 122) ∨ (48 ≤ c.toNat ∧ c.toNat ≤ 57) := by
  have hrange : ∀ low high : UInt32, (decide (low ≤ c.val) && decide (c.val ≤ high)) = true ↔
      low.toNat ≤ c.toNat ∧ c.toNat ≤ high.toNat := by
    intro low high
    rw [Bool.and_eq_true, decide_eq_true_iff, decide_eq_true_iff, UInt32.le_iff_toNat_le,
      UInt32.le_iff_toNat_le]
    rfl
  exact or_congr (hrange 97 122) (hrange 48 57)

theorem isAlphanum_iff {c : Char} :
    c.isAlphanum ↔ (65 ≤ c.toNat ∧ c.toNat ≤ 90) ∨ IsPlain c := by
  have hupper : c.isUpper ↔ 65 ≤ c.toNat ∧ c.toNat ≤ 90 :=
    decide_eq_true_iff.trans (and_congr UInt32.le_iff_toNat_le UInt32.le_iff_toNat_le)
  calc c.isAlphanum ↔ ((c.isUpper || c.isLower) || c.isDigit) = true := Iff.rfl
    _ ↔ c.isUpper ∨ IsPlain c := by rw [Bool.or_eq_true, Bool.or_eq_true, or_assoc]; rfl
    _ ↔ (65 ≤ c.toNat ∧ c.toNat ≤ 90) ∨ IsPlain c := or_congr_left hupper

theorem toNat_toLower (c : Char) :
    c.toLower.toNat = if 65 ≤ c.toNat ∧ c.toNat ≤ 90 then c.toNat + 32 else c.toNat := by
  unfold Char.toLower
  simp only [ge_iff_le, UInt32.le_iff_toNat_le, Char.toNat_val]
  change (if h : 65 ≤ c.toNat ∧ c.toNat ≤ 90 then _ else c).toNat = _
  split
  · change (c.val + 32).toNat = _
    have hlimit : c.toNat + 32 < 2 ^ 32 := by omega
    rw [UInt32.toNat_add, Char.toNat_val]
    exact Nat.mod_eq_of_lt hlimit
  · rfl

theorem isPlain_toLower {c : Char} (h : c.isAlphanum) : IsPlain c.toLower := by
  rw [isAlphanum_iff, isPlain_iff] at h
  rw [isPlain_iff, toNat_toLower]
  split <;> omega

theorem toLower_of_isPlain {c : Char} (h : IsPlain c) : c.toLower = c := by
  rw [isPlain_iff] at h
  rw [← Char.toNat_inj, toNat_toLower, if_neg (by omega)]

theorem isSeparator_of_isAlphanum {c : Char} (h : c.isAlphanum) : isSeparator c = false := by
  rw [isAlphanum_iff, isPlain_iff] at h
  have hne : ∀ mark : Char, mark.toNat = 45 ∨ mark.toNat = 95 → c ≠ mark := by
    rintro mark hmark rfl
    omega
  have hwhite : Text.isWhite c = false := by
    simp only [Text.isWhite, Text.whiteRanges, List.any_cons, List.any_nil, Bool.or_eq_false_iff,
      Bool.and_eq_false_iff, decide_eq_false_iff_not, and_true]
    omega
  simp [isSeparator, hwhite, hne '-' (Or.inl rfl), hne '_' (Or.inr rfl)]

theorem isWhite_of_isPlain {c : Char} (h : IsPlain c) : Text.isWhite c = false := by
  have hnot := isSeparator_of_isAlphanum (isAlphanum_iff.mpr (Or.inr h))
  simp only [isSeparator, Bool.or_eq_false_iff] at hnot
  exact hnot.1.1

/-! ## Pieces -/

variable {c : Char}

/-- The pieces of a text in front of which a word has begun: the first is the rest of that word,
and may be empty. -/
def piecesInWord (text : List Char) : List (List Char) :=
  match Text.fields isSeparator (text.filter isKept) with
  | [] => []
  | first :: others =>
    first.map Char.toLower :: (others.filter (!·.isEmpty)).map (·.map Char.toLower)

theorem piecesInWord_ne_nil (text : List Char) : piecesInWord text ≠ [] := by
  unfold piecesInWord
  split
  · exact fun _ => Text.fields_ne_nil _ _ ‹_›
  · exact List.cons_ne_nil _ _

/-- A letter or digit begins a word. -/
theorem pieces_cons_of_isAlphanum (h : c.isAlphanum) (rest : List Char) :
    pieces (c :: rest) = piecesInWord (c :: rest) := by
  have hkept : isKept c = true := by simp [isKept, h]
  unfold pieces piecesInWord Text.words
  rw [List.filter_cons_of_pos hkept, Text.fields, isSeparator_of_isAlphanum h]
  cases hfields : Text.fields isSeparator (rest.filter isKept) with
  | nil => exact absurd hfields (Text.fields_ne_nil _ _)
  | cons first others => rfl

/-- It is part of a word that has begun. -/
theorem piecesInWord_cons_of_isAlphanum (h : c.isAlphanum) (rest : List Char) :
    piecesInWord (c :: rest) = (piecesInWord rest).modifyHead (c.toLower :: ·) := by
  have hkept : isKept c = true := by simp [isKept, h]
  unfold piecesInWord
  rw [List.filter_cons_of_pos hkept, Text.fields, isSeparator_of_isAlphanum h]
  cases hfields : Text.fields isSeparator (rest.filter isKept) with
  | nil => exact absurd hfields (Text.fields_ne_nil _ _)
  | cons first others => rfl

/-- A separator is part of no word, and ends one that has begun. -/
theorem pieces_cons_of_isSeparator (h : isSeparator c) (rest : List Char) :
    pieces (c :: rest) = pieces rest ∧ piecesInWord (c :: rest) = [] :: pieces rest := by
  have hkept : isKept c = true := by simp [isKept, h]
  unfold pieces piecesInWord Text.words
  rw [List.filter_cons_of_pos hkept, Text.fields, if_pos h]
  exact ⟨rfl, rfl⟩

/-- Any other character leaves no trace. -/
theorem pieces_cons_of_not_isKept (h : isKept c = false) (rest : List Char) :
    pieces (c :: rest) = pieces rest ∧ piecesInWord (c :: rest) = piecesInWord rest := by
  unfold pieces piecesInWord
  rw [List.filter_cons_of_neg (by simp [h])]
  exact ⟨rfl, rfl⟩

/-- The pieces are made of small letters and digits, and none is empty. -/
theorem mem_pieces {text piece : List Char} (h : piece ∈ pieces text) :
    piece ≠ [] ∧ ∀ c ∈ piece, IsPlain c := by
  obtain ⟨word, hword, rfl⟩ := List.mem_map.mp h
  obtain ⟨hfield, hne⟩ := Text.mem_words.mp hword
  refine ⟨fun hnil => hne (List.map_eq_nil_iff.mp hnil), fun c hc => ?_⟩
  obtain ⟨original, hmem, rfl⟩ := List.mem_map.mp hc
  have hkept : isKept original = true :=
    (List.mem_filter.mp (Text.subset_of_mem_fields hfield hmem)).2
  rw [isKept, Text.isSeparator_of_mem_fields hfield original hmem, Bool.or_false] at hkept
  exact isPlain_toLower hkept

theorem dash_notMem_pieces {text piece : List Char} (h : piece ∈ pieces text) :
    piece ≠ [] ∧ '-' ∉ piece := by
  obtain ⟨hne, hplain⟩ := mem_pieces h
  have hdash : ¬ IsPlain '-' := by decide
  exact ⟨hne, fun hmem => hdash (hplain '-' hmem)⟩

/-- White space at the ends of a text is part of no piece. -/
theorem pieces_trimWhite (text : List Char) : pieces (Text.trimWhite text) = pieces text := by
  have hgap : ∀ {gap : List Char}, (∀ c ∈ gap, Text.isWhite c) →
      ∀ c ∈ gap.filter isKept, isSeparator c := by
    intro gap hgap c hc
    have hwhite := hgap c (List.mem_filter.mp hc).1
    simp [isSeparator, hwhite]
  obtain ⟨front, back, htext, hfront, hback⟩ := Text.exists_append_strip Text.isWhite text
  calc pieces (Text.trimWhite text)
      = pieces (front ++ Text.trimWhite text ++ back) := by
        rw [pieces, pieces, List.filter_append, List.filter_append,
          Text.words_append_separators (hgap hback), Text.words_separators_append (hgap hfront)]
    _ = pieces text := congrArg pieces htext.symm

/-! ## The scan -/

/-- What is written is what is joined, or has one dash more at its end. -/
def Trails (joined written : List Char) : Prop :=
  written = joined ∨ written = joined ++ ['-']

theorem Trails.cons {joined written : List Char} (h : Trails joined written) (c : Char) :
    Trails (c :: joined) (c :: written) := by
  rcases h with rfl | rfl
  · exact Or.inl rfl
  · exact Or.inr rfl

/-- That dash is dropped. -/
theorem Trails.dropFinalDash {joined written : List Char} (h : Trails joined written)
    (hlast : joined.getLast? ≠ some '-') : dropFinalDash written = joined := by
  unfold Slug.dropFinalDash
  rcases h with rfl | rfl
  · cases hdrop : Text.dropTail? ['-'] written with
    | none => rfl
    | some front =>
      rw [Text.dropTail?_eq_some_iff] at hdrop
      exact absurd (by rw [hdrop, List.getLast?_concat]) hlast
  · rw [Text.dropTail?_eq_some_iff.mpr rfl, Option.getD_some]

theorem intercalate_modifyHead {parts : List (List Char)} (hne : parts ≠ []) (c : Char) :
    ['-'].intercalate (parts.modifyHead (c :: ·)) = c :: ['-'].intercalate parts := by
  obtain ⟨first, others, rfl⟩ := List.exists_cons_of_ne_nil hne
  cases others with
  | nil => simp only [List.modifyHead_cons, List.intercalate_singleton]
  | cons second others =>
    simp only [List.modifyHead_cons, List.intercalate_cons_cons, List.cons_append]

/-- **What the scan writes**, behind a dash and in a word.  It writes nothing where there is no
piece, so that there is a dash too many only behind a piece. -/
theorem scan_spec (text : List Char) :
    Trails (['-'].intercalate (pieces text)) (scan true text) ∧
    (pieces text = [] → scan true text = []) ∧
    Trails (['-'].intercalate (piecesInWord text)) (scan false text) := by
  induction text with
  | nil => exact ⟨Or.inl rfl, fun _ => rfl, Or.inl rfl⟩
  | cons c rest ih =>
    obtain ⟨ihDash, ihNone, ihWord⟩ := ih
    by_cases halphanum : c.isAlphanum
    · -- the character goes on with a word, or begins one
      have hscan : ∀ afterDash, scan afterDash (c :: rest) = c.toLower :: scan false rest := by
        intro afterDash
        rw [scan, if_pos halphanum]
      have hword : Trails (['-'].intercalate (piecesInWord (c :: rest)))
          (c.toLower :: scan false rest) := by
        rw [piecesInWord_cons_of_isAlphanum halphanum,
          intercalate_modifyHead (piecesInWord_ne_nil rest)]
        exact ihWord.cons c.toLower
      rw [hscan, hscan, pieces_cons_of_isAlphanum halphanum]
      exact ⟨hword, fun hnil => absurd hnil (piecesInWord_ne_nil _), hword⟩
    · by_cases hseparator : isSeparator c
      · have hdash : scan true (c :: rest) = scan true rest := by
          simp [scan, halphanum]
        have hword : scan false (c :: rest) = '-' :: scan true rest := by
          simp [scan, halphanum, hseparator]
        obtain ⟨hpieces, hinWord⟩ := pieces_cons_of_isSeparator hseparator rest
        rw [hdash, hword, hpieces, hinWord]
        refine ⟨ihDash, ihNone, ?_⟩
        -- the dash stands between two pieces, or else it is the one too many
        by_cases hnil : pieces rest = []
        · rw [ihNone hnil, hnil]
          exact Or.inr rfl
        · rw [List.intercalate_cons_of_ne_nil hnil]
          exact ihDash.cons '-'
      · have hkept : isKept c = false := by simp [isKept, halphanum, hseparator]
        have hscan : ∀ afterDash, scan afterDash (c :: rest) = scan afterDash rest := by
          intro afterDash
          simp [scan, halphanum, hseparator]
        obtain ⟨hpieces, hinWord⟩ := pieces_cons_of_not_isKept hkept rest
        rw [hscan, hscan, hpieces, hinWord]
        exact ⟨ihDash, ihNone, ihWord⟩

/-- **The pieces joined by dashes are the slug.** -/
theorem ofChars_eq (text : List Char) : ofChars text = ['-'].intercalate (pieces text) := by
  obtain ⟨htrails, -, -⟩ := scan_spec (Text.trimWhite text)
  rw [pieces_trimWhite] at htrails
  exact htrails.dropFinalDash (Text.getLast?_intercalate_ne fun _ => dash_notMem_pieces)

/-! ## The shape of slugs -/

theorem isShaped_ofChars (text : List Char) : IsShaped (ofChars text) := by
  rw [ofChars_eq]
  have hpieces : ∀ piece ∈ pieces text, piece ≠ [] ∧ '-' ∉ piece :=
    fun _ => dash_notMem_pieces
  refine ⟨fun c hc => ?_, Text.head?_intercalate_ne hpieces,
    Text.getLast?_intercalate_ne hpieces, Text.not_infix_intercalate hpieces⟩
  rcases Text.mem_of_mem_intercalate hc with hdash | ⟨piece, hpiece, hmem⟩
  · exact Or.inr hdash
  · exact Or.inl ((mem_pieces hpiece).2 c hmem)

/-- The scan copies small letters and digits, and dashes that stand alone. -/
theorem scan_eq_self {text : List Char} (hchars : ∀ c ∈ text, IsPlain c ∨ c = '-')
    (hapart : ¬ ['-', '-'] <:+: text) {afterDash : Bool}
    (hhead : afterDash = true → text.head? ≠ some '-') : scan afterDash text = text := by
  induction text generalizing afterDash with
  | nil => rfl
  | cons c rest ih =>
    obtain ⟨hc, hrest⟩ := List.forall_mem_cons.mp hchars
    have hlater : ¬ ['-', '-'] <:+: rest := fun hpair =>
      hapart (hpair.trans (List.infix_cons (List.infix_refl rest)))
    rcases hc with hplain | rfl
    · have hword : scan false rest = rest := ih hrest hlater nofun
      rw [scan, if_pos (isAlphanum_iff.mpr (Or.inr hplain)), toLower_of_isPlain hplain, hword]
    · have hnext : rest.head? ≠ some '-' := by
        intro hdash
        obtain ⟨later, rfl⟩ := List.head?_eq_some_iff.mp hdash
        exact hapart ⟨[], later, rfl⟩
      have hdash : scan true rest = rest := ih hrest hlater fun _ => hnext
      cases afterDash with
      | false => exact congrArg ('-' :: ·) hdash
      | true => exact absurd rfl (hhead rfl)

/-- **What has the shape of a slug is its own slug.** -/
theorem ofChars_of_isShaped {text : List Char} (h : IsShaped text) : ofChars text = text := by
  have hwhite : ∀ c ∈ text, Text.isWhite c = false := by
    intro c hc
    rcases h.chars c hc with hplain | rfl
    · exact isWhite_of_isPlain hplain
    · decide
  have htrim : Text.trimWhite text = text :=
    Text.strip_eq_self (fun c hc => hwhite c (List.mem_of_head? hc))
      (fun c hc => hwhite c (List.mem_of_getLast? hc))
  have hscan : scan true text = text := scan_eq_self h.chars h.apart fun _ => h.head
  rw [ofChars, htrim, hscan]
  exact Trails.dropFinalDash (Or.inl rfl) h.last

end Slug

/-- **What the slug of a text is**: the words of the text, without the characters that leave no
trace, in small letters and joined by dashes.  So all slugs have one shape, the slug of a slug is
that slug, and so it is of anything else of that shape; and white space at the ends of a text does
not matter. -/
theorem slug_eq_pieces (text : String) :
    slug text = String.ofList (['-'].intercalate (Slug.pieces text.toList)) ∧
    Slug.IsShaped (slug text).toList ∧
    slug (slug text) = slug text ∧
    slug (String.ofList (Text.trimWhite text.toList)) = slug text ∧
    (slug text = text ↔ Slug.IsShaped text.toList) := by
  have hself : ∀ text : String, Slug.IsShaped text.toList → slug text = text := by
    intro text hshaped
    rw [slug, Slug.ofChars_of_isShaped hshaped, String.ofList_toList]
  have hshaped : ∀ text : String, Slug.IsShaped (slug text).toList := by
    intro text
    rw [slug, String.toList_ofList]
    exact Slug.isShaped_ofChars text.toList
  refine ⟨?_, hshaped text, hself _ (hshaped text), ?_, ?_⟩
  · rw [slug, Slug.ofChars_eq]
  · rw [slug, slug, String.toList_ofList, Slug.ofChars_eq, Slug.ofChars_eq, Slug.pieces_trimWhite]
  · constructor
    · intro heq
      rw [← heq]
      exact hshaped text
    · exact hself text

/-- A dropped character stands between separators, and others in a word. -/
example : Slug.ofChars " _What's-*- (n)EW_é-".toList = "whats-new".toList := by
  decide

end Rendition
