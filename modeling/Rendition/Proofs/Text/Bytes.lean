/-!
# Texts and their bytes

Texts are ordered by their characters, and so are their bytes in UTF-8.  For two characters this is
seen from the ranges of code points that are coded by one, two, three and four bytes: the first
byte grows from range to range, and in each range the bytes are digits of the code point
(`Text.utf8EncodeChar_append_lt`).  That the smaller bytes stay smaller whatever comes behind them
carries it over to texts (`Text.compare_eq_lt_iff`).
-/

namespace Rendition.Text

/-- The bytes of a text in UTF-8. -/
def bytes (text : String) : List UInt8 :=
  text.toByteArray.data.toList

theorem bytes_eq_flatMap (text : String) :
    bytes text = text.toList.flatMap String.utf8EncodeChar := by
  rw [bytes, ← String.utf8Encode_toList, List.utf8Encode, List.toList_data_toByteArray]

/-- **A character before another one has smaller bytes.** -/
theorem utf8EncodeChar_append_lt {first second : Char} (h : first < second)
    (rest rest' : List UInt8) :
    String.utf8EncodeChar first ++ rest < String.utf8EncodeChar second ++ rest' := by
  have hlimit : second.val.toNat < 0x110000 := by
    rcases second.valid with hlow | ⟨-, hhigh⟩
    · exact Nat.lt_trans hlow (by decide)
    · exact hhigh
  rw [Char.lt_def, UInt32.lt_iff_toNat_lt] at h
  simp only [String.utf8EncodeChar]
  generalize first.val.toNat = low at *
  generalize second.val.toNat = high at *
  -- one case for each two ranges
  split <;> split <;> (try split) <;> (try split) <;> (try split) <;> (try split)
  all_goals
    simp (disch := omega) only [List.cons_append, List.nil_append, List.cons_lt_cons_iff,
      UInt8.lt_iff_toNat_lt, ← UInt8.toNat_inj, UInt8.toNat_ofNat', Nat.mod_eq_of_lt]
    omega

theorem bytes_lt_bytes {first second : String} (h : first < second) :
    bytes first < bytes second := by
  change first.toList < second.toList at h
  rw [bytes_eq_flatMap, bytes_eq_flatMap]
  generalize first.toList = first at h
  generalize second.toList = second at h
  induction first generalizing second with
  | nil =>
    cases second with
    | nil => cases h
    | cons c rest =>
      obtain ⟨byte, more, hbytes⟩ := List.exists_cons_of_ne_nil (@String.utf8EncodeChar_ne_nil c)
      rw [List.flatMap_cons, hbytes]
      exact List.nil_lt_cons _ _
  | cons c rest ih =>
    cases second with
    | nil => cases h
    | cons d rest' =>
      rw [List.flatMap_cons, List.flatMap_cons]
      rcases List.cons_lt_cons_iff.mp h with hlt | ⟨rfl, hrest⟩
      · exact utf8EncodeChar_append_lt hlt _ _
      · exact List.append_left_lt (ih rest' hrest)

/-- **Texts are ordered by their bytes.** -/
theorem compare_eq_lt_iff {first second : String} :
    compare first second = .lt ↔ bytes first < bytes second := by
  have hmono : ∀ {first second : String}, compare first second = .lt →
      bytes first < bytes second := by
    intro first second hlt
    exact bytes_lt_bytes (compareOfLessAndEq_eq_lt.mp hlt)
  constructor
  · exact hmono
  · intro h
    cases hcompare : compare first second with
    | lt => rfl
    | eq =>
      obtain rfl := Std.LawfulEqOrd.eq_of_compare hcompare
      exact absurd h (List.lt_irrefl _)
    | gt =>
      have hback := hmono (Std.OrientedOrd.eq_swap.trans (congrArg Ordering.swap hcompare))
      exact absurd hback (List.lt_asymm h)

end Rendition.Text
