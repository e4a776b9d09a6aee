import Rendition.Outline.Anchors
import Rendition.Proofs.Text.Fields

/-!
# When anchors are unique

A heading without an id of its own gets the slug of its text, with a number behind it if the
slug was in use already.  The numbers keep the headings of one slug apart
(`Anchors.numbered_inj`), but nothing keeps `faq-1` as the second heading `FAQ` from `faq-1`
as the slug of `FAQ 1`: the numbered ids are not recorded as used.  So anchors are not unique
in general, but they are if no heading of the document asks for what is another one's key with
a number behind it.
-/

namespace Rendition.Anchors

/-- What a heading asks for: the id of its author, or else the slug of its text. -/
def Request.key (request : Request) : String :=
  request.explicit.getD (slug request.text)

/-- A base with a number behind it. -/
def numbered (base : String) (number : Nat) : String :=
  s!"{base}-{number}"

theorem toList_numbered (base : String) (number : Nat) :
    (numbered base number).toList = base.toList ++ '-' :: Nat.toDigits 10 number := by
  have hdash : (toString "-").toList = ['-'] := rfl
  simp only [numbered, String.toList_append, Nat.toString_eq_repr, Nat.toList_repr, hdash,
    List.append_assoc, List.singleton_append]
  rfl

/-- No dash stands in a number. -/
theorem dash_notMem_toDigits (number : Nat) : '-' ∉ Nat.toDigits 10 number := by
  intro hmem
  have hdigit := Nat.isDigit_of_mem_toDigits (by omega) (by omega) hmem
  revert hdigit
  decide

theorem toDigits_inj {first second : Nat}
    (h : Nat.toDigits 10 first = Nat.toDigits 10 second) : first = second := by
  have hread := congrArg (fun digits => Nat.ofDigitChars 10 digits 0) h
  simpa only [Nat.ofDigitChars_ten_toDigits] using hread

/-- **Base and number can be told from the id.** -/
theorem numbered_inj {base base' : String} {number number' : Nat}
    (h : numbered base number = numbered base' number') : base = base' ∧ number = number' := by
  have hlists := congrArg String.toList h
  rw [toList_numbered, toList_numbered] at hlists
  obtain ⟨hbase, hnumber⟩ := Text.append_mark_inj hlists (dash_notMem_toDigits number)
    (dash_notMem_toDigits number')
  exact ⟨String.toList_inj.mp hbase, toDigits_inj hnumber⟩

/-! ## Counting -/

variable {ids : Anchors}

theorem assign_snd (ids : Anchors) (request : Request) :
    (ids.assign request.explicit request.text).2 = ids.use request.key := by
  obtain ⟨explicit, text⟩ := request
  cases explicit <;> rfl

theorem count_use (ids : Anchors) (base other : String) :
    (ids.use base).count other =
      if base = other then ids.count other + 1 else ids.count other := by
  unfold count use
  simp only [Std.ExtTreeMap.getElem?_insert, Std.LawfulEqOrd.compare_eq_iff_eq]
  by_cases h : base = other
  · subst h
    rw [if_pos rfl, if_pos rfl]
    rfl
  · rw [if_neg h, if_neg h]

theorem count_le_use (ids : Anchors) (base other : String) :
    ids.count other ≤ (ids.use base).count other := by
  rw [count_use]
  split
  · exact Nat.le_succ _
  · exact Nat.le_refl _

/-- **Which id a heading gets**: its key if that is the author's or was not in use, and
otherwise its key with the number of times it was. -/
theorem assign_cases (ids : Anchors) (request : Request) :
    let id := (ids.assign request.explicit request.text).1
    (id = request.key ∧ (request.explicit.isSome ∨ ids.count request.key = 0)) ∨
    (id = numbered request.key (ids.count request.key) ∧ 0 < ids.count request.key) := by
  obtain ⟨explicit, text⟩ := request
  cases explicit with
  | some id => exact Or.inl ⟨rfl, Or.inl rfl⟩
  | none =>
    cases hcount : ids.count (slug text) with
    | zero =>
      refine Or.inl ⟨?_, Or.inr hcount⟩
      simp only [assign, next, hcount, Request.key, Option.getD_none]
    | succ count =>
      refine Or.inr ⟨?_, ?_⟩
      · simp only [assign, next, hcount, Request.key, Option.getD_none, numbered]
      · simp only [Request.key, Option.getD_none, hcount, Nat.zero_lt_succ]

/-! ## Uniqueness -/

/-- A heading without an id of its own has an id that no earlier heading has. -/
def Unique (requests : List Request) : Prop :=
  (requests.zip (assignAll {} requests)).Pairwise fun earlier later =>
    later.1.explicit = none → earlier.2 ≠ later.2

instance (requests : List Request) : Decidable (Unique requests) :=
  inferInstanceAs (Decidable (List.Pairwise _ _))

/-- What one of the headings asks for is what another one asks for with a number behind it. -/
def Overlaps (requests : List Request) : Prop :=
  ∃ first ∈ requests, ∃ second ∈ requests, ∃ number,
    0 < number ∧ first.key = numbered second.key number

/-- The id of a heading is assigned when each key has been used as often as before the first
of the headings, or more often. -/
theorem assign_of_mem_zip {requests : List Request} {entry : Request × String}
    (h : entry ∈ requests.zip (assignAll ids requests)) :
    ∃ reached : Anchors, (∀ key, ids.count key ≤ reached.count key) ∧
      entry.2 = (reached.assign entry.1.explicit entry.1.text).1 := by
  induction requests generalizing ids with
  | nil => cases h
  | cons request rest ih =>
    rw [assignAll, List.zip_cons_cons] at h
    rcases List.mem_cons.mp h with rfl | hrest
    · exact ⟨ids, fun _ => Nat.le_refl _, rfl⟩
    · obtain ⟨reached, hcount, hid⟩ := ih hrest
      refine ⟨reached, fun key => Nat.le_trans ?_ (hcount key), hid⟩
      rw [assign_snd]
      exact count_le_use ids request.key key

/-- Two headings get different ids if neither asks for what the other one asks for with a
number behind it, and the later one has no id of its own. -/
theorem assign_ne {reached : Anchors} {earlier later : Request} (hnone : later.explicit = none)
    (hcount : ∀ key, (ids.use earlier.key).count key ≤ reached.count key)
    (hearlier : ∀ number, 0 < number → earlier.key ≠ numbered later.key number)
    (hlater : ∀ number, 0 < number → later.key ≠ numbered earlier.key number) :
    (ids.assign earlier.explicit earlier.text).1 ≠
      (reached.assign later.explicit later.text).1 := by
  have hused : ids.count earlier.key + 1 ≤ reached.count earlier.key := by
    have huse := hcount earlier.key
    rwa [count_use, if_pos rfl] at huse
  intro heq
  rcases assign_cases ids earlier with ⟨hid, -⟩ | ⟨hid, hpos⟩ <;>
    rcases assign_cases reached later with ⟨hid', hfirst⟩ | ⟨hid', hpos'⟩
  · -- the same key twice: then it was in use when the later heading came
    have hkeys : earlier.key = later.key := by rw [← hid, ← hid', heq]
    rw [hkeys] at hused
    rcases hfirst with hsome | hzero
    · rw [hnone] at hsome
      cases hsome
    · omega
  · exact hearlier _ hpos' (by rw [← hid, heq, hid'])
  · exact hlater _ hpos (by rw [← hid', ← heq, hid])
  · -- the same key with the same number: but the numbers of a key grow
    obtain ⟨hkeys, hnumber⟩ := numbered_inj (hid.symm.trans (heq.trans hid'))
    rw [← hkeys] at hnumber
    omega

/-- **Anchors are unique** if no heading of the document asks for what is another one's key
with a number behind it. -/
theorem unique_of_not_overlaps (requests : List Request) (h : ¬ Overlaps requests) :
    Unique requests := by
  have hkeys : ∀ first ∈ requests, ∀ second ∈ requests, ∀ number, 0 < number →
      first.key ≠ numbered second.key number :=
    fun first hfirst second hsecond number hpos heq =>
      h ⟨first, hfirst, second, hsecond, number, hpos, heq⟩
  clear h
  unfold Unique
  generalize ({} : Anchors) = ids
  induction requests generalizing ids with
  | nil => exact .nil
  | cons request rest ih =>
    rw [assignAll, List.zip_cons_cons]
    refine .cons ?_ ?_
    · intro entry hentry hnone
      obtain ⟨reached, hcount, hid⟩ := assign_of_mem_zip hentry
      have hrest : entry.1 ∈ rest := (List.of_mem_zip hentry).1
      rw [assign_snd] at hcount
      rw [hid]
      exact assign_ne hnone hcount
        (hkeys request List.mem_cons_self entry.1 (List.mem_cons_of_mem _ hrest))
        (hkeys entry.1 (List.mem_cons_of_mem _ hrest) request List.mem_cons_self)
    · exact ih (fun first hfirst second hsecond =>
        hkeys first (List.mem_cons_of_mem _ hfirst) second (List.mem_cons_of_mem _ hsecond)) _

/-- A key without a dash is no other key with a number behind it. -/
theorem not_overlaps_of_dashless {requests : List Request}
    (h : ∀ request ∈ requests, '-' ∉ request.key.toList) : ¬ Overlaps requests := by
  rintro ⟨first, hfirst, second, -, number, -, heq⟩
  refine h first hfirst ?_
  rw [heq, toList_numbered]
  exact List.mem_append_right _ List.mem_cons_self

/-- Repeated headings and one with an id of its own. -/
theorem unique_of_not_overlaps_faq :
    let requests : List Request := [⟨none, "FAQ"⟩, ⟨some "top", "Intro"⟩, ⟨none, "FAQ"⟩]
    ¬ Overlaps requests ∧ Unique requests := by
  intro requests
  have hrequests : ¬ Overlaps requests := not_overlaps_of_dashless (by decide)
  exact ⟨hrequests, unique_of_not_overlaps requests hrequests⟩

/-- The second heading `FAQ` and a heading `FAQ 1` get the same id. -/
theorem not_unique_faq :
    assignAll {} [⟨none, "FAQ"⟩, ⟨none, "FAQ"⟩, ⟨none, "FAQ 1"⟩] = ["faq", "faq-1", "faq-1"] ∧
    ¬ Unique [⟨none, "FAQ"⟩, ⟨none, "FAQ"⟩, ⟨none, "FAQ 1"⟩] := by
  decide

end Rendition.Anchors
