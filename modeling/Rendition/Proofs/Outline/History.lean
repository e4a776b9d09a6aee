import Rendition.Proofs.Outline.Anchors

/-!
# Anchors and what came before them

The counts of `Anchors` are those of the headings before (`count_useAll`): a key has been used
as often as earlier headings have asked for it.  So the id of a heading can be said without the
state that is passed from one heading to the next.  It is the key of the heading, or else the
key with the number of earlier headings of that key behind it (`Request.idAfter`).

From this it follows which headings of a document share an id (`Request.idAfter_eq_iff`).  The
numbers behind one key tell all its headings apart, so two ids can only be the same if one of
them is a bare key that reads like another key with its number.
-/

namespace Rendition.Anchors

/-- How many of the headings have a key. -/
def uses (requests : List Request) (key : String) : Nat :=
  requests.countP (·.key = key)

namespace Request

/-- The number that a heading gets behind its key, after earlier headings: how many of these
have the same key.  There is none behind an id of the author's, or behind a key that is new. -/
def number? (earlier : List Request) (request : Request) : Option Nat :=
  if request.explicit.isSome ∨ uses earlier request.key = 0 then none
  else some (uses earlier request.key)

/-- The id that a heading gets after earlier headings. -/
def idAfter (earlier : List Request) (request : Request) : String :=
  match request.number? earlier with
  | none => request.key
  | some number => numbered request.key number

end Request

/-! ## Counts and the headings before -/

/-- The anchors once headings have got their ids. -/
def useAll (ids : Anchors) (requests : List Request) : Anchors :=
  requests.foldl (fun ids request => ids.use request.key) ids

/-- **A key has been used as often as headings have asked for it.** -/
theorem count_useAll (ids : Anchors) (requests : List Request) (key : String) :
    (ids.useAll requests).count key = ids.count key + uses requests key := by
  induction requests generalizing ids with
  | nil => rfl
  | cons request rest ih =>
    have hcons : ids.useAll (request :: rest) = (ids.use request.key).useAll rest := rfl
    rw [hcons, ih, count_use, uses, uses, List.countP_cons]
    by_cases hkey : request.key = key
    · simp only [hkey, ↓reduceIte, decide_true]
      omega
    · simp only [hkey, ↓reduceIte, decide_false, Bool.false_eq_true, Nat.add_zero]

theorem count_empty (key : String) : count {} key = 0 := by
  rw [count, show ({} : Anchors).counts[key]? = none from Std.ExtTreeMap.getElem?_empty]
  rfl

/-- The next heading after others, in a document that begins with them. -/
theorem assign_useAll (earlier : List Request) (request : Request) :
    ((useAll {} earlier).assign request.explicit request.text).1 = request.idAfter earlier := by
  have hcount : (useAll {} earlier).count request.key = uses earlier request.key := by
    rw [count_useAll, count_empty, Nat.zero_add]
  obtain ⟨explicit, text⟩ := request
  cases explicit with
  | some id => simp only [assign, Request.idAfter, Request.number?, Option.isSome_some, true_or,
      ↓reduceIte, Request.key, Option.getD_some]
  | none =>
    simp only [Request.key, Option.getD_none] at hcount
    simp only [assign, next, hcount, Request.idAfter, Request.number?, Request.key,
      Option.getD_none, Option.isSome_none, Bool.false_eq_true, false_or]
    cases uses earlier (slug text) with
    | zero => rfl
    | succ count => simp only [Nat.add_one_ne_zero, ↓reduceIte, numbered]

/-- The id at a place is that of the heading there, after those in front of it. -/
theorem getElem?_assignAll (ids : Anchors) (requests : List Request) (place : Nat) :
    (assignAll ids requests)[place]? = requests[place]?.map fun request =>
      ((ids.useAll (requests.take place)).assign request.explicit request.text).1 := by
  induction requests generalizing ids place with
  | nil => rfl
  | cons request rest ih =>
    rw [assignAll]
    cases place with
    | zero => rfl
    | succ place =>
      rw [List.getElem?_cons_succ, List.getElem?_cons_succ, ih, assign_snd]
      rfl

/-- So in a document it is said by the headings alone. -/
theorem eq_idAfter {requests : List Request} {place : Nat} {request : Request} {id : String}
    (hrequest : requests[place]? = some request) (hid : (assignAll {} requests)[place]? = some id) :
    id = request.idAfter (requests.take place) := by
  rw [getElem?_assignAll, hrequest, Option.map_some, assign_useAll] at hid
  exact (Option.some.inj hid).symm

theorem length_assignAll (ids : Anchors) (requests : List Request) :
    (assignAll ids requests).length = requests.length := by
  induction requests generalizing ids with
  | nil => rfl
  | cons request rest ih => rw [assignAll, List.length_cons, List.length_cons, ih]

/-- A heading adds to the uses of its key, for all headings behind it. -/
theorem uses_take_lt {requests : List Request} {place later : Nat} {request : Request}
    (h : requests[place]? = some request) (hlater : place < later) :
    uses (requests.take place) request.key < uses (requests.take later) request.key := by
  have hnext : requests.take (place + 1) = requests.take place ++ [request] := by
    rw [List.take_add_one, h]
    rfl
  have huses : uses (requests.take (place + 1)) request.key =
      uses (requests.take place) request.key + 1 := by
    rw [hnext, uses, uses, List.countP_append, List.countP_singleton]
    simp only [decide_true, ↓reduceIte]
  have hsub : (requests.take (place + 1)).Sublist (requests.take later) :=
    List.take_sublist_take_left hlater
  have hle : uses (requests.take (place + 1)) request.key ≤
      uses (requests.take later) request.key := hsub.countP_le
  omega

/-! ## Which ids are the same -/

/-- A key with a number behind it is another key. -/
theorem numbered_ne (key : String) (number : Nat) : numbered key number ≠ key := by
  intro h
  have hlength := congrArg (fun id => id.toList.length) h
  simp only [toList_numbered, List.length_append, List.length_cons] at hlength
  omega

namespace Request

variable {earlier before : List Request} {request first second : Request}

/-- Without a number the id is the bare key, and either the author's or new. -/
theorem idAfter_of_bare (h : request.number? earlier = none) :
    request.idAfter earlier = request.key ∧
      (request.explicit.isSome ∨ uses earlier request.key = 0) := by
  refine ⟨by rw [idAfter, h], ?_⟩
  unfold number? at h
  split at h
  · assumption
  · cases h

/-- A number is how often the key has been used, at least once, and it is written in the id. -/
theorem idAfter_of_number {number : Nat} (h : request.number? earlier = some number) :
    request.idAfter earlier = numbered request.key number ∧ request.explicit = none ∧
      uses earlier request.key = number ∧ 0 < number := by
  refine ⟨by rw [idAfter, h], ?_⟩
  unfold number? at h
  split at h
  · cases h
  · rename_i hnumbered
    obtain rfl := Option.some.inj h
    obtain ⟨hexplicit, huses⟩ := not_or.mp hnumbered
    exact ⟨by simpa using hexplicit, rfl, Nat.pos_of_ne_zero huses⟩

/-- An id of the author's is taken as it is. -/
theorem idAfter_of_explicit {id : String} (h : request.explicit = some id) :
    request.idAfter earlier = id := by
  have hbare : request.number? earlier = none := if_pos (Or.inl (by rw [h]; rfl))
  rw [(idAfter_of_bare hbare).1, key, h, Option.getD_some]

/-- A key that is new is the id. -/
theorem idAfter_of_new (h : uses earlier request.key = 0) :
    request.idAfter earlier = request.key := by
  have hbare : request.number? earlier = none := if_pos (Or.inr h)
  exact (idAfter_of_bare hbare).1

/-- A key that is in use gets the number of its uses. -/
theorem idAfter_of_used (hnone : request.explicit = none) (h : 0 < uses earlier request.key) :
    request.idAfter earlier = numbered request.key (uses earlier request.key) := by
  have hnumber : request.number? earlier = some (uses earlier request.key) := by
    refine if_neg (not_or.mpr ⟨?_, Nat.ne_of_gt h⟩)
    rw [hnone]
    exact Bool.false_ne_true
  exact (idAfter_of_number hnumber).1

/-- A heading whose key is in use gets another id than its key, if it has none of its own. -/
theorem idAfter_ne_key (hnone : request.explicit = none) (huses : 0 < uses earlier request.key) :
    request.idAfter earlier ≠ request.key := by
  rw [idAfter_of_used hnone huses]
  exact numbered_ne request.key _

/-- **When two headings share an id**, of which the later has none of its own: one of them has
its bare key, and that is the key of the other with the number that the other has got. -/
theorem idAfter_eq_iff (hnone : second.explicit = none)
    (hlt : uses earlier first.key < uses before first.key) :
    first.idAfter earlier = second.idAfter before ↔
      (first.idAfter earlier = first.key ∧
        ∃ number, second.number? before = some number ∧ first.key = numbered second.key number) ∨
      (second.idAfter before = second.key ∧
        ∃ number, first.number? earlier = some number ∧
          second.key = numbered first.key number) := by
  constructor
  · intro heq
    cases hfirst : first.number? earlier with
    | none =>
      obtain ⟨hid, -⟩ := idAfter_of_bare hfirst
      cases hsecond : second.number? before with
      | none =>
        -- the same bare key twice: but it was in use when the later heading came
        obtain ⟨hid', hnew⟩ := idAfter_of_bare hsecond
        have hkeys : first.key = second.key := by rw [← hid, ← hid', heq]
        rw [hkeys] at hlt
        rcases hnew with hsome | hzero
        · rw [hnone] at hsome
          cases hsome
        · omega
      | some number =>
        obtain ⟨hid', -⟩ := idAfter_of_number hsecond
        exact Or.inl ⟨hid, number, rfl, by rw [← hid, heq, hid']⟩
    | some number =>
      obtain ⟨hid, -, huses, -⟩ := idAfter_of_number hfirst
      cases hsecond : second.number? before with
      | none =>
        obtain ⟨hid', -⟩ := idAfter_of_bare hsecond
        exact Or.inr ⟨hid', number, rfl, by rw [← hid', ← heq, hid]⟩
      | some number' =>
        -- the same key with the same number: but the numbers of a key grow
        obtain ⟨hid', -, huses', -⟩ := idAfter_of_number hsecond
        obtain ⟨hkeys, hnumbers⟩ := numbered_inj (hid.symm.trans (heq.trans hid'))
        rw [← hkeys] at huses'
        omega
  · rintro (⟨hid, number, hnumber, hkey⟩ | ⟨hid, number, hnumber, hkey⟩)
    · rw [hid, hkey, (idAfter_of_number hnumber).1]
    · rw [hid, hkey, (idAfter_of_number hnumber).1]

/-- Headings of one key never share an id, since neither can be a bare key with the number of the
other. -/
theorem idAfter_ne_of_key_eq (hnone : second.explicit = none)
    (hlt : uses earlier first.key < uses before first.key) (hkeys : first.key = second.key) :
    first.idAfter earlier ≠ second.idAfter before := by
  intro heq
  rcases (idAfter_eq_iff hnone hlt).mp heq with ⟨-, number, -, hlonger⟩ | ⟨-, number, -, hlonger⟩
  · exact numbered_ne second.key number (hlonger.symm.trans hkeys)
  · exact numbered_ne first.key number (hlonger.symm.trans hkeys.symm)

end Request

/-- **The ids of a document's headings**, from what came before each of them.  An id of the
author's is taken as it is; any other one is the key of its heading, with the number of earlier
headings of that key behind it, if there are any.  So an id that is not the author's is that of an
earlier heading if and only if one of the two is a bare key, and that key is the other one's
with the number that the other has got.  It is never that of an earlier heading of the same key,
and never the key itself if an earlier heading has it. -/
theorem assignAll_of_history (requests : List Request) :
    let ids := assignAll {} requests
    ids.length = requests.length ∧
    (∀ (place : Nat) (request : Request) (id : String),
      requests[place]? = some request → ids[place]? = some id →
      let count := uses (requests.take place) request.key
      (∀ explicit, request.explicit = some explicit → id = explicit) ∧
      (request.explicit = none →
        (count = 0 → id = slug request.text) ∧
        (0 < count → id = s!"{slug request.text}-{count}"))) ∧
    ∀ (place later : Nat) (first second : Request) (id id' : String), place < later →
      requests[place]? = some first → requests[later]? = some second →
      ids[place]? = some id → ids[later]? = some id' → second.explicit = none →
      (id = id' ↔
        (id = first.key ∧ ∃ number, second.number? (requests.take later) = some number ∧
          first.key = numbered second.key number) ∨
        (id' = second.key ∧ ∃ number, first.number? (requests.take place) = some number ∧
          second.key = numbered first.key number)) ∧
      (first.key = second.key → id ≠ id' ∧ id' ≠ second.key) := by
  intro ids
  refine ⟨length_assignAll {} requests, ?_, ?_⟩
  · intro place request id hrequest hid count
    rw [eq_idAfter hrequest hid]
    refine ⟨fun explicit => Request.idAfter_of_explicit, fun hnone => ?_⟩
    have hkey : request.key = slug request.text := by
      rw [Request.key, hnone, Option.getD_none]
    rw [← hkey]
    exact ⟨Request.idAfter_of_new, Request.idAfter_of_used hnone⟩
  · intro place later first second id id' hlater hfirst hsecond hid hid' hnone
    rw [eq_idAfter hfirst hid, eq_idAfter hsecond hid']
    have hlt := uses_take_lt hfirst hlater
    refine ⟨Request.idAfter_eq_iff hnone hlt, fun hkeys => ?_⟩
    have hused : 0 < uses (requests.take later) second.key := by
      rw [← hkeys]
      omega
    exact ⟨Request.idAfter_ne_of_key_eq hnone hlt hkeys, Request.idAfter_ne_key hnone hused⟩

/-- The second heading `FAQ` and a heading `FAQ 1` behind it: the slug of the last one is that of
the others with the number of the second. -/
theorem assignAll_of_history_faq :
    let requests : List Request :=
      [⟨none, "FAQ"⟩, ⟨some "top", "Intro"⟩, ⟨none, "FAQ"⟩, ⟨none, "FAQ 1"⟩]
    let ids := assignAll {} requests
    let second : Request := ⟨none, "FAQ"⟩
    let last : Request := ⟨none, "FAQ 1"⟩
    (requests[2]? = some second ∧ requests[3]? = some last ∧ ids[2]? = some "faq-1" ∧
      ids[3]? = some "faq-1" ∧ last.explicit = none) ∧
    ("faq-1" = last.key ∧ ∃ number, second.number? (requests.take 2) = some number ∧
      last.key = numbered second.key number) := by
  intro requests ids second last
  have hids : ids[2]? = some "faq-1" ∧ ids[3]? = some "faq-1" := by decide
  refine ⟨⟨rfl, rfl, hids.1, hids.2, rfl⟩, ?_⟩
  have hshared := ((assignAll_of_history requests).2.2 2 3 second last "faq-1" "faq-1"
    (by decide) rfl rfl hids.1 hids.2 rfl).1.mp rfl
  rcases hshared with ⟨hbare, -⟩ | hlast
  · have hkey : ("faq-1" : String) ≠ second.key := by decide
    exact absurd hbare hkey
  · exact hlast

end Rendition.Anchors
