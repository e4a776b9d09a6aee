import Mathlib.Data.List.DropRight
import Rendition.Html.Link
import Rendition.Proofs.Text.Fields

/-!
# Walking along a path

A path is walked from a position, one component after another (`walk`).  What a component does
is said once (`step_cases`): it leaves the position as it is, goes up one level, or goes down
into a segment that is not empty and reads neither `.` nor `..`.  So a walk ends at a position
made of old segments and of such new ones (`mem_walk`), and since positions can be read back from
the text they are joined to (`segments_intercalate`), walking two paths one after the other is
walking the path that they make together (`walk_append`).

How far a walk can get is seen from the other end.  Read from its last component back, a path
is some levels up and then some segments down (`Way.ofComponents`): each `..` takes back the
nearest segment before it that has not been taken back, and only those that find none lead out
of the position, which ends at the root (`walk_eq_leadFrom`).
-/

namespace Rendition.Link

/-- Whether a segment is read as a step, and is no name. -/
def IsDots (segment : List Char) : Prop :=
  segment = ['.'] ∨ segment = ['.', '.']

instance (segment : List Char) : Decidable (IsDots segment) :=
  inferInstanceAs (Decidable (_ ∨ _))

/-- Whether each of some segments takes one level. -/
def IsPosition (position : List (List Char)) : Prop :=
  ∀ segment ∈ position, segment ≠ [] ∧ '/' ∉ segment

/-- The position at which a path ends. -/
def walk (position : List (List Char)) (path : List Char) : List (List Char) :=
  (Text.fields (· = '/') path).foldl step position

variable {position : List (List Char)} {path : List Char}

/-! ## One step -/

/-- **What a step does.** -/
theorem step_cases (position : List (List Char)) (component : List Char) :
    ((component = [] ∨ component = ['.']) ∧ step position component = position) ∨
    (component = ['.', '.'] ∧ step position component = position.dropLast) ∨
    (component ≠ [] ∧ ¬ IsDots component ∧ step position component = position ++ [component]) := by
  unfold step
  split
  · exact Or.inl ⟨‹_›, rfl⟩
  · rename_i hstay
    obtain ⟨hne, hdot⟩ := not_or.mp hstay
    split
    · exact Or.inr (Or.inl ⟨‹_›, rfl⟩)
    · rename_i hup
      exact Or.inr (Or.inr ⟨hne, not_or.mpr ⟨hdot, hup⟩, rfl⟩)

/-- A step into a segment. -/
theorem step_name {component : List Char} (hne : component ≠ []) (hdots : ¬ IsDots component)
    (position : List (List Char)) : step position component = position ++ [component] := by
  rcases step_cases position component with ⟨hstay, -⟩ | ⟨hup, -⟩ | ⟨-, -, hstep⟩
  · exact absurd (hstay.resolve_left hne) (not_or.mp hdots).1
  · exact absurd hup (not_or.mp hdots).2
  · exact hstep

theorem mem_step {component segment : List Char} (h : segment ∈ step position component) :
    segment ∈ position ∨ (segment = component ∧ segment ≠ [] ∧ ¬ IsDots segment) := by
  rcases step_cases position component with ⟨-, hstep⟩ | ⟨-, hstep⟩ | ⟨hne, hdots, hstep⟩
  · rw [hstep] at h
    exact Or.inl h
  · rw [hstep] at h
    exact Or.inl (List.dropLast_subset _ h)
  · rw [hstep, List.mem_append, List.mem_singleton] at h
    rcases h with hold | rfl
    · exact Or.inl hold
    · exact Or.inr ⟨rfl, hne, hdots⟩

/-! ## Walks -/

/-- A walk ends among segments of its start and names of the path. -/
theorem mem_foldl_step {components : List (List Char)} {segment : List Char}
    (h : segment ∈ components.foldl step position) :
    segment ∈ position ∨ (segment ∈ components ∧ segment ≠ [] ∧ ¬ IsDots segment) := by
  induction components generalizing position with
  | nil => exact Or.inl h
  | cons component rest ih =>
    rcases ih h with hstep | ⟨hrest, hname⟩
    · rcases mem_step hstep with hold | ⟨rfl, hname⟩
      · exact Or.inl hold
      · exact Or.inr ⟨List.mem_cons_self, hname⟩
    · exact Or.inr ⟨List.mem_cons_of_mem component hrest, hname⟩

theorem mem_walk {segment : List Char} (h : segment ∈ walk position path) :
    segment ∈ position ∨ (segment ≠ [] ∧ '/' ∉ segment ∧ ¬ IsDots segment) := by
  rcases mem_foldl_step h with hold | ⟨hfield, hne, hdots⟩
  · exact Or.inl hold
  · exact Or.inr ⟨hne, Text.notMem_of_mem_fields hfield, hdots⟩

/-- **A walk leads from position to position.** -/
theorem IsPosition.walk (h : IsPosition position) (path : List Char) :
    IsPosition (walk position path) := by
  intro segment hsegment
  rcases mem_walk hsegment with hold | ⟨hne, hslash, -⟩
  · exact h segment hold
  · exact ⟨hne, hslash⟩

/-- Dots come from the start of a walk alone. -/
theorem not_isDots_of_mem_walk (h : ∀ segment ∈ position, ¬ IsDots segment)
    (path : List Char) :
    ∀ segment ∈ walk position path, ¬ IsDots segment := by
  intro segment hsegment
  rcases mem_walk hsegment with hold | ⟨-, -, hdots⟩
  · exact h segment hold
  · exact hdots

/-- **Two walks one after the other** are one walk along both paths. -/
theorem walk_append (position : List (List Char)) (first second : List Char) :
    walk position (first ++ '/' :: second) = walk (walk position first) second := by
  rw [walk, Text.fields_append_cons (decide_eq_true rfl), List.foldl_append]
  rfl

/-! ## Positions as text -/

theorem isPosition_segments (path : List Char) : IsPosition (segments path) := by
  intro segment hsegment
  obtain ⟨hfield, hne⟩ := Text.mem_words.mp hsegment
  exact ⟨hne, Text.notMem_of_mem_fields hfield⟩

/-- **A position is read back from its text.** -/
theorem segments_intercalate (h : IsPosition position) :
    segments (['/'].intercalate position) = position :=
  Text.words_intercalate h

theorem resolveRelative_eq (path base : List Char) :
    resolveRelative path base = ['/'].intercalate (walk (segments base) path) :=
  rfl

theorem segments_resolveRelative (path base : List Char) :
    segments (resolveRelative path base) = walk (segments base) path :=
  segments_intercalate ((isPosition_segments base).walk path)

/-- A joined path has the characters of its base and its path. -/
theorem mem_resolveRelative {c : Char} {base : List Char} (h : c ∈ resolveRelative path base) :
    c = '/' ∨ c ∈ base ∨ c ∈ path := by
  rcases Text.mem_of_mem_intercalate h with hslash | ⟨segment, hsegment, hc⟩
  · exact Or.inl hslash
  · rcases mem_foldl_step hsegment with hbase | ⟨hpath, -⟩
    · exact Or.inr (Or.inl (Text.subset_of_mem_fields (Text.mem_words.mp hbase).1 hc))
    · exact Or.inr (Or.inr (Text.subset_of_mem_fields hpath hc))

theorem segments_append_slash (before after : List Char) :
    segments (before ++ '/' :: after) = segments before ++ segments after :=
  Text.words_append_cons (decide_eq_true rfl) before after

theorem isSlash_of_mem_slashes (count : Nat) :
    ∀ c ∈ List.replicate count '/', decide (c = '/') = true :=
  fun _ hc => decide_eq_true (List.eq_of_mem_replicate hc)

/-- Slashes in front of a path make no segments. -/
theorem segments_slashes_append (count : Nat) (path : List Char) :
    segments (List.replicate count '/' ++ path) = segments path :=
  Text.words_separators_append (isSlash_of_mem_slashes count) path

/-- Nor do slashes behind it. -/
theorem segments_append_slashes (path : List Char) (count : Nat) :
    segments (path ++ List.replicate count '/') = segments path :=
  Text.words_append_separators (isSlash_of_mem_slashes count) path

/-- Several slashes between two paths are one. -/
theorem segments_append_slashes_append (before after : List Char) (count : Nat) :
    segments (before ++ List.replicate (count + 1) '/' ++ after) =
      segments (before ++ '/' :: after) := by
  rw [List.replicate_succ, List.append_assoc, List.cons_append, segments_append_slash,
    segments_slashes_append, segments_append_slash]

/-- The text of a position starts with no slash. -/
theorem head?_intercalate_ne (h : IsPosition position) :
    (['/'].intercalate position).head? ≠ some '/' :=
  Text.head?_intercalate_ne h

/-- Nor does it end with one. -/
theorem getLast?_intercalate_ne (h : IsPosition position) :
    (['/'].intercalate position).getLast? ≠ some '/' :=
  Text.getLast?_intercalate_ne h

/-! ## How far a walk leads -/

/-- A way through directories: some levels up, and then down into some segments. -/
structure Way where
  up : Nat
  down : List (List Char)
  deriving DecidableEq, Repr

namespace Way

/-- The way with a component in front of it. -/
def after (component : List Char) (way : Way) : Way :=
  if component = [] ∨ component = ['.'] then way
  else if component = ['.', '.'] then { way with up := way.up + 1 }
  else
    match way.up with
    | 0 => { way with down := component :: way.down }
    | levels + 1 => { way with up := levels }

/-- The way that some components make together. -/
def ofComponents (components : List (List Char)) : Way :=
  components.foldr after ⟨0, []⟩

/-- Where a way leads.  There is no way up from the root. -/
def leadFrom (way : Way) (position : List (List Char)) : List (List Char) :=
  position.rdrop way.up ++ way.down

/-- **A component in front is a step ahead.** -/
theorem leadFrom_after (component : List Char) (way : Way) (position : List (List Char)) :
    (way.after component).leadFrom position = way.leadFrom (step position component) := by
  obtain ⟨up, down⟩ := way
  unfold after step leadFrom
  split
  · rfl
  · split
    · have hone : position.dropLast = position.rdrop 1 := List.dropLast_eq_take
      rw [hone, List.rdrop_add, Nat.add_comm 1 up]
    · cases up with
      | zero => rw [List.rdrop_zero, List.rdrop_zero, List.append_assoc, List.singleton_append]
      | succ levels => rw [List.rdrop_concat_succ]

end Way

/-- **Where a walk leads**: up as far as its path leads, but not above the root, and from there
down. -/
theorem walk_eq_leadFrom (position : List (List Char)) (path : List Char) :
    walk position path = (Way.ofComponents (Text.fields (· = '/') path)).leadFrom position := by
  unfold walk
  induction Text.fields (· = '/') path generalizing position with
  | nil =>
    rw [List.foldl_nil, Way.ofComponents, List.foldr_nil, Way.leadFrom, List.rdrop_zero,
      List.append_nil]
  | cons component rest ih =>
    rw [List.foldl_cons, ih, ← Way.leadFrom_after]
    rfl

/-- The first step leads out, the second takes back the name in front of it. -/
example : Way.ofComponents (Text.fields (· = '/') "../a/.././b.md".toList) =
    ⟨1, ["b.md".toList]⟩ := by
  decide

end Rendition.Link
