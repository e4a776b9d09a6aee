import Mathlib.Data.List.Induction
import Mathlib.Data.List.Sort

/-!
# Addresses in trees

The address of a tree below another one tells which child to go down to, step by step
(`Address.find?`).  The order of addresses as lists of numbers is that of a document: an address
comes before those that go on from it, and these before all that turn to a later child.

So to list the nodes of a tree, each once and in this order, is to list what is found at all
addresses at which there is something, from the least on (`Address.Lists`).  Only one list does that
(`Address.Lists.unique`), and it is the one that has the tree itself and then the nodes of its
children, one child after another (`Address.lists_find`).
-/

namespace Rendition

/-- Which child to go down to, step by step; the first one is at 0. -/
abbrev Address := List Nat

namespace Address

variable {α : Type}

/-- The tree at an address below a tree, if there is one. -/
def find? (children : α → List α) : Address → α → Option α
  | [], tree => some tree
  | index :: rest, tree => (children tree)[index]?.bind (find? children rest)

/-- The tree at an address below one of several trees, of which the first step chooses one. -/
def findAmong? (children : α → List α) (trees : List α) : Address → Option α
  | [] => none
  | index :: rest => trees[index]?.bind (find? children rest)

/-- The list has what is found at the addresses, from the least on and from each of them once. -/
def Lists (found : Address → Option α) (listed : List α) : Prop :=
  ∃ addresses : List Address,
    addresses.Pairwise (· < ·) ∧ (∀ address, address ∈ addresses ↔ (found address).isSome) ∧
      addresses.map found = listed.map some

/-- **Only one list has what is found.** -/
theorem Lists.unique {found : Address → Option α} {first second : List α}
    (hfirst : Lists found first) (hsecond : Lists found second) : first = second := by
  obtain ⟨addresses, hordered, hmem, hfound⟩ := hfirst
  obtain ⟨others, hordered', hmem', hfound'⟩ := hsecond
  have hsame : addresses = others :=
    hordered.eq_of_mem_iff hordered' fun address => (hmem address).trans (hmem' address).symm
  subst hsame
  exact List.map_injective_iff.mpr (Option.some_injective α) (hfound.symm.trans hfound')

variable {children : α → List α}

/-! ## Several trees -/

/-- The first step of an address chooses one of the trees that there are. -/
theorem eq_cons_of_findAmong {trees : List α} {address : Address}
    (h : (findAmong? children trees address).isSome) :
    ∃ index rest, address = index :: rest ∧ index < trees.length := by
  cases address with
  | nil => cases h
  | cons index rest =>
    refine ⟨index, rest, rfl, ?_⟩
    by_contra hindex
    rw [findAmong?, List.getElem?_eq_none (Nat.le_of_not_lt hindex)] at h
    cases h

theorem findAmong_concat (trees : List α) (tree : α) (index : Nat) (rest : Address) :
    findAmong? children (trees ++ [tree]) (index :: rest) =
      if index = trees.length then find? children rest tree
      else findAmong? children trees (index :: rest) := by
  split
  · rename_i hindex
    rw [hindex, findAmong?, List.getElem?_concat_length, Option.bind_some]
  · rename_i hindex
    rw [findAmong?, findAmong?]
    by_cases hlt : index < trees.length
    · rw [List.getElem?_append_left hlt]
    · rw [List.getElem?_eq_none, List.getElem?_eq_none]
      · omega
      · rw [List.length_append, List.length_singleton]
        omega

/-- In one more tree is found what an address leads to that chooses it, and nothing else. -/
theorem isSome_findAmong_concat (trees : List α) (tree : α) (address : Address) :
    (findAmong? children (trees ++ [tree]) address).isSome ↔
      (findAmong? children trees address).isSome ∨
        ∃ rest, address = trees.length :: rest ∧ (find? children rest tree).isSome := by
  cases address with
  | nil =>
    constructor
    · nofun
    · rintro (h | ⟨rest, heq, -⟩)
      · exact h
      · cases heq
  | cons index rest =>
    rw [findAmong_concat]
    by_cases hindex : index = trees.length
    · rw [if_pos hindex, hindex]
      constructor
      · intro h
        exact .inr ⟨rest, rfl, h⟩
      · rintro (h | ⟨other, heq, hother⟩)
        · obtain ⟨first, later, heq, hlt⟩ := eq_cons_of_findAmong h
          cases heq
          omega
        · cases heq
          exact hother
    · rw [if_neg hindex]
      constructor
      · exact .inl
      · rintro (h | ⟨other, heq, -⟩)
        · exact h
        · cases heq
          exact absurd rfl hindex

theorem lists_nil : Lists (findAmong? children []) [] := by
  refine ⟨[], .nil, fun address => ?_, rfl⟩
  cases address <;> simp [findAmong?]

/-- What is found in one more tree comes behind what is found in those before it. -/
theorem Lists.concat {trees listed more : List α} {tree : α}
    (htrees : Lists (findAmong? children trees) listed)
    (htree : Lists (find? children · tree) more) :
    Lists (findAmong? children (trees ++ [tree])) (listed ++ more) := by
  obtain ⟨before, hordered, hmem, hfound⟩ := htrees
  obtain ⟨inner, hordered', hmem', hfound'⟩ := htree
  have hbefore : ∀ address ∈ before, ∃ index rest, address = index :: rest ∧ index < trees.length :=
    fun address haddress => eq_cons_of_findAmong ((hmem address).mp haddress)
  refine ⟨before ++ inner.map (trees.length :: ·), ?_, fun address => ?_, ?_⟩
  · refine List.pairwise_append.mpr ⟨hordered, ?_, ?_⟩
    · exact List.pairwise_map.mpr (hordered'.imp List.cons_lt_cons_self.mpr)
    · intro address haddress other hother
      obtain ⟨index, rest, rfl, hindex⟩ := hbefore address haddress
      obtain ⟨below, -, rfl⟩ := List.mem_map.mp hother
      exact List.cons_lt_cons_iff.mpr (.inl hindex)
  · rw [List.mem_append, List.mem_map, isSome_findAmong_concat, hmem address]
    refine or_congr_right (exists_congr fun rest => ?_)
    rw [hmem' rest, and_comm, eq_comm]
  · rw [List.map_append, List.map_append, ← hfound, ← hfound', List.map_map]
    congr 1
    · refine List.map_congr_left fun address haddress => ?_
      obtain ⟨index, rest, rfl, hindex⟩ := hbefore address haddress
      rw [findAmong_concat, if_neg (Nat.ne_of_lt hindex)]
    · refine List.map_congr_left fun address _ => ?_
      rw [Function.comp_apply, findAmong_concat, if_pos rfl]

/-- A tree comes before all that is found below it. -/
theorem Lists.cons {tree : α} {listed : List α}
    (h : Lists (findAmong? children (children tree)) listed) :
    Lists (find? children · tree) (tree :: listed) := by
  obtain ⟨addresses, hordered, hmem, hfound⟩ := h
  have hcons : ∀ address ∈ addresses, ∃ index rest, address = index :: rest := by
    intro address haddress
    obtain ⟨index, rest, heq, -⟩ := eq_cons_of_findAmong ((hmem address).mp haddress)
    exact ⟨index, rest, heq⟩
  refine ⟨[] :: addresses, List.pairwise_cons.mpr ⟨?_, hordered⟩, fun address => ?_, ?_⟩
  · intro address haddress
    obtain ⟨index, rest, rfl⟩ := hcons address haddress
    exact List.nil_lt_cons index rest
  · cases address with
    | nil => exact ⟨fun _ => rfl, fun _ => List.mem_cons_self⟩
    | cons index rest =>
      rw [List.mem_cons, or_iff_right (List.cons_ne_nil index rest)]
      exact hmem (index :: rest)
  · rw [List.map_cons, List.map_cons, ← hfound]
    refine congrArg (some tree :: ·) (List.map_congr_left fun address haddress => ?_)
    obtain ⟨index, rest, rfl⟩ := hcons address haddress
    rfl

/-! ## A tree -/

section Listing

variable {listing : α → List α}

theorem lists_findAmong (trees : List α)
    (h : ∀ tree ∈ trees, Lists (find? children · tree) (listing tree)) :
    Lists (findAmong? children trees) (trees.flatMap listing) := by
  induction trees using List.reverseRecOn with
  | nil => exact lists_nil
  | append_singleton trees tree ih =>
    obtain ⟨htrees, htree⟩ := List.forall_mem_append.mp h
    rw [List.flatMap_append, List.flatMap_singleton]
    exact (ih htrees).concat (htree tree List.mem_cons_self)

/-- **The tree, and then the nodes of its children**: that is all that is found, in order. -/
theorem lists_find (hlisting : ∀ tree, listing tree = tree :: (children tree).flatMap listing)
    (tree : α) : Lists (find? children · tree) (listing tree) := by
  -- a tree has more nodes than each of its children
  induction hlength : (listing tree).length using Nat.strongRecOn generalizing tree with
  | ind length ih =>
    rw [hlisting tree]
    refine (lists_findAmong (children tree) fun child hchild => ?_).cons
    refine ih (listing child).length ?_ child rfl
    have hle : (listing child).length ≤ ((children tree).flatMap listing).length := by
      rw [List.flatMap_def]
      exact (List.sublist_flatten_of_mem (List.mem_map_of_mem hchild)).length_le
    rw [← hlength, hlisting tree, List.length_cons]
    omega

end Listing
end Address
end Rendition
