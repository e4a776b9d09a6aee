import Mathlib.Logic.Function.Iterate

/-!
# Loops over trees

A loop over the nodes of a tree may keep the subtrees that are still to be visited on a stack.
Each round takes the top off the stack, visits it and pushes the trees below it
(`Worklist.round`).  What such a loop visits is known beforehand: if the nodes of every tree are
listed as the tree itself and then those of the trees that it pushes, the last one first, then so
many rounds have visited so many nodes of the list, and left the others
(`Worklist.iterate_round`).  The stack may get longer in every round, but the list gets shorter.
So the loop ends, after as many rounds as there are nodes and not before
(`Worklist.endsAfter`).
-/

namespace Rendition

/-- A loop over trees: what has come of those that have been visited, and a stack of those that
are still to be visited, with its top at the end. -/
structure Worklist (α β : Type) where
  result : β
  stack : List α

namespace Worklist

variable {α β : Type} {visit : β → α → β} {push : α → List α}

/-- One round of the loop, which does nothing when the stack is empty. -/
def round (visit : β → α → β) (push : α → List α) (loop : Worklist α β) : Worklist α β :=
  match loop.stack.getLast? with
  | none => loop
  | some tree => ⟨visit loop.result tree, loop.stack.dropLast ++ push tree⟩

/-- The loop ends after so many rounds, and not before, with a result. -/
structure EndsAfter (visit : β → α → β) (push : α → List α) (loop : Worklist α β) (rounds : Nat)
    (result : β) : Prop where
  ends : ∀ count, ((round visit push)^[count] loop).stack = [] ↔ rounds ≤ count
  result : ((round visit push)^[rounds] loop).result = result

/-- The nodes that are still to be visited, if the nodes of trees are listed in this way. -/
def pending (listing : α → List α) (loop : Worklist α β) : List α :=
  loop.stack.reverse.flatMap listing

theorem round_concat (result : β) (stack : List α) (tree : α) :
    round visit push ⟨result, stack ++ [tree]⟩ = ⟨visit result tree, stack ++ push tree⟩ := by
  simp only [round, List.getLast?_concat, List.dropLast_concat]

section Listing

variable {listing : α → List α}
  (hlisting : ∀ tree, listing tree = tree :: (push tree).reverse.flatMap listing)

include hlisting

/-- The stack is empty when no node is left. -/
theorem stack_eq_nil_iff (loop : Worklist α β) :
    loop.stack = [] ↔ loop.pending listing = [] := by
  constructor
  · intro hstack
    rw [pending, hstack]
    rfl
  · intro hpending
    obtain ⟨result, stack⟩ := loop
    rcases List.eq_nil_or_concat stack with rfl | ⟨below, top, rfl⟩
    · rfl
    · rw [pending, List.concat_eq_append, List.reverse_concat, List.flatMap_cons,
        hlisting] at hpending
      cases hpending

/-- **A round visits the first of the nodes that are left.** -/
theorem round_spec (visit : β → α → β) (loop : Worklist α β) :
    (round visit push loop).result = ((loop.pending listing).take 1).foldl visit loop.result ∧
      (round visit push loop).pending listing = (loop.pending listing).drop 1 := by
  obtain ⟨result, stack⟩ := loop
  rcases List.eq_nil_or_concat stack with rfl | ⟨below, top, rfl⟩
  · exact ⟨rfl, rfl⟩
  · have hpending : pending listing (⟨result, below ++ [top]⟩ : Worklist α β) =
        top :: ((push top).reverse.flatMap listing ++ below.reverse.flatMap listing) := by
      rw [pending, List.reverse_concat, List.flatMap_cons, hlisting, List.cons_append]
    rw [List.concat_eq_append, round_concat, hpending]
    refine ⟨rfl, ?_⟩
    rw [pending, List.reverse_append, List.flatMap_append]
    rfl

/-- **Rounds visit the nodes one after another.** -/
theorem iterate_round (visit : β → α → β) (count : Nat) (loop : Worklist α β) :
    ((round visit push)^[count] loop).result =
        ((loop.pending listing).take count).foldl visit loop.result ∧
      ((round visit push)^[count] loop).pending listing = (loop.pending listing).drop count := by
  induction count generalizing loop with
  | zero => exact ⟨rfl, rfl⟩
  | succ count ih =>
    obtain ⟨hresult, hpending⟩ := round_spec hlisting visit loop
    obtain ⟨hresults, hleft⟩ := ih (round visit push loop)
    rw [Function.iterate_succ_apply, hresults, hleft, hresult, hpending, ← List.foldl_append,
      List.drop_drop, Nat.add_comm count 1, List.take_add]
    exact ⟨rfl, rfl⟩

/-- **The loop over a tree ends** when it has visited the nodes of the tree. -/
theorem endsAfter (visit : β → α → β) (start : β) (tree : α) :
    EndsAfter visit push ⟨start, [tree]⟩ (listing tree).length
      ((listing tree).foldl visit start) := by
  have hpending : pending listing (⟨start, [tree]⟩ : Worklist α β) = listing tree :=
    List.flatMap_singleton listing tree
  constructor
  · intro count
    rw [stack_eq_nil_iff hlisting, (iterate_round hlisting visit count _).2, hpending,
      List.drop_eq_nil_iff]
  · rw [(iterate_round hlisting visit _ _).1, hpending, List.take_length]

end Listing

/-- A loop that pushes children from the last to the first visits them from the first to the last. -/
theorem endsAfter_reverse {children listing : α → List α}
    (hlisting : ∀ tree, listing tree = tree :: (children tree).flatMap listing)
    (visit : β → α → β) (start : β) (tree : α) :
    EndsAfter visit (fun tree => (children tree).reverse) ⟨start, [tree]⟩ (listing tree).length
      ((listing tree).foldl visit start) := by
  refine endsAfter (fun tree => ?_) visit start tree
  rw [List.reverse_reverse]
  exact hlisting tree

end Worklist
end Rendition
