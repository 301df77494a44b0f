import Mathlib.Data.List.Basic

/-!
# Updates whose order does not matter

A state takes in updates one after the other.  If two updates may be swapped and
an update may be repeated, then the state after a list of updates depends only
on which updates occur in the list: not on their order, and not on how often.

`OrderFree` states the two conditions on the states of an invariant and for the
updates that are admitted, and `OrderFree.foldl_eq` is the consequence.
-/

variable {State Update : Type*} {f : State → Update → State} {I : State → Prop}
  {ok : Update → Prop} {s : State} {xs ys : List Update}

/-- Admitted updates may be swapped and repeated. -/
structure OrderFree (f : State → Update → State) (I : State → Prop) (ok : Update → Prop) :
    Prop where
  keeps : ∀ s x, I s → ok x → I (f s x)
  swap : ∀ s x y, I s → ok x → ok y → f (f s x) y = f (f s y) x
  again : ∀ s x, I s → ok x → f (f s x) x = f s x

namespace OrderFree

/-- **A fold keeps what each of its steps keeps.** -/
theorem foldl_keeps (h : OrderFree f I ok) (hs : I s) (hxs : ∀ x ∈ xs, ok x) :
    I (xs.foldl f s) := by
  induction xs generalizing s with
  | nil => exact hs
  | cons x rest ih =>
      obtain ⟨hx, hrest⟩ := List.forall_mem_cons.mp hxs
      exact ih (h.keeps s x hs hx) hrest

/-- An update may be taken in before or after a list of updates. -/
theorem foldl_swap (h : OrderFree f I ok) (hs : I s) {x : Update} (hx : ok x)
    (hxs : ∀ y ∈ xs, ok y) : xs.foldl f (f s x) = f (xs.foldl f s) x := by
  induction xs generalizing s with
  | nil => rfl
  | cons y rest ih =>
      obtain ⟨hy, hrest⟩ := List.forall_mem_cons.mp hxs
      rw [List.foldl_cons, List.foldl_cons, h.swap s x y hs hx hy]
      exact ih (h.keeps s y hs hy) hrest

/-- An update of the list leaves no trace when it comes once more. -/
theorem foldl_again (h : OrderFree f I ok) (hs : I s) {x : Update} (hmem : x ∈ xs)
    (hxs : ∀ y ∈ xs, ok y) : f (xs.foldl f s) x = xs.foldl f s := by
  induction xs generalizing s with
  | nil => simp at hmem
  | cons y rest ih =>
      obtain ⟨hy, hrest⟩ := List.forall_mem_cons.mp hxs
      rcases List.mem_cons.mp hmem with rfl | hmem
      · rw [List.foldl_cons, h.foldl_swap hs hy hrest]
        exact h.again _ x (h.foldl_keeps hs hrest) hy
      · exact ih (h.keeps s y hs hy) hmem hrest

/-- Two lists of updates may be taken in one after the other in either order. -/
theorem foldl_comm (h : OrderFree f I ok) (hs : I s) (hxs : ∀ x ∈ xs, ok x)
    (hys : ∀ y ∈ ys, ok y) : ys.foldl f (xs.foldl f s) = xs.foldl f (ys.foldl f s) := by
  induction xs generalizing s with
  | nil => rfl
  | cons x rest ih =>
      obtain ⟨hx, hrest⟩ := List.forall_mem_cons.mp hxs
      rw [List.foldl_cons, List.foldl_cons, ih (h.keeps s x hs hx) hrest,
        h.foldl_swap hs hx hys]

/-- Updates that have all been taken in before leave no trace. -/
theorem foldl_absorb (h : OrderFree f I ok) (hs : I s) (hsub : xs ⊆ ys)
    (hys : ∀ y ∈ ys, ok y) : xs.foldl f (ys.foldl f s) = ys.foldl f s := by
  induction xs with
  | nil => rfl
  | cons x rest ih =>
      obtain ⟨hx, hrest⟩ := List.cons_subset.mp hsub
      rw [List.foldl_cons, h.foldl_again hs hx hys]
      exact ih hrest

/-- **Only the set of updates matters.** -/
theorem foldl_eq (h : OrderFree f I ok) (hs : I s) (hsame : ∀ x, x ∈ xs ↔ x ∈ ys)
    (hxs : ∀ x ∈ xs, ok x) : xs.foldl f s = ys.foldl f s := by
  have hys : ∀ y ∈ ys, ok y := fun y hy => hxs y ((hsame y).mpr hy)
  calc xs.foldl f s
      = ys.foldl f (xs.foldl f s) :=
        (h.foldl_absorb hs (fun y hy => (hsame y).mpr hy) hxs).symm
    _ = xs.foldl f (ys.foldl f s) := h.foldl_comm hs hxs hys
    _ = ys.foldl f s := h.foldl_absorb hs (fun x hx => (hsame x).mp hx) hys

end OrderFree
