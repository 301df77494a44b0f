import Mathlib.Data.List.Basic
import Mathlib.Data.List.Infix
import Mathlib.Data.List.Nodup

/-!
# Numbered streams

A sender cuts a stream into pieces and numbers them `num 0`, `num 1`, …; a
receiver collects numbered pieces and puts them out in number order.  A list of
numbered pieces is `Enumerated` when its numbers are exactly those, in order.

The numbering may wrap around: it only has to be injective up to the length of
the sender's list.  `Enumerated.prefix_of_mem` is the reassembly fact: an
enumerated list all of whose elements occur in another enumerated list is a
prefix of it.  No order of arrival, loss or repetition appears in it.
-/

variable {ι α : Type*}

/-- The numbers of the list are `num 0, num 1, …` in order. -/
def Enumerated (num : Nat → ι) (xs : List (ι × α)) : Prop :=
  xs.map Prod.fst = (List.range xs.length).map num

namespace Enumerated

variable {num : Nat → ι} {xs ys : List (ι × α)}

/-- The empty list is enumerated. -/
theorem nil : Enumerated num ([] : List (ι × α)) := rfl

/-- The entry at a position carries the position's number. -/
theorem fst_getElem (h : Enumerated num xs) {p : Nat} (hp : p < xs.length) :
    xs[p].1 = num p := by
  have hget := congrArg (fun l => l[p]?) h
  simpa [hp] using hget

/-- If the contents of a piece depend on its number alone, the list is known
from its length. -/
theorem eq_map (h : Enumerated num xs) {f : ι → α} (hf : ∀ x ∈ xs, x.2 = f x.1) :
    xs = (List.range xs.length).map fun p => (num p, f (num p)) := by
  apply List.ext_getElem
  · simp
  · intro p hp _
    have hfst := h.fst_getElem hp
    have hsnd := hf _ (List.getElem_mem hp)
    rw [hfst] at hsnd
    simpa using Prod.ext hfst hsnd

/-- Appending the piece with the next number keeps a list enumerated. -/
theorem snoc (h : Enumerated num xs) {i : ι} (a : α) (hi : i = num xs.length) :
    Enumerated num (xs ++ [(i, a)]) := by
  unfold Enumerated at h ⊢
  simp [List.range_succ, h, hi]

/-- A piece in front of a list that is numbered from the next number on. -/
theorem cons (h : Enumerated (fun p => num (p + 1)) xs) {i : ι} (a : α) (hi : i = num 0) :
    Enumerated num ((i, a) :: xs) := by
  unfold Enumerated at h ⊢
  simp only [List.map_cons, List.length_cons, List.range_succ_eq_map, List.map_map, h, hi]
  rfl

/-- An element of an enumerated list sits at the position of its number. -/
theorem mem_position (h : Enumerated num xs) {x : ι × α} (hx : x ∈ xs) :
    ∃ p, ∃ hp : p < xs.length, xs[p] = x ∧ x.1 = num p := by
  obtain ⟨p, hp, rfl⟩ := List.getElem_of_mem hx
  exact ⟨p, hp, rfl, h.fst_getElem hp⟩

/-- The collected list cannot be longer than the sender's list. -/
theorem length_le_of_mem (hx : Enumerated num xs) (hy : Enumerated num ys)
    (hinj : ∀ i j, i ≤ ys.length → j ≤ ys.length → num i = num j → i = j)
    (hsub : ∀ x ∈ xs, x ∈ ys) : xs.length ≤ ys.length := by
  by_contra hlt
  have hp : ys.length < xs.length := by omega
  obtain ⟨q, hq, _, hnum⟩ := hy.mem_position (hsub _ (List.getElem_mem hp))
  rw [hx.fst_getElem hp] at hnum
  have := hinj _ _ (Nat.le_refl _) (Nat.le_of_lt hq) hnum
  omega

/-- **Reassembly.**  An enumerated list all of whose elements the sender's
enumerated list has is a prefix of the sender's list. -/
theorem prefix_of_mem (hx : Enumerated num xs) (hy : Enumerated num ys)
    (hinj : ∀ i j, i ≤ ys.length → j ≤ ys.length → num i = num j → i = j)
    (hsub : ∀ x ∈ xs, x ∈ ys) : xs <+: ys := by
  have hlen := length_le_of_mem hx hy hinj hsub
  have htake : xs = ys.take xs.length := by
    apply List.ext_getElem
    · simp [hlen]
    · intro p hp hp'
      obtain ⟨q, hq, hqx, hnum⟩ := hy.mem_position (hsub _ (List.getElem_mem hp))
      rw [hx.fst_getElem hp] at hnum
      have hpq : p = q := hinj _ _ (by omega) (by omega) hnum
      subst hpq
      simp [hqx]
  exact htake ▸ List.take_prefix _ _

/-- As long as the numbering is injective, no number occurs twice. -/
theorem nodup_fst (h : Enumerated num xs)
    (hinj : ∀ i j, i < xs.length → j < xs.length → num i = num j → i = j) :
    (xs.map Prod.fst).Nodup := by
  rw [h, List.nodup_map_iff_inj_on List.nodup_range]
  intro i hi j hj
  exact hinj i j (List.mem_range.mp hi) (List.mem_range.mp hj)

end Enumerated
