import Mathlib.Algebra.BigOperators.Group.Finset.Basic
import Mathlib.Algebra.Order.BigOperators.Group.Finset
import Mathlib.Data.Finset.Max
import Mathlib.Data.Fintype.Basic
import Mathlib.Logic.Function.Basic
import ByteStacker.Transition

/-!
# Locks taken in an order

What a function does to locks is a small program: it holds a lock over a block or touches
the data the lock guards, one after the other, in one branch or the other, for some object,
any number of times.  A thread runs one program after another, and any number of threads
run at a time; a thread that wants a lock another one holds has to wait.

If the locks have ranks and no program takes a lock while it holds one of the same or a
higher rank, threads never wait for each other in a circle: whatever they have done so far,
all of them can come to rest, `comes_to_rest`.  A recursive lock may be taken again by the
thread that holds it.  And if every program touches guarded data under its lock only, then
two threads never touch data of one lock at a time, `guarded`.
-/

/-- Taking a lock, giving it back, and touching the data it guards. -/
inductive LockAction (L : Type*)
  | acquire (l : L)
  | release (l : L)
  | touch (l : L)
  deriving DecidableEq

/-- What a function does to locks. -/
inductive LockProgram (L : Type*)
  | skip
  | touch (l : L)
  | seq (p q : LockProgram L)
  | either (p q : LockProgram L)
  | any (body : Nat → LockProgram L)
  | loop (body : LockProgram L)
  | hold (l : L) (body : LockProgram L)

namespace LockProgram

variable {L : Type*}

/-- One program after the other. -/
def block (ps : List (LockProgram L)) : LockProgram L := ps.foldr .seq .skip

/-- One of the programs, or none. -/
def choice (ps : List (LockProgram L)) : LockProgram L := ps.foldr .either .skip

/-- The actions of one run of the program. -/
inductive Runs : LockProgram L → List (LockAction L) → Prop
  | skip : Runs .skip []
  | touch (l : L) : Runs (.touch l) [.touch l]
  | seq {p q : LockProgram L} {xs ys : List (LockAction L)} (hp : Runs p xs) (hq : Runs q ys) :
      Runs (.seq p q) (xs ++ ys)
  | left {p q : LockProgram L} {xs : List (LockAction L)} (hp : Runs p xs) : Runs (.either p q) xs
  | right {p q : LockProgram L} {xs : List (LockAction L)} (hq : Runs q xs) : Runs (.either p q) xs
  | any {body : Nat → LockProgram L} {xs : List (LockAction L)} (k : Nat) (h : Runs (body k) xs) :
      Runs (.any body) xs
  | done {body : LockProgram L} : Runs (.loop body) []
  | turn {body : LockProgram L} {xs ys : List (LockAction L)} (hx : Runs body xs)
      (hy : Runs (.loop body) ys) : Runs (.loop body) (xs ++ ys)
  | hold {l : L} {body : LockProgram L} {xs : List (LockAction L)} (h : Runs body xs) :
      Runs (.hold l body) (.acquire l :: xs ++ [.release l])

end LockProgram

/-- The order: ranks, and the locks a thread may take again. -/
structure LockOrder (L : Type*) where
  rank : L → Nat
  recursive : L → Bool

namespace LockOrder

open LockProgram (Runs)

variable {L : Type*} (order : LockOrder L)

/-- A thread that holds these locks may ask for the lock. -/
def Admits (held : List L) (l : L) : Prop :=
  (l ∈ held ∧ order.recursive l = true) ∨ ∀ h ∈ held, order.rank h < order.rank l

/-- The program keeps to the order, wherever it is called with these locks held. -/
def Respects : LockProgram L → List L → Prop
  | .skip, _ => True
  | .touch l, held => l ∈ held
  | .seq p q, held => Respects p held ∧ Respects q held
  | .either p q, held => Respects p held ∧ Respects q held
  | .any body, held => ∀ k, Respects (body k) held
  | .loop body, held => Respects body held
  | .hold l body, held => order.Admits held l ∧ Respects body (l :: held)

/-- The actions keep to the order, touch what a held lock guards, and give back every lock,
the last one taken first. -/
def Keeps : List L → List (LockAction L) → Prop
  | held, [] => held = []
  | held, .acquire l :: rest => order.Admits held l ∧ Keeps (l :: held) rest
  | held, .release l :: rest => ∃ others, held = l :: others ∧ Keeps others rest
  | held, .touch l :: rest => l ∈ held ∧ Keeps held rest

variable {order}

/-- A thread without locks may ask for any lock. -/
theorem admits_nil (l : L) : order.Admits [] l := Or.inr fun _ h => absurd h List.not_mem_nil

/-- A recursive lock just taken may be taken again. -/
theorem admits_again {held : List L} {l : L} (h : order.recursive l = true) :
    order.Admits (l :: held) l := Or.inl ⟨List.mem_cons_self, h⟩

/-- A lock of higher rank than all held ones may be asked for. -/
theorem admits_above {held : List L} {l m : L} (h : order.rank l < order.rank m)
    (hheld : ∀ k ∈ held, order.rank k < order.rank m) : order.Admits (l :: held) m :=
  Or.inr (List.forall_mem_cons.mpr ⟨h, hheld⟩)

/-- A block keeps to the order if its parts do. -/
theorem respects_block {ps : List (LockProgram L)} {held : List L} :
    order.Respects (.block ps) held ↔ ∀ p ∈ ps, order.Respects p held := by
  induction ps with
  | nil => simp [LockProgram.block, Respects]
  | cons p ps ih =>
      rw [List.forall_mem_cons, ← ih]
      exact Iff.rfl

/-- So does a choice. -/
theorem respects_choice {ps : List (LockProgram L)} {held : List L} :
    order.Respects (.choice ps) held ↔ ∀ p ∈ ps, order.Respects p held := by
  induction ps with
  | nil => simp [LockProgram.choice, Respects]
  | cons p ps ih =>
      rw [List.forall_mem_cons, ← ih]
      exact Iff.rfl

/-- **A program that keeps to the order runs in it.** -/
theorem keeps_runs {p : LockProgram L} {xs rest : List (LockAction L)} (hruns : Runs p xs)
    {held : List L} (hp : order.Respects p held) (hrest : order.Keeps held rest) :
    order.Keeps held (xs ++ rest) := by
  induction hruns generalizing held rest with
  | skip => exact hrest
  | touch l => exact ⟨hp, hrest⟩
  | seq _ _ ihp ihq =>
      rw [List.append_assoc]
      exact ihp hp.1 (ihq hp.2 hrest)
  | left _ ih => exact ih hp.1 hrest
  | right _ ih => exact ih hp.2 hrest
  | any k _ ih => exact ih (hp k) hrest
  | done => exact hrest
  | turn _ _ ihx ihy =>
      rw [List.append_assoc]
      exact ihx hp (ihy hp hrest)
  | @hold l body xs _ ih =>
      rw [List.append_assoc]
      exact ⟨hp.1, ih hp.2 ⟨held, rfl, hrest⟩⟩

end LockOrder

/-! ## Threads -/

/-- The locks each thread holds, and what is left of the program it runs. -/
structure Threads (ι L : Type*) where
  held : ι → List L := fun _ => []
  rest : ι → List (LockAction L) := fun _ => []

inductive ThreadEvent (ι L : Type*)
  | start (i : ι) (actions : List (LockAction L))
  | act (i : ι)

namespace Threads

open LockProgram (Runs)

variable {ι L : Type*} [DecidableEq L]

/-- No other thread holds the lock, and the thread itself only if it may take it again. -/
def Free (order : LockOrder L) (s : Threads ι L) (i : ι) (l : L) : Prop :=
  (∀ j, j ≠ i → l ∉ s.held j) ∧ (l ∈ s.held i → order.recursive l = true)

instance [DecidableEq ι] [Fintype ι] (order : LockOrder L) (s : Threads ι L) (i : ι) (l : L) :
    Decidable (s.Free order i l) :=
  inferInstanceAs (Decidable (_ ∧ _))

variable [DecidableEq ι]

/-- The thread goes on with these locks and this rest. -/
def advance (s : Threads ι L) (i : ι) (held : List L) (rest : List (LockAction L)) :
    Threads ι L where
  held := Function.update s.held i held
  rest := Function.update s.rest i rest

omit [DecidableEq L] in
/-- The locks of the other threads stay. -/
@[simp] theorem advance_held (s : Threads ι L) (i : ι) (held : List L)
    (rest : List (LockAction L)) :
    (s.advance i held rest).held = Function.update s.held i held := rfl

omit [DecidableEq L] in
/-- So do the rests of their programs. -/
@[simp] theorem advance_rest (s : Threads ι L) (i : ι) (held : List L)
    (rest : List (LockAction L)) :
    (s.advance i held rest).rest = Function.update s.rest i rest := rfl

/-- An idle thread starts a program, a busy one takes its next action if it can. -/
def step [Fintype ι] (order : LockOrder L) (s : Threads ι L) :
    ThreadEvent ι L → Option (Threads ι L)
  | .start i actions => if s.rest i = [] then some (s.advance i (s.held i) actions) else none
  | .act i =>
    match s.rest i with
    | [] => none
    | .acquire l :: rest =>
      if s.Free order i l then some (s.advance i (l :: s.held i) rest) else none
    | .release l :: rest => some (s.advance i ((s.held i).erase l) rest)
    | .touch _ :: rest => some (s.advance i (s.held i) rest)

/-- Only runs of the given programs are started. -/
def Starts (programs : LockProgram L → Prop) : ThreadEvent ι L → Prop
  | .start _ actions => ∃ p, programs p ∧ Runs p actions
  | .act _ => True

/-- Every thread keeps to the order, and no lock has two holders. -/
structure Orderly (order : LockOrder L) (s : Threads ι L) : Prop where
  keeps : ∀ i, order.Keeps (s.held i) (s.rest i)
  exclusive : ∀ i j l, l ∈ s.held i → l ∈ s.held j → i = j

variable {order : LockOrder L} {s s' : Threads ι L}

omit [DecidableEq ι] [DecidableEq L] in
/-- Threads that hold nothing and run nothing are in order. -/
theorem orderly_start (order : LockOrder L) : Orderly order ({} : Threads ι L) :=
  ⟨fun _ => rfl, fun _ _ _ hl => absurd hl List.not_mem_nil⟩

omit [DecidableEq L] in
/-- What a thread does concerns this thread only. -/
theorem Orderly.advance (h : Orderly order s) {i : ι} {held : List L}
    {rest : List (LockAction L)} (hkeeps : order.Keeps held rest)
    (hexclusive : ∀ l ∈ held, l ∈ s.held i ∨ ∀ j, j ≠ i → l ∉ s.held j) :
    Orderly order (s.advance i held rest) := by
  have hself : (s.advance i held rest).held i = held := by simp
  have hothers : ∀ j, j ≠ i → (s.advance i held rest).held j = s.held j := by
    intro j hj
    simp [hj]
  have hforeign : ∀ j l, j ≠ i → l ∈ s.held j → l ∉ held := by
    intro j l hj hl hmem
    rcases hexclusive l hmem with hown | hfree
    · exact hj (h.exclusive j i l hl hown)
    · exact hfree j hj hl
  refine ⟨fun j => ?_, fun j k l hj hk => ?_⟩
  · by_cases heq : j = i
    · rw [heq, hself, advance_rest, Function.update_self]
      exact hkeeps
    · rw [hothers j heq, advance_rest, Function.update_of_ne heq]
      exact h.keeps j
  · by_cases hji : j = i
    · by_cases hki : k = i
      · rw [hji, hki]
      · rw [hji, hself] at hj
        rw [hothers k hki] at hk
        exact absurd hj (hforeign k l hki hk)
    · rw [hothers j hji] at hj
      by_cases hki : k = i
      · rw [hki, hself] at hk
        exact absurd hk (hforeign j l hji hj)
      · rw [hothers k hki] at hk
        exact h.exclusive j k l hj hk

section Progress

variable [Fintype ι]

/-- **Every event keeps the threads orderly.** -/
theorem Orderly.step {programs : LockProgram L → Prop} (h : Orderly order s)
    (hprograms : ∀ p, programs p → order.Respects p []) {e : ThreadEvent ι L}
    (he : Starts programs e) (hstep : s.step order e = some s') : Orderly order s' := by
  cases e with
  | start i actions =>
      obtain ⟨hidle, heq⟩ := Option.ite_none_right_eq_some.mp hstep
      cases heq
      obtain ⟨p, hp, hruns⟩ := he
      -- an idle thread has given back all its locks
      have hkept := h.keeps i
      rw [hidle] at hkept
      have hnone : s.held i = [] := hkept
      have hdone : order.Keeps [] [] := rfl
      have hnew := LockOrder.keeps_runs hruns (hprograms p hp) hdone
      rw [List.append_nil, ← hnone] at hnew
      exact h.advance hnew fun l hl => Or.inl hl
  | act i =>
      have hkept := h.keeps i
      simp only [Threads.step] at hstep
      split at hstep
      · cases hstep
      · next l rest hrest =>
          obtain ⟨⟨hfree, _⟩, heq⟩ := Option.ite_none_right_eq_some.mp hstep
          cases heq
          rw [hrest] at hkept
          refine h.advance hkept.2 fun m hm => ?_
          rcases List.mem_cons.mp hm with hnew | hold
          · exact Or.inr (hnew ▸ hfree)
          · exact Or.inl hold
      · next l rest hrest =>
          cases hstep
          rw [hrest] at hkept
          obtain ⟨others, hheld, hothers⟩ := hkept
          have herase : (s.held i).erase l = others := by rw [hheld, List.erase_cons_head]
          rw [herase]
          exact h.advance hothers fun m hm => Or.inl (hheld ▸ List.mem_cons_of_mem l hm)
      · next l rest hrest =>
          cases hstep
          rw [hrest] at hkept
          exact h.advance hkept.2 fun m hm => Or.inl hm

/-- The rank of the lock the thread asks for next. -/
def awaited (order : LockOrder L) (s : Threads ι L) (i : ι) : Nat :=
  match s.rest i with
  | .acquire l :: _ => order.rank l
  | _ => 0

/-- A busy thread that cannot go on waits for a lock that another one holds and that ranks
above all its own. -/
theorem Orderly.waits (h : Orderly order s) {i : ι} (hbusy : s.rest i ≠ [])
    (hstuck : s.step order (.act i) = none) :
    (∀ m ∈ s.held i, order.rank m < s.awaited order i) ∧
      ∃ j l, l ∈ s.held j ∧ order.rank l = s.awaited order i := by
  have hkept := h.keeps i
  unfold awaited
  simp only [Threads.step] at hstuck
  split at hstuck
  · next hidle => exact absurd hidle hbusy
  · next l rest hrest =>
      have hnot : ¬ s.Free order i l := by
        intro hfree
        rw [if_pos hfree] at hstuck
        cases hstuck
      rw [hrest] at hkept ⊢
      rcases hkept.1 with ⟨hown, hrec⟩ | hrank
      · -- nobody else holds a lock the thread holds itself, so it may take it again
        exact absurd ⟨fun j hj hl => hj (h.exclusive j i l hl hown), fun _ => hrec⟩ hnot
      · refine ⟨hrank, ?_⟩
        by_contra hnone
        refine hnot ⟨fun j _ hl => hnone ⟨j, l, hl, rfl⟩, fun hown => ?_⟩
        exact absurd (hrank l hown) (Nat.lt_irrefl _)
  · cases hstuck
  · cases hstuck

omit [DecidableEq ι] [DecidableEq L] [Fintype ι] in
/-- A thread that holds a lock is not done. -/
theorem Orderly.busy (h : Orderly order s) {i : ι} {l : L} (hl : l ∈ s.held i) :
    s.rest i ≠ [] := by
  intro hidle
  have hkept := h.keeps i
  rw [hidle] at hkept
  have hnone : s.held i = [] := hkept
  rw [hnone] at hl
  exact absurd hl List.not_mem_nil

/-- **Threads never wait in a circle.**  While some are busy, one of them can go on. -/
theorem Orderly.progress (h : Orderly order s) (hbusy : ∃ i, s.rest i ≠ []) :
    ∃ i s', s.step order (.act i) = some s' := by
  by_contra hnone
  have hwaits : ∀ i, s.rest i ≠ [] → (∀ m ∈ s.held i, order.rank m < s.awaited order i) ∧
      ∃ j l, l ∈ s.held j ∧ order.rank l = s.awaited order i := by
    intro i hi
    refine h.waits hi ?_
    cases hnext : s.step order (.act i) with
    | none => rfl
    | some s' => exact absurd ⟨i, s', hnext⟩ hnone
  -- of the busy threads take one that waits for a lock of the highest rank
  obtain ⟨start, hstart⟩ := hbusy
  obtain ⟨i, hi, hmax⟩ := Finset.exists_max_image (Finset.univ.filter fun i => s.rest i ≠ [])
    (s.awaited order) ⟨start, by simp [hstart]⟩
  obtain ⟨-, j, l, hl, hrank⟩ := hwaits i (Finset.mem_filter.mp hi).2
  have hj : s.rest j ≠ [] := h.busy hl
  have habove : s.awaited order i < s.awaited order j := by
    rw [← hrank]
    exact (hwaits j hj).1 l hl
  have hbelow := hmax j (Finset.mem_filter.mpr ⟨Finset.mem_univ j, hj⟩)
  omega

/-- How much the threads have still to do. -/
def remaining (s : Threads ι L) : Nat := ∑ i, (s.rest i).length

omit [DecidableEq L] in
/-- **An action shortens what is left to do.** -/
theorem remaining_advance (s : Threads ι L) {i : ι} {held : List L} {a : LockAction L}
    {rest : List (LockAction L)} (hrest : s.rest i = a :: rest) :
    (s.advance i held rest).remaining < s.remaining := by
  refine Finset.sum_lt_sum (fun j _ => ?_) ⟨i, Finset.mem_univ i, ?_⟩
  · by_cases heq : j = i
    · rw [heq, advance_rest, Function.update_self, hrest]
      exact Nat.le_succ _
    · rw [advance_rest, Function.update_of_ne heq]
  · rw [advance_rest, Function.update_self, hrest]
    exact Nat.lt_succ_self _

/-- Every action of a thread leaves less to do. -/
theorem remaining_act {i : ι} (hstep : s.step order (.act i) = some s') :
    s'.remaining < s.remaining := by
  simp only [Threads.step] at hstep
  split at hstep
  · cases hstep
  · next l rest hrest =>
      obtain ⟨_, heq⟩ := Option.ite_none_right_eq_some.mp hstep
      cases heq
      exact remaining_advance s hrest
  · next l rest hrest =>
      cases hstep
      exact remaining_advance s hrest
  · next l rest hrest =>
      cases hstep
      exact remaining_advance s hrest

/-- What the threads can reach when they start only runs of the given programs. -/
abbrev Reach (order : LockOrder L) (programs : LockProgram L → Prop) : Threads ι L → Prop :=
  Transition.Reach (step order) (fun _ e => Starts programs e) (· = {})

variable {programs : LockProgram L → Prop}

/-- **Every interleaving of such programs is in order.** -/
theorem orderly (hprograms : ∀ p, programs p → order.Respects p [])
    (hreach : Reach order programs s) : Orderly order s :=
  hreach.invariant (fun _ hstart => hstart ▸ orderly_start order)
    fun _ _ _ _ h he hstep => h.step hprograms he hstep

/-- **No deadlock.**  If all programs keep to the order, then from every state the threads
can reach they can all finish what they have started. -/
theorem comes_to_rest (hprograms : ∀ p, programs p → order.Respects p [])
    (hreach : Reach order programs s) :
    ∃ (acts : List ι) (s' : Threads ι L), Transition.run (step order) s (acts.map .act) = some s' ∧
      ∀ i, s'.rest i = [] := by
  induction hn : s.remaining using Nat.strong_induction_on generalizing s with
  | h n ih =>
      by_cases hbusy : ∃ i, s.rest i ≠ []
      · obtain ⟨i, m, hm⟩ := (orderly hprograms hreach).progress hbusy
        obtain ⟨acts, s', hrun, hrest⟩ :=
          ih m.remaining (hn ▸ remaining_act hm)
            (hreach.next (show Starts programs (.act i) from trivial) hm) rfl
        exact ⟨i :: acts, s', Transition.run_cons.mpr ⟨m, hm, hrun⟩, hrest⟩
      · exact ⟨[], s, rfl, fun i => by_contra fun hi => hbusy ⟨i, hi⟩⟩

/-- **One thread at a time.**  If all programs keep to the order, two threads are never
about to touch what one lock guards. -/
theorem guarded (hprograms : ∀ p, programs p → order.Respects p [])
    (hreach : Reach order programs s) {i j : ι} {l : L} {xs ys : List (LockAction L)}
    (hi : s.rest i = .touch l :: xs) (hj : s.rest j = .touch l :: ys) : i = j := by
  have horderly := orderly hprograms hreach
  have holds : ∀ {k rest}, s.rest k = .touch l :: rest → l ∈ s.held k := by
    intro k rest hk
    have hkept := horderly.keeps k
    rw [hk] at hkept
    exact hkept.1
  exact horderly.exclusive i j l (holds hi) (holds hj)

end Progress

end Threads
