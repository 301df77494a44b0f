import Mathlib.Logic.Function.Basic
import Mathlib.Data.List.Infix
import ByteStacker.Transition

/-!
# A passage

What a tunnel is for, seen from one connection: somebody knocks at a point, the tunnel
opens the other end at the target this point leads to, and from then on what is put in
at one end is taken out at the other, in order and without loss.  The machine knows no
packets, no network and no clock.
-/

inductive Direction
  | up
  | down
  deriving DecidableEq

/-- What can be seen of a connection at its two ends. -/
inductive PassageEvent (π τ β : Type*)
  | accept (point : π)
  | dial (target : τ)
  | put (dir : Direction) (block : List β)
  | take (dir : Direction) (block : List β)
  deriving DecidableEq

/-- The two ends, and what has been put in and not yet taken out. -/
structure Passage (π τ β : Type*) where
  accepted : Option π := none
  dialled : Option τ := none
  queue : Direction → List β := fun _ => []

namespace Passage

variable {π τ β : Type*}

/-- The end a stream starts at is there. -/
def source (p : Passage π τ β) : Direction → Bool
  | .up => p.accepted.isSome
  | .down => p.dialled.isSome

/-- The end a stream leads to is there. -/
def sink (p : Passage π τ β) : Direction → Bool
  | .up => p.dialled.isSome
  | .down => p.accepted.isSome

variable [DecidableEq τ] [DecidableEq β]

/-- The machine; `route` says where a point leads to. -/
def step (route : π → Option τ) (p : Passage π τ β) : PassageEvent π τ β → Option (Passage π τ β)
  | .accept point => if p.accepted.isNone then some { p with accepted := some point } else none
  | .dial target =>
    if p.dialled.isNone ∧ p.accepted.bind route = some target then
      some { p with dialled := some target }
    else none
  | .put dir block =>
    if p.source dir then
      some { p with queue := Function.update p.queue dir (p.queue dir ++ block) }
    else none
  | .take dir block =>
    if p.sink dir ∧ block <+: p.queue dir then
      some { p with queue := Function.update p.queue dir ((p.queue dir).drop block.length) }
    else none

/-- All that was put in in a direction. -/
def putIn (dir : Direction) (es : List (PassageEvent π τ β)) : List β :=
  es.flatMap fun
    | .put d block => if d = dir then block else []
    | _ => []

/-- All that was taken out. -/
def takenOut (dir : Direction) (es : List (PassageEvent π τ β)) : List β :=
  es.flatMap fun
    | .take d block => if d = dir then block else []
    | _ => []

/-- A step takes from the front of a queue and puts at its end. -/
theorem queue_step {route : π → Option τ} {p p' : Passage π τ β} {e : PassageEvent π τ β}
    (hstep : p.step route e = some p') (dir : Direction) :
    p.queue dir ++ putIn dir [e] = takenOut dir [e] ++ p'.queue dir := by
  cases e with
  | accept point =>
      obtain ⟨_, heq⟩ := Option.ite_none_right_eq_some.mp hstep
      cases heq
      simp [putIn, takenOut]
  | dial target =>
      obtain ⟨_, heq⟩ := Option.ite_none_right_eq_some.mp hstep
      cases heq
      simp [putIn, takenOut]
  | put d block =>
      obtain ⟨_, heq⟩ := Option.ite_none_right_eq_some.mp hstep
      cases heq
      by_cases hd : d = dir
      · subst hd
        simp [putIn, takenOut]
      · simp [putIn, takenOut, hd, Function.update_of_ne (Ne.symm hd)]
  | take d block =>
      obtain ⟨⟨_, rest, hrest⟩, heq⟩ := Option.ite_none_right_eq_some.mp hstep
      cases heq
      by_cases hd : d = dir
      · subst hd
        simp [putIn, takenOut, ← hrest]
      · simp [putIn, takenOut, hd, Function.update_of_ne (Ne.symm hd)]

/-- **First in, first out.**  What was put in is what was taken out and what is left. -/
theorem fifo {route : π → Option τ} {p p' : Passage π τ β} {es : List (PassageEvent π τ β)}
    (hrun : Transition.run (step route) p es = some p') (dir : Direction) :
    p.queue dir ++ putIn dir es = takenOut dir es ++ p'.queue dir := by
  induction es generalizing p with
  | nil =>
      cases hrun
      simp [putIn, takenOut]
  | cons e rest ih =>
      obtain ⟨m, hm, hrest⟩ := Transition.run_cons.mp hrun
      have hput : putIn dir (e :: rest) = putIn dir [e] ++ putIn dir rest := by simp [putIn]
      have htaken : takenOut dir (e :: rest) = takenOut dir [e] ++ takenOut dir rest := by
        simp [takenOut]
      rw [hput, htaken, ← List.append_assoc, queue_step hm dir, List.append_assoc, ih hrest,
        List.append_assoc]

end Passage
