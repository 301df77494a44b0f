import ByteStacker.Transition

/-!
# What can still happen

`PossiblyBy step allowed s Q` says that some events, all of them of the allowed kind, lead from
`s` to a state with `Q`; for `Possibly step s Q` any events will do.  Proved for every reachable
state it says that the system never gets stuck short of `Q`, and `allowed` says what it takes to
get there.  Such facts are put together one event after the other, and carried from a part to the
whole by `Possibly.lift`.
-/

namespace Transition

variable {State Event Whole WholeEvent : Type*}

/-- Some allowed events lead from the state to one with the property. -/
def PossiblyBy (step : State → Event → Option State) (allowed : Event → Prop) (s : State)
    (Q : State → Prop) : Prop :=
  ∃ es s', run step s es = some s' ∧ (∀ e ∈ es, allowed e) ∧ Q s'

/-- Some events lead from the state to one with the property. -/
abbrev Possibly (step : State → Event → Option State) (s : State) (Q : State → Prop) : Prop :=
  PossiblyBy step (fun _ => True) s Q

namespace PossiblyBy

variable {step : State → Event → Option State} {allowed : Event → Prop} {s m : State}
  {Q R : State → Prop}

/-- The property may hold already. -/
theorem now (h : Q s) : PossiblyBy step allowed s Q := ⟨[], s, rfl, by simp, h⟩

/-- **One event first.** -/
theorem after {e : Event} (hallowed : allowed e) (hstep : step s e = some m)
    (h : PossiblyBy step allowed m Q) : PossiblyBy step allowed s Q := by
  obtain ⟨es, s', hrun, hes, hQ⟩ := h
  exact ⟨e :: es, s', run_cons.mpr ⟨m, hstep, hrun⟩, List.forall_mem_cons.mpr ⟨hallowed, hes⟩, hQ⟩

/-- **One stage after the other.** -/
theorem bind (h : PossiblyBy step allowed s Q) (hnext : ∀ m, Q m → PossiblyBy step allowed m R) :
    PossiblyBy step allowed s R := by
  obtain ⟨es, m, hrun, hes, hQ⟩ := h
  induction es generalizing s with
  | nil =>
      cases hrun
      exact hnext _ hQ
  | cons e rest ih =>
      obtain ⟨u, hu, hrest⟩ := run_cons.mp hrun
      obtain ⟨he, hothers⟩ := List.forall_mem_cons.mp hes
      exact (ih hrest hothers).after he hu

/-- What follows from the property is possible too. -/
theorem mono (h : PossiblyBy step allowed s Q) (hQ : ∀ m, Q m → R m) :
    PossiblyBy step allowed s R :=
  h.bind fun m hm => now (hQ m hm)

end PossiblyBy

namespace Possibly

variable {step : State → Event → Option State} {s m : State} {Q : State → Prop}

/-- One event first, of any kind. -/
theorem after {e : Event} (hstep : step s e = some m) (h : Possibly step m Q) :
    Possibly step s Q :=
  PossiblyBy.after trivial hstep h

/-- Any list of events will do. -/
theorem of_run {es : List Event} (hrun : run step s es = some m) (h : Q m) : Possibly step s Q :=
  ⟨es, m, hrun, fun _ _ => trivial, h⟩

/-- **From a part to the whole.**  If every event of the part is an allowed one of the whole,
what is possible for the part is possible for the whole. -/
theorem lift {wholeStep : Whole → WholeEvent → Option Whole} {allowed : WholeEvent → Prop}
    {P : State → Whole → Prop}
    (hstep : ∀ s u e s', P s u → step s e = some s' →
      ∃ e' u', allowed e' ∧ wholeStep u e' = some u' ∧ P s' u')
    (h : Possibly step s Q) {u : Whole} (hu : P s u) :
    PossiblyBy wholeStep allowed u fun u' => ∃ s', P s' u' ∧ Q s' := by
  obtain ⟨es, last, hrun, -, hQ⟩ := h
  induction es generalizing s u with
  | nil =>
      cases hrun
      exact .now ⟨_, hu, hQ⟩
  | cons e rest ih =>
      obtain ⟨m, hm, hrest⟩ := run_cons.mp hrun
      obtain ⟨e', u', hallowed, hu', hpart⟩ := hstep s u e m hu hm
      exact (ih hpart hrest).after hallowed hu'

end Possibly

end Transition
