import ByteStacker.Transition

/-!
# Simulation

A system does what a simpler machine says it is for.  `matched` names the events
of the machine a step of the system stands for: none, one or several, and they may
depend on the state.  Under `Simulation` every admitted step is followed by these
events of the machine, in states that stay related; `Simulation.run` carries this
to runs.
-/

namespace Transition

variable {State Event Spec SpecEvent : Type*}

/-- Related states stay related over an admitted step and the events it stands for. -/
structure Simulation (step : State → Event → Option State) (ok : State → Event → Prop)
    (machine : Spec → SpecEvent → Option Spec) (matched : State → Event → List SpecEvent)
    (Related : Spec → State → Prop) : Prop where
  step : ∀ {a s e s'}, Related a s → ok s e → step s e = some s' →
    ∃ a', run machine a (matched s e) = some a' ∧ Related a' s'

variable {step : State → Event → Option State} {ok : State → Event → Prop}
  {machine : Spec → SpecEvent → Option Spec} {matched : State → Event → List SpecEvent}
  {Related : Spec → State → Prop}

/-- A run in two parts is the second part after the first. -/
theorem run_append {s : State} {es fs : List Event} :
    run step s (es ++ fs) = (run step s es).bind fun m => run step m fs := by
  induction es generalizing s with
  | nil => rfl
  | cons e rest ih =>
      rw [List.cons_append, run, run, Option.bind_assoc]
      exact congrArg (step s e).bind (funext fun m => ih)

/-- **Simulation of runs.**  The events the steps of a run stand for are a run of the
machine, to a related state. -/
theorem Simulation.run (h : Simulation step ok machine matched Related) {a : Spec}
    {s s' : State} {es : List Event} (hs : Related a s)
    (hok : Always step (fun s e _ => ok s e) s es) (hrun : run step s es = some s') :
    ∃ a', Transition.run machine a (collect step matched s es) = some a' ∧ Related a' s' := by
  induction es generalizing a s with
  | nil =>
      cases hrun
      exact ⟨a, rfl, hs⟩
  | cons e rest ih =>
      obtain ⟨m, hm, hrest⟩ := run_cons.mp hrun
      obtain ⟨hoke, htail⟩ := hok m hm
      obtain ⟨b, hb, hbm⟩ := h.step hs hoke hm
      obtain ⟨a', ha', hlast⟩ := ih hbm htail hrest
      refine ⟨a', ?_, hlast⟩
      rw [collect_cons hm, run_append, hb]
      exact ha'

end Transition
