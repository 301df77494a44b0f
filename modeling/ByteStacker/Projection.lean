import ByteStacker.Transition

/-!
# A party of a system, served alone

A system serves several parties with one state.  `view` is the part of the state
that belongs to one of them, `out` what a step emits for it, and `concerns` says
which events are its own.

`Projects` compares the system with a machine `act` that has the party's part
only: an event of the party is an event of the machine, every other event leaves
its part alone and emits nothing for it.  `Projects.run` carries this over to
runs: what the party sees of a run is the run of the machine on its own events.
So the party cannot tell two runs apart that agree on these (`Projects.isolated`).
-/

namespace Transition

variable {State Event View Out : Type*}

/-- A run of a machine that answers every event with what it emits. -/
def exec (act : View → Event → Option (View × List Out)) :
    View → List Event → Option (View × List Out)
  | v, [] => some (v, [])
  | v, e :: es => (act v e).bind fun r => (exec act r.1 es).map fun q => (q.1, r.2 ++ q.2)

/-- In the states of the invariant, the system is for the party what the machine is. -/
structure Projects (step : State → Event → Option State) (out : State → Event → List Out)
    (I : State → Prop) (view : State → View) (act : View → Event → Option (View × List Out))
    (concerns : Event → Prop) : Prop where
  keeps : ∀ {s e s'}, I s → step s e = some s' → I s'
  own : ∀ {s e s'}, I s → concerns e → step s e = some s' →
    act (view s) e = some (view s', out s e)
  foreign : ∀ {s e s'}, I s → ¬ concerns e → step s e = some s' →
    view s' = view s ∧ out s e = []

variable {step : State → Event → Option State} {out : State → Event → List Out}
  {I : State → Prop} {view : State → View} {act : View → Event → Option (View × List Out)}
  {concerns : Event → Prop} [DecidablePred concerns]

/-- **A run as its party sees it** is the run of the machine on the party's events. -/
theorem Projects.run (h : Projects step out I view act concerns) {s s' : State}
    {es : List Event} (hI : I s) (hrun : run step s es = some s') :
    exec act (view s) (es.filter fun e => concerns e) =
      some (view s', collect step out s es) := by
  induction es generalizing s with
  | nil =>
      cases hrun
      rfl
  | cons e es ih =>
      obtain ⟨m, hm, hrest⟩ := run_cons.mp hrun
      have htail := ih (h.keeps hI hm) hrest
      rw [collect_cons hm]
      by_cases he : concerns e
      · rw [List.filter_cons_of_pos (by simpa using he), exec, h.own hI he hm]
        simp [htail]
      · obtain ⟨hview, hout⟩ := h.foreign hI he hm
        rw [List.filter_cons_of_neg (by simpa using he), ← hview, htail, hout, List.nil_append]

/-- **Isolation.**  Two runs that agree on the events of a party, from states that
look the same to it, look the same to it to their ends. -/
theorem Projects.isolated (h : Projects step out I view act concerns) {s₁ s₂ t₁ t₂ : State}
    {es₁ es₂ : List Event} (hI₁ : I s₁) (hI₂ : I s₂) (hstart : view s₁ = view s₂)
    (hsame : (es₁.filter fun e => concerns e) = es₂.filter fun e => concerns e)
    (hrun₁ : Transition.run step s₁ es₁ = some t₁) (hrun₂ : Transition.run step s₂ es₂ = some t₂) :
    view t₁ = view t₂ ∧ collect step out s₁ es₁ = collect step out s₂ es₂ := by
  have hfirst := h.run hI₁ hrun₁
  rw [hstart, hsame, h.run hI₂ hrun₂] at hfirst
  obtain ⟨hview, hout⟩ := Prod.mk.inj (Option.some.inj hfirst)
  exact ⟨hview.symm, hout.symm⟩

end Transition
