import Mathlib.Data.List.Basic

/-!
# Runs of a partial step function

A system is given by a step function that answers `none` where an event is
not enabled.  This file fixes the two views of its runs the rest of the
development uses.

* `Reach step ok init` is the set of states reachable from `init` by steps
  that all meet the side condition `ok`; `Reach.invariant` is the induction
  over such a run, packaged once.
* `run step s es` replays a list of events.  `Always` says that a property of
  single transitions holds at every transition of the list, `collect` gathers
  what can be read off its transitions, `record` keeps a book of them, and
  `Reach.of_run` connects the two views.
-/

namespace Transition

variable {State Event : Type*}

/-- States reachable from `init` when every step taken meets `ok`. -/
inductive Reach (step : State → Event → Option State)
    (ok : State → Event → Prop) (init : State → Prop) : State → Prop
  | start {s : State} (h : init s) : Reach step ok init s
  | next {s s' : State} {e : Event} (hs : Reach step ok init s)
      (hok : ok s e) (hstep : step s e = some s') : Reach step ok init s'

/-- The state after the events of a list, if each is enabled in its turn. -/
def run (step : State → Event → Option State) : State → List Event → Option State
  | s, [] => some s
  | s, e :: es => (step s e).bind fun s' => run step s' es

/-- `P` holds of every transition the events of the list take. -/
def Always (step : State → Event → Option State)
    (P : State → Event → State → Prop) : State → List Event → Prop
  | _, [] => True
  | s, e :: es => ∀ s', step s e = some s' → P s e s' ∧ Always step P s' es

/-- What `f` reads off the transitions of a list, in order. -/
def collect {α : Type*} (step : State → Event → Option State)
    (f : State → Event → List α) : State → List Event → List α
  | _, [] => []
  | s, e :: es => f s e ++ (step s e).elim [] fun m => collect step f m es

/-- A book kept next to the run: `note` enters what a transition does. -/
def record {Book : Type*} (step : State → Event → Option State)
    (note : State → Event → Book → Book) : State → Book → List Event → Book
  | _, b, [] => b
  | s, b, e :: es => (step s e).elim b fun m => record step note m (note s e b) es

/-- The run and its book as one system. -/
def noted {Book : Type*} (step : State → Event → Option State)
    (note : State → Event → Book → Book) (p : State × Book) (e : Event) : Option (State × Book) :=
  (step p.1 e).map fun m => (m, note p.1 e p.2)

variable {step : State → Event → Option State} {ok : State → Event → Prop}
  {init : State → Prop}

instance decidableAlways {P : State → Event → State → Prop} [∀ s e s', Decidable (P s e s')] :
    ∀ s es, Decidable (Always step P s es)
  | _, [] => isTrue trivial
  | s, e :: es =>
    match h : step s e with
    | none => isTrue fun s' hs' => absurd (h.symm.trans hs') (by simp)
    | some m =>
      have := decidableAlways (P := P) m es
      if hm : P s e m ∧ Always step P m es then
        isTrue fun s' hs' => Option.some.inj (h.symm.trans hs') ▸ hm
      else isFalse fun hall => hm (hall m h)

/-- **The run rule.**  What holds initially and survives every admitted step
holds of every reachable state. -/
theorem Reach.invariant {I : State → Prop} {s : State}
    (h : Reach step ok init s) (hinit : ∀ s, init s → I s)
    (hstep : ∀ s e s', Reach step ok init s → I s → ok s e →
      step s e = some s' → I s') : I s := by
  induction h with
  | start h => exact hinit _ h
  | next hs hok hst ih => exact hstep _ _ _ hs ih hok hst

/-- A run of an event and a list is a step and a run. -/
theorem run_cons {s : State} {e : Event} {es : List Event} {s' : State} :
    run step s (e :: es) = some s' ↔
      ∃ m, step s e = some m ∧ run step m es = some s' := by
  simp [run, Option.bind_eq_some_iff]

/-- What a run collects is what its first step does and what the rest collects. -/
theorem collect_cons {α : Type*} {f : State → Event → List α} {s m : State} {e : Event}
    {es : List Event} (hm : step s e = some m) :
    collect step f s (e :: es) = f s e ++ collect step f m es := by
  simp [collect, hm]

/-- **The rule for a list of events.**  What survives every step holds in the
state after the list. -/
theorem run_invariant {I : State → Prop} {s s' : State} {es : List Event}
    (hstep : ∀ s e s', I s → step s e = some s' → I s') (hI : I s)
    (hrun : run step s es = some s') : I s' := by
  induction es generalizing s with
  | nil =>
      cases hrun
      exact hI
  | cons e es ih =>
      obtain ⟨m, hm, hrest⟩ := run_cons.mp hrun
      exact ih (hstep s e m hI hm) hrest

/-- **The rule for histories.**  What every step keeps of the state and the events up to
it, the newest first, holds of the last state and all events. -/
theorem run_history {I : State → List Event → Prop} {s s' : State} {past es : List Event}
    (hstep : ∀ s past e s', I s past → step s e = some s' → I s' (e :: past)) (hI : I s past)
    (hrun : run step s es = some s') : I s' (es.reverse ++ past) := by
  induction es generalizing s past with
  | nil =>
      cases hrun
      exact hI
  | cons e es ih =>
      obtain ⟨m, hm, hrest⟩ := run_cons.mp hrun
      have hlast := ih (hstep s past e m hI hm) hrest
      rw [List.reverse_cons, List.append_assoc]
      exact hlast

/-- **The rule for a book.**  What every step keeps of the state and its book
holds of the last state and the whole book. -/
theorem record_invariant {Book : Type*} {note : State → Event → Book → Book}
    {I : State → Book → Prop} {s s' : State} {b : Book} {es : List Event}
    (hstep : ∀ s b e s', I s b → step s e = some s' → I s' (note s e b)) (hI : I s b)
    (hrun : run step s es = some s') : I s' (record step note s b es) := by
  induction es generalizing s b with
  | nil =>
      cases hrun
      exact hI
  | cons e es ih =>
      obtain ⟨m, hm, hrest⟩ := run_cons.mp hrun
      simp only [record, hm, Option.elim_some]
      exact ih (hstep s b e m hI hm) hrest

/-- **Replaying a list is a run.**  If every transition of the list meets
`ok`, the final state is reachable under `ok`. -/
theorem Reach.of_run {s s' : State} {es : List Event}
    (hs : Reach step ok init s) (hok : Always step (fun s e _ => ok s e) s es)
    (hrun : run step s es = some s') : Reach step ok init s' := by
  induction es generalizing s with
  | nil =>
      have : s = s' := by simpa [run] using hrun
      exact this ▸ hs
  | cons e es ih =>
      obtain ⟨m, hm, hrest⟩ := run_cons.mp hrun
      obtain ⟨hme, htail⟩ := hok m hm
      exact ih (.next hs hme hm) htail hrest

/-- A condition on the events of a list holds along the list. -/
theorem always_of_mem {P : Event → Prop} {s : State} {es : List Event}
    (h : ∀ e ∈ es, P e) : Always step (fun _ e _ => P e) s es := by
  induction es generalizing s with
  | nil => trivial
  | cons e es ih =>
      exact fun s' _ => ⟨h e List.mem_cons_self, ih fun f hf => h f (List.mem_cons_of_mem e hf)⟩

/-- Two properties of the transitions of a list hold together. -/
theorem always_and {P Q : State → Event → State → Prop} {s : State} {es : List Event}
    (hP : Always step P s es) (hQ : Always step Q s es) :
    Always step (fun s e s' => P s e s' ∧ Q s e s') s es := by
  induction es generalizing s with
  | nil => trivial
  | cons e es ih =>
      intro s' hs'
      obtain ⟨hPs, hPtail⟩ := hP s' hs'
      obtain ⟨hQs, hQtail⟩ := hQ s' hs'
      exact ⟨⟨hPs, hQs⟩, ih hPtail hQtail⟩

/-- **Exact conditions.**  If, in the states of an invariant, a transition has
`P` exactly when it has `Q`, and `Q` keeps the invariant, then `P` holds along
a list exactly when `Q` does. -/
theorem always_iff {I : State → Prop} {P Q : State → Event → State → Prop}
    (hiff : ∀ s e s', I s → step s e = some s' → (P s e s' ↔ Q s e s'))
    (hpres : ∀ s e s', I s → Q s e s' → step s e = some s' → I s')
    {s : State} {es : List Event} (hI : I s) : Always step P s es ↔ Always step Q s es := by
  induction es generalizing s with
  | nil => exact Iff.rfl
  | cons e es ih =>
      constructor
      · intro hP s' hs'
        obtain ⟨hPs, htail⟩ := hP s' hs'
        have hQ := (hiff s e s' hI hs').mp hPs
        exact ⟨hQ, (ih (hpres s e s' hI hQ hs')).mp htail⟩
      · intro hQ s' hs'
        obtain ⟨hQs, htail⟩ := hQ s' hs'
        exact ⟨(hiff s e s' hI hs').mpr hQs, (ih (hpres s e s' hI hQs hs')).mpr htail⟩

/-- **Exact conditions on a book.**  If, from a state that agrees with its book, a
step leads to such a state exactly when it has `Q`, then all states along a list
agree with the book exactly when all its transitions have `Q`.  The condition may
look into the book, so it may speak of what has happened so far. -/
theorem record_iff {Book : Type*} {note : State → Event → Book → Book} {J : State → Prop}
    {I : State → Book → Prop} {Q : State → Book → Event → Prop}
    (hpres : ∀ s e s', J s → step s e = some s' → J s')
    (hiff : ∀ s b e s', J s → I s b → step s e = some s' → (I s' (note s e b) ↔ Q s b e))
    {s : State} {b : Book} {es : List Event} (hJ : J s) (hI : I s b) :
    (∀ front s', front <+: es → run step s front = some s' → I s' (record step note s b front)) ↔
      Always (noted step note) (fun p e _ => Q p.1 p.2 e) (s, b) es := by
  induction es generalizing s b with
  | nil =>
      refine ⟨fun _ => trivial, ?_⟩
      intro _ front s' hfront hrun
      obtain rfl := List.prefix_nil.mp hfront
      cases hrun
      exact hI
  | cons e es ih =>
      have hrecord : ∀ {m front}, step s e = some m →
          record step note s b (e :: front) = record step note m (note s e b) front := by
        intro m front hm
        simp [record, hm]
      constructor
      · intro hall p hp
        obtain ⟨m, hm, rfl⟩ := Option.map_eq_some_iff.mp hp
        have hfirst : I m (note s e b) := by
          have hone := hall [e] m (List.prefix_append [e] es) (run_cons.mpr ⟨m, hm, rfl⟩)
          rwa [hrecord hm] at hone
        refine ⟨(hiff s b e m hJ hI hm).mp hfirst, ?_⟩
        refine (ih (hpres s e m hJ hm) hfirst).mp fun front s' hfront hrun => ?_
        rw [← hrecord hm]
        exact hall (e :: front) s' (List.cons_prefix_cons.mpr ⟨rfl, hfront⟩)
          (run_cons.mpr ⟨m, hm, hrun⟩)
      · intro hall front s' hfront hrun
        cases front with
        | nil =>
            cases hrun
            exact hI
        | cons e' front =>
            obtain ⟨rfl, hrest⟩ := List.cons_prefix_cons.mp hfront
            obtain ⟨m, hm, htail⟩ := run_cons.mp hrun
            obtain ⟨hQ, hrests⟩ := hall (m, note s e' b) (Option.map_eq_some_iff.mpr ⟨m, hm, rfl⟩)
            rw [hrecord hm]
            exact (ih (hpres s e' m hJ hm) ((hiff s b e' m hJ hI hm).mpr hQ)).mpr hrests
              front s' hrest htail

/-- **Events that leave a mark.**  What an event of the list establishes and
every admitted step keeps holds at the end of the list. -/
theorem holds_of_mem {I Q : State → Prop} {e₀ : Event}
    (hpres : ∀ s e s', I s → ok s e → step s e = some s' → I s')
    (hmark : ∀ s s', I s → ok s e₀ → step s e₀ = some s' → Q s')
    (hkeep : ∀ s e s', I s → Q s → ok s e → step s e = some s' → Q s')
    {s s' : State} {es : List Event} (hI : I s)
    (hok : Always step (fun s e _ => ok s e) s es) (hrun : run step s es = some s')
    (h : Q s ∨ e₀ ∈ es) : Q s' := by
  induction es generalizing s with
  | nil =>
      have heq : s = s' := by simpa [run] using hrun
      have hQ : Q s := by simpa using h
      exact heq ▸ hQ
  | cons e es ih =>
      obtain ⟨m, hm, hrest⟩ := run_cons.mp hrun
      obtain ⟨hoke, htail⟩ := hok m hm
      refine ih (hpres s e m hI hoke hm) htail hrest ?_
      rcases h with hQ | hmem
      · exact Or.inl (hkeep s e m hI hQ hoke hm)
      · rcases List.mem_cons.mp hmem with rfl | hmem
        · exact Or.inl (hmark s m hI hoke hm)
        · exact Or.inr hmem

end Transition
