import ByteStacker.OutLinkClose

/-!
# An established link is closed exactly once

The end of a link is coordinated by two flags and a posted check that finds
both of them down.  `closed_exactly_once` collects what the loop discipline
(`Owned`) says about it: `CloseConnect` is called at most once, only when
nothing of the two loops is in flight, nothing starts afterwards, and a link
with nothing left to happen has been closed.
-/

namespace OutLink

variable {l l' : OutLink}

/-- No read, write or idle wait of the link is in flight. -/
def Quiescent (l : OutLink) : Prop :=
  l.reads = [] ∧ l.writes = [] ∧ l.timers = []

instance (l : OutLink) : Decidable (Quiescent l) :=
  inferInstanceAs (Decidable (_ ∧ _))

/-- An established link that has been reported closed. -/
structure Over (l : OutLink) : Prop extends Owned l where
  invoked : l.closeInvoked = true
  established : l.connected = true

/-- A link reported closed has nothing of its loops in flight. -/
theorem Over.quiescent (h : Over l) : Quiescent l := by
  obtain ⟨hrp, hwp⟩ := h.closed h.invoked
  have hreads := h.reads
  rw [hrp, Bool.toNat_false] at hreads
  obtain ⟨hwrites, htimers⟩ := h.toOwned.write_ended hwp
  exact ⟨List.eq_nil_of_length_eq_zero hreads, hwrites, htimers⟩

/-- **Nothing starts after the end.**  The only thing a closed link still does
is to run closing checks that find it closed. -/
theorem over_asioStep {e : AsioEvent} {call : Option HosterCall} (h : Over l)
    (hstep : l.asioStep e = some (l', call)) :
    call = none ∧ l'.closeInvoked = true ∧ l'.started = l.started := by
  obtain ⟨hres, hcon⟩ := h.toRest.not_setup h.established
  obtain ⟨hreads, hwrites, htimers⟩ := h.quiescent
  cases asioStep_outcome hstep with
  | resolved hx => simp [hres] at hx
  | connected hx => simp [hcon] at hx
  | readDone hx hle => simp [hreads] at hx
  | readHandler hx heq => simp [hreads] at hx
  | writeDone hx hle => simp [hwrites] at hx
  | writeHandler hx => simp [hwrites] at hx
  | timerExpire hx => simp [htimers] at hx
  | timerHandler hx ht => simp [htimers] at hx
  | closeCheck hpos heq =>
      rcases checkReadyCloseProcessing_cases { l with posts := l.posts - 1 } with
        ⟨_, _, hopen, _⟩ | ⟨_, hclose⟩
      · exact absurd (h.invoked.symm.trans hopen) (by simp)
      · rw [hclose] at heq
        cases heq
        exact ⟨rfl, h.invoked, rfl⟩

/-- **No event starts anything on it.** -/
theorem over_step {e : LinkEvent} (h : Over l) (hstep : l.step e = some l') :
    Over l' ∧ l'.started = l.started := by
  have howned := owned_step h.toOwned hstep
  by_cases hasio : ∃ a, e = .asio a
  · obtain ⟨a, rfl⟩ := hasio
    obtain ⟨⟨m, call⟩, hm, rfl⟩ := Option.map_eq_some_iff.mp hstep
    obtain ⟨_, hinvoked, hstarted⟩ := over_asioStep h hm
    exact ⟨⟨howned, hinvoked, connected_asioStep h.toOwned hm h.established⟩, hstarted⟩
  · obtain ⟨hc, _, _, hci, _, hstarted, _⟩ := setup_call (fun a ha => hasio ⟨a, ha⟩) hstep
    exact ⟨⟨howned, hci.trans h.invoked, hc.trans h.established⟩, hstarted⟩

/-- Nor does a run. -/
theorem over_run {es : List LinkEvent} (h : Over l)
    (hrun : Transition.run step l es = some l') : Over l' ∧ l'.started = l.started := by
  refine Transition.run_invariant (I := fun m => Over m ∧ m.started = l.started) ?_ ⟨h, rfl⟩ hrun
  intro m e m' hm hstep
  obtain ⟨hover, hsame⟩ := hm
  obtain ⟨hover', hstarted⟩ := over_step hover hstep
  exact ⟨hover', hstarted.trans hsame⟩

/-- **The call of `CloseConnect`.**  An established link makes it when both
loops have ended, and is over then. -/
theorem Owned.closes (h : Owned l) (hconnected : l.connected = true) {e : AsioEvent}
    {cnt : ConnectID} (hstep : l.asioStep e = some (l', some (.closeConnect cnt))) :
    l.closeInvoked = false ∧ Quiescent l ∧ Over l' := by
  have howned := owned_asioStep h hstep
  have hestablished := connected_asioStep h hstep hconnected
  cases asioStep_outcome hstep with
  | @readHandler i r _ _ hx heq =>
      -- the only call of a read handler is `SendData`
      have hcall := congrArg Prod.snd heq
      unfold requestReadProcessing at hcall
      simp only at hcall
      split at hcall
      · split at hcall
        · cases hcall
        · cases hoster : l.hoster <;> simp [hoster] at hcall
      · split at hcall
        · cases hcall
        · cases hoster : l.hoster <;> simp [hoster] at hcall
  | closeCheck hpos heq =>
      rcases checkReadyCloseProcessing_cases { l with posts := l.posts - 1 } with
        ⟨hrp, hwp, hopen, hclose⟩ | ⟨_, hclose⟩
      · rw [hclose] at heq
        obtain ⟨hlink, _⟩ := Prod.mk.inj heq
        have hinvoked : l'.closeInvoked = true := by rw [← hlink]
        have hreads := h.reads
        rw [show l.readProcessing = false from hrp, Bool.toNat_false] at hreads
        obtain ⟨hwrites, htimers⟩ := h.write_ended hwp
        exact ⟨hopen, ⟨List.eq_nil_of_length_eq_zero hreads, hwrites, htimers⟩,
          ⟨howned, hinvoked, hestablished⟩⟩
      · rw [hclose] at heq
        cases heq

/-- **Closed exactly once, and never stuck.**  Whatever an established link has
been through: `CloseConnect` was called at most once; if the next event calls
it, it is the first call, no read, write or idle wait is in flight, and none is
started in any continuation; and if nothing is in flight and no closing check
is posted, the call has been made. -/
theorem closed_exactly_once {l₀ l : OutLink} {es : List LinkEvent} (hfresh : Fresh l₀)
    (hrun : Transition.run step l₀ es = some l) (hconnected : l.connected = true) :
    l.closeCalls ≤ 1 ∧
      (∀ e l' cnt, l.asioStep e = some (l', some (.closeConnect cnt)) →
        l.closeCalls = 0 ∧ l'.closeCalls = 1 ∧ Quiescent l ∧
          ∀ es' l'', Transition.run step l' es' = some l'' →
            l''.started = l'.started ∧ Quiescent l'' ∧ l''.closeCalls = 1) ∧
      (Quiescent l → l.posts = 0 → l.closeCalls = 1) := by
  have h : Owned l :=
    Transition.run_invariant (fun _ _ _ hs hstep => owned_step hs hstep) (owned_fresh hfresh) hrun
  refine ⟨?_, ?_, ?_⟩
  · rw [h.counted]
    exact Bool.toNat_le _
  · intro e l' cnt hstep
    obtain ⟨hopen, hquiet, hover⟩ := h.closes hconnected hstep
    refine ⟨by simp [h.counted, hopen], by simp [hover.counted, hover.invoked], hquiet, ?_⟩
    intro es' l'' hrest
    obtain ⟨hlast, hstarted⟩ := over_run hover hrest
    exact ⟨hstarted, hlast.quiescent, by simp [hlast.counted, hlast.invoked]⟩
  · intro hquiet hposts
    obtain ⟨hres, hcon⟩ := h.toRest.not_setup hconnected
    exact h.idle_closed hconnected ⟨hres, hcon, hquiet.1, hquiet.2.1, hquiet.2.2, hposts⟩

/-- The peer closes; the idle wait and two closing checks are left to happen. -/
theorem closed_exactly_once_eof :
    ∃ l, Transition.run step (createAccepted.run (.ofByte 1))
        [.asio (.readDone 0 ⟨true, []⟩), .asio (.readHandler 0), .asio (.timerHandler 0),
          .asio .closeCheck, .asio .closeCheck] = some l ∧ l.closeCalls = 1 := by
  have hrun : ∃ l, Transition.run step (createAccepted.run (.ofByte 1))
      [.asio (.readDone 0 ⟨true, []⟩), .asio (.readHandler 0), .asio (.timerHandler 0),
        .asio .closeCheck, .asio .closeCheck] = some l ∧ l.connected = true ∧ Quiescent l ∧
      l.posts = 0 := ⟨_, rfl, rfl, ⟨rfl, rfl, rfl⟩, rfl⟩
  obtain ⟨l, hrun, hconnected, hquiet, hposts⟩ := hrun
  exact ⟨l, hrun, (closed_exactly_once ⟨.ofByte 1, Or.inl rfl⟩ hrun hconnected).2.2 hquiet hposts⟩

end OutLink
