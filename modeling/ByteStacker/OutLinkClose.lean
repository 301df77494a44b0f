import ByteStacker.OutLinkChunks

/-!
# When a link is reported closed

The hoster learns of the end of a link through one `CloseConnect`, which the
posted closing check makes once both loops have ended.  The check is posted by
the ends of the loops and by a failed resolve.  This file follows the two
places where the chain of posts breaks.

* A link that was created from an address connects to the resolved endpoints
  in turn.  `RequestConnect` with an empty list returns without posting
  anything, so the link is then idle for ever and was never reported closed:
  `reported_iff_endpoint` says that this is the only way.
* Cancelling (`stop_write_immediate_`) is noticed by the write loop but not by
  the read loop: a read that had completed before the cancel starts the next
  one.  `quiet_iff_no_read` says that this is the only new operation.
-/

namespace OutLink

open Transition

variable {l l' : OutLink}

/-- No operation of the link is in flight and no closing check is posted. -/
def Idle (l : OutLink) : Prop :=
  l.resolves = [] ∧ l.connects = [] ∧ l.reads = [] ∧ l.writes = [] ∧ l.timers = [] ∧ l.posts = 0

instance (l : OutLink) : Decidable (Idle l) :=
  inferInstanceAs (Decidable (_ ∧ _))

/-- An idle link has ended both loops. -/
theorem Owned.idle_loops (h : Owned l) (hidle : Idle l) :
    l.readProcessing = false ∧ l.writeProcessing = false := by
  obtain ⟨_, _, hreads, hwrites, htimers, _⟩ := hidle
  have hr := h.reads
  have hw := h.writes
  rw [hreads] at hr
  rw [hwrites, htimers] at hw
  constructor
  · cases hb : l.readProcessing with
    | false => rfl
    | true => simp [hb] at hr
  · cases hb : l.writeProcessing with
    | false => rfl
    | true => simp [hb] at hw

/-- **An established link that is idle has been reported closed**, once. -/
theorem Owned.idle_closed (h : Owned l) (hc : l.connected = true) (hidle : Idle l) :
    l.closeCalls = 1 := by
  obtain ⟨hr, hw⟩ := h.idle_loops hidle
  cases hci : l.closeInvoked with
  | true => simp [h.counted, hci]
  | false =>
      have hpos := h.pending hc hr hw hci
      have hzero := hidle.2.2.2.2.2
      omega

/-! ## A link that fails to connect -/

/-- A link right after `Run`, created from an address. -/
def FromAddress (l : OutLink) : Prop :=
  ∃ cnt address port, l = (createAddress address port).run cnt

/-- A link created from an address is a new link. -/
theorem FromAddress.fresh (h : FromAddress l) : Fresh l := by
  obtain ⟨cnt, address, port, rfl⟩ := h
  exact ⟨cnt, Or.inr ⟨address, port, rfl⟩⟩

/-- If the event makes the link call `RequestConnect`, an endpoint is left to try. -/
def TriesEndpoint (l : OutLink) : LinkEvent → Prop
  | .asio (.resolved _ (some points)) => l.resolvedPoints ++ points ≠ []
  | .asio (.connected _ true) => l.resolvedPoints.tail ≠ []
  | _ => True

instance (l : OutLink) : ∀ e, Decidable (TriesEndpoint l e)
  | .asio (.resolved _ (some points)) =>
    inferInstanceAs (Decidable (l.resolvedPoints ++ points ≠ []))
  | .asio (.connected _ true) => inferInstanceAs (Decidable (l.resolvedPoints.tail ≠ []))
  | .asio (.resolved _ none) | .asio (.connected _ false) | .asio (.readDone ..)
  | .asio (.readHandler _) | .asio (.writeDone ..) | .asio (.writeHandler _)
  | .asio (.timerExpire _) | .asio (.timerHandler _) | .asio .closeCheck
  | .sendData .. | .stop _ => isTrue trivial

/-- A link without a connection is being set up, or a check is on its way. -/
structure Watched (l : OutLink) : Prop extends Owned l where
  setupPending : l.connected = false → l.resolves = [] → l.connects = [] →
    l.closeInvoked = false → 0 < l.posts

/-- **A watched link that is idle has been reported.** -/
theorem Watched.reported (h : Watched l) (hidle : Idle l) : l.closeCalls = 1 := by
  cases hc : l.connected with
  | true => exact h.toOwned.idle_closed hc hidle
  | false =>
      cases hci : l.closeInvoked with
      | true => simp [h.counted, hci]
      | false =>
          obtain ⟨hres, hcon, _, _, _, hzero⟩ := hidle
          have hpos := h.setupPending hc hres hcon hci
          omega

/-- A connected link is watched by its loops. -/
theorem watched_of_connected (ho : Owned l) (hc : l.connected = true) : Watched l :=
  ⟨ho, fun hoff => absurd (hc.symm.trans hoff) (by simp)⟩

/-- The loops start on a connected link. -/
theorem connected_startLoops (l : OutLink) : l.startLoops.connected = true := by
  unfold startLoops requestRead
  simp only [assertThat_true]
  exact (sameStage_requestWrite _).connected

/-- Completed reads and writes leave it connected. -/
theorem connected_readHandler (l : OutLink) (r : ReadResult) :
    (l.requestReadProcessing r).1.connected = l.connected := by
  obtain ⟨fails, heq⟩ := l.assertThat_eq .requestReadProcessing (r.data = [] ∨ l.hoster.isSome)
  unfold requestReadProcessing
  simp only [heq]
  split
  · rfl
  · obtain ⟨fails', heq'⟩ := ({ l with
      failedAsserts := fails
      readLog := l.readLog ++ r.data } : OutLink).assertThat_eq .requestRead l.readProcessing
    unfold requestRead
    rw [heq']

theorem connected_writeHandler (l : OutLink) (r : WriteResult) (hp : l.writeProcessing = true)
    (hle : r.transferred ≤ l.networkWriteBuffer.length) :
    (l.requestWriteProcessing r).connected = l.connected := by
  rcases requestWriteProcessing_cases l r hp hle with ⟨_, heq⟩ | ⟨_, _, heq⟩
  · rw [heq]
    rfl
  · rw [heq]
    exact (sameStage_requestWrite _).connected

/-- What follows a failed attempt: the next endpoint, or nothing at all. -/
theorem requestConnect_cases (l : OutLink) :
    (l.resolvedPoints = [] ∧ l.requestConnect = l) ∨
    (∃ ep, l.resolvedPoints ≠ [] ∧
      l.requestConnect = { l with socketOpen := true, connects := l.connects ++ [ep] }) := by
  unfold requestConnect
  split
  · rename_i hnil
    exact Or.inl ⟨hnil, rfl⟩
  · rename_i ep rest hcons
    exact Or.inr ⟨ep, by simp [hcons], rfl⟩

/-- The only resolve, or the only connect attempt, is in flight alone. -/
theorem Owned.setup_alone (h : Owned l) (hpos : 0 < l.resolves.length + l.connects.length) :
    l.resolves.length + l.connects.length = 1 ∧ l.connected = false ∧ l.closeInvoked = false ∧
      l.reads = [] ∧ l.writes = [] ∧ l.timers = [] ∧ l.posts = 0 := by
  have hc := h.setup_offline hpos
  obtain ⟨hposts, hci⟩ := h.unposted hpos
  obtain ⟨hr, hw, ht⟩ := h.offline_empty hc
  have hsum := h.setup
  exact ⟨by omega, hc, hci, hr, hw, ht, hposts⟩

/-- A resolve or a failed connect, seen as the state handed to `RequestConnect`. -/
theorem watched_requestConnect {m : OutLink} (howned : m.requestConnect.Owned)
    (hsome : m.resolvedPoints ≠ []) : m.requestConnect.Watched := by
  refine ⟨howned, ?_⟩
  rcases requestConnect_cases m with ⟨hnil, _⟩ | ⟨ep, _, heq⟩
  · exact absurd hnil hsome
  · rw [heq]
    exact fun _ _ hcon => absurd hcon (by simp)

/-- An asio event after which there is an endpoint to try keeps the link watched. -/
theorem watched_asioStep {e : AsioEvent} {call : Option HosterCall} (h : Watched l)
    (hok : TriesEndpoint l (.asio e)) (hstep : l.asioStep e = some (l', call)) : l'.Watched := by
  have howned : l'.Owned := owned_asioStep h.toOwned hstep
  have hsame : ∀ m : OutLink, m.Owned → m.connected = l.connected → m.resolves = l.resolves →
      m.connects = l.connects → m.closeInvoked = l.closeInvoked → m.posts = l.posts →
      m.Watched := by
    intro m hm hc hres hcon hci hposts
    refine ⟨hm, ?_⟩
    rw [hc, hres, hcon, hci, hposts]
    exact h.setupPending
  cases asioStep_outcome hstep with
  | @resolved i x results hx =>
      cases results with
      | none => exact ⟨howned, fun _ _ _ _ => Nat.succ_pos _⟩
      | some points => exact watched_requestConnect howned hok
  | @connected i x error hx =>
      cases error with
      | true => exact watched_requestConnect howned hok
      | false => exact watched_of_connected howned (connected_startLoops _)
  | readDone hx hle => exact hsame _ howned rfl rfl rfl rfl rfl
  | @readHandler i r _ _ hx heq =>
      obtain ⟨hc, _⟩ := h.toRest.online (Or.inl (h.toOwned.reading hx).1)
      have hkeep := connected_readHandler { l with reads := l.reads.eraseIdx i } r
      rw [heq] at hkeep
      exact watched_of_connected howned (hkeep.trans hc)
  | writeDone hx hle => exact hsame _ howned rfl rfl rfl rfl rfl
  | @writeHandler i size r hx =>
      obtain ⟨hwp, hone, _, _⟩ := h.toOwned.writing hx
      obtain ⟨hc, _⟩ := h.toRest.online (Or.inr hwp)
      obtain ⟨hsize, _, hle⟩ := h.buffer ⟨size, some r⟩ (by simp [hone])
      have hkeep := connected_writeHandler { l with writes := l.writes.eraseIdx i } r hwp
        (hsize ▸ hle r rfl)
      exact watched_of_connected howned (hkeep.trans hc)
  | timerExpire hx => exact hsame _ howned rfl rfl rfl rfl rfl
  | timerHandler hx ht =>
      obtain ⟨hc, _⟩ := h.toRest.online (Or.inr (h.toOwned.idling hx).1)
      exact watched_of_connected howned ((sameStage_requestWrite _).connected.trans hc)
  | closeCheck hpos heq =>
      rcases checkReadyCloseProcessing_cases { l with posts := l.posts - 1 } with
        ⟨_, _, _, hclose⟩ | ⟨hbusy, hclose⟩
      · rw [hclose] at heq
        cases heq
        exact ⟨howned, fun _ _ _ hci => absurd hci (by simp)⟩
      · rw [hclose] at heq
        cases heq
        refine ⟨howned, fun hoff _ _ hci => ?_⟩
        obtain ⟨hr, hw⟩ := h.offline hoff
        exact absurd ((hbusy hr hw).symm.trans hci) (by simp)

/-- The calls of the trunk do not touch the set-up of a link. -/
theorem setup_call {e : LinkEvent} (hcall : ∀ a, e ≠ .asio a) (hstep : l.step e = some l') :
    l'.connected = l.connected ∧ l'.resolves = l.resolves ∧ l'.connects = l.connects ∧
      l'.closeInvoked = l.closeInvoked ∧ l'.posts = l.posts ∧ l'.started = l.started ∧
      l'.stopWriteImmediate = l.stopWriteImmediate := by
  cases e with
  | asio a => exact absurd rfl (hcall a)
  | sendData chunkId data =>
      have heq := Option.some.inj hstep
      subst heq
      have hout := sendData_outcome l chunkId data
      generalize l.sendData chunkId data = after at hout ⊢
      cases hout <;> exact ⟨rfl, rfl, rfl, rfl, rfl, rfl, rfl⟩
  | stop n =>
      have heq := Option.some.inj hstep
      subst heq
      by_cases hn : n ≤ l.nextWriteChunkId
      · rw [stop_atOnce hn]
        exact ⟨rfl, rfl, rfl, rfl, rfl, rfl, rfl⟩
      · rw [stop_later (UInt32.not_le.mp hn)]
        exact ⟨rfl, rfl, rfl, rfl, rfl, rfl, rfl⟩

/-- **So does every event that is no failure of the last endpoint.** -/
theorem watched_step {e : LinkEvent} (h : Watched l) (hok : TriesEndpoint l e)
    (hstep : l.step e = some l') : l'.Watched := by
  by_cases hasio : ∃ a, e = .asio a
  · obtain ⟨a, rfl⟩ := hasio
    obtain ⟨⟨m, call⟩, hm, rfl⟩ := Option.map_eq_some_iff.mp hstep
    exact watched_asioStep h hok hm
  · obtain ⟨hc, hres, hcon, hci, hposts, _⟩ :=
      setup_call (fun a ha => hasio ⟨a, ha⟩) hstep
    refine ⟨owned_step h.toOwned hstep, ?_⟩
    rw [hc, hres, hcon, hci, hposts]
    exact h.setupPending

/-- **The missing report.**  `RequestConnect` without an endpoint leaves the
link idle and unreported. -/
theorem unreported_step {e : LinkEvent} (h : Owned l) (hbad : ¬ TriesEndpoint l e)
    (hstep : l.step e = some l') : Idle l' ∧ l'.closeCalls = 0 := by
  cases e with
  | sendData chunkId data => exact absurd trivial hbad
  | stop n => exact absurd trivial hbad
  | asio a =>
      obtain ⟨⟨m, call⟩, hm, rfl⟩ := Option.map_eq_some_iff.mp hstep
      cases asioStep_outcome hm with
      | @resolved i x results hx =>
          cases results with
          | none => exact absurd trivial hbad
          | some points =>
              have hpos : 0 < l.resolves.length + l.connects.length := by
                have := (List.getElem?_eq_some_iff.mp hx).1
                omega
              obtain ⟨hone, _, hci, hr, hw, ht, hposts⟩ := h.setup_alone hpos
              obtain ⟨hres, herase⟩ := eraseIdx_eq_nil (by omega) hx
              have hcon : l.connects = [] := List.eq_nil_of_length_eq_zero (by
                rw [hres, List.length_singleton] at hone
                omega)
              have hnil : l.resolvedPoints ++ points = [] := not_not.mp hbad
              have hclosed := h.counted
              rw [hci] at hclosed
              simp only [resolverProcessing, requestConnect, hnil]
              exact ⟨⟨herase, hcon, hr, hw, ht, hposts⟩, hclosed⟩
      | @connected i x error hx =>
          cases error with
          | false => exact absurd trivial hbad
          | true =>
              have hpos : 0 < l.resolves.length + l.connects.length := by
                have := (List.getElem?_eq_some_iff.mp hx).1
                omega
              obtain ⟨hone, _, hci, hr, hw, ht, hposts⟩ := h.setup_alone hpos
              obtain ⟨hcon, herase⟩ := eraseIdx_eq_nil (by omega) hx
              have hres : l.resolves = [] := List.eq_nil_of_length_eq_zero (by
                rw [hcon, List.length_singleton] at hone
                omega)
              have hnil : l.resolvedPoints.tail = [] := not_not.mp hbad
              have hclosed := h.counted
              rw [hci] at hclosed
              simp only [requestConnectProcessing, if_true, requestConnect, hnil]
              exact ⟨⟨hres, herase, hr, hw, ht, hposts⟩, hclosed⟩
      | readDone hx hle => exact absurd trivial hbad
      | readHandler hx heq => exact absurd trivial hbad
      | writeDone hx hle => exact absurd trivial hbad
      | writeHandler hx => exact absurd trivial hbad
      | timerExpire hx => exact absurd trivial hbad
      | timerHandler hx ht => exact absurd trivial hbad
      | closeCheck hpos heq => exact absurd trivial hbad

/-- A link that has just started waits for its resolver. -/
theorem watched_fromAddress (h : FromAddress l) : Watched l := by
  refine ⟨owned_fresh h.fresh, ?_⟩
  obtain ⟨cnt, address, port, rfl⟩ := h
  simp [run, createAddress]

/-- **A failed connect is reported unless the endpoints run out.**  Along any
list of events of a link created from an address, every idle state has been
reported closed exactly once if and only if no event makes the link call
`RequestConnect` with an empty list of endpoints. -/
theorem reported_iff_endpoint {l₀ : OutLink} (hfrom : FromAddress l₀) (es : List LinkEvent) :
    Always step (fun _ _ s' => Idle s' → s'.closeCalls = 1) l₀ es ↔
      Always step (fun s e _ => TriesEndpoint s e) l₀ es := by
  refine always_iff (I := Watched) ?_ ?_ (watched_fromAddress hfrom)
  · intro s e s' h hstep
    constructor
    · intro hreported
      by_contra hbad
      obtain ⟨hidle, hzero⟩ := unreported_step h.toOwned hbad hstep
      have hone := hreported hidle
      omega
    · intro hok
      exact (watched_step h hok hstep).reported
  · exact fun s e s' h hok hstep => watched_step h hok hstep

/-- The second endpoint answers; the connection is then closed by a read error. -/
theorem reported_after_retry :
    Always step (fun _ _ s' => Idle s' → s'.closeCalls = 1)
      ((createAddress "host" 80).run (.ofByte 1))
      [.asio (.resolved 0 (some [⟨[10, 0, 0, 1], 80⟩, ⟨[10, 0, 0, 2], 80⟩])),
        .asio (.connected 0 true), .asio (.connected 0 false),
        .asio (.readDone 0 ⟨true, []⟩), .asio (.readHandler 0), .asio (.timerHandler 0),
        .asio .closeCheck, .asio .closeCheck] :=
  (reported_iff_endpoint ⟨.ofByte 1, "host", 80, rfl⟩ _).mpr (by decide +kernel)

/-- The last endpoint fails: the link is idle and nobody was told. -/
theorem unreported_last_endpoint :
    ∃ l, Transition.run step ((createAddress "host" 80).run (.ofByte 1))
        [.asio (.resolved 0 (some [⟨[10, 0, 0, 1], 80⟩])), .asio (.connected 0 true)] = some l ∧
      Idle l ∧ l.closeCalls ≠ 1 :=
  ⟨_, rfl, ⟨rfl, rfl, rfl, rfl, rfl, rfl⟩, by decide⟩

/-! ## Operations after a cancel -/

/-- If the event handles a successful read, the link has not been cancelled. -/
def NoReadAfterCancel (l : OutLink) : LinkEvent → Prop
  | .asio (.readHandler i) =>
    ∀ r, l.reads[i]? = some (some r) → r.error = false → l.stopWriteImmediate = false
  | _ => True

instance (l : OutLink) : ∀ e, Decidable (NoReadAfterCancel l e)
  | .asio (.readHandler i) =>
    decidable_of_iff (∀ x ∈ l.reads[i]?, ∀ r ∈ x, r.error = false → l.stopWriteImmediate = false)
      ⟨fun h r hr => h (some r) hr r rfl, fun h _ hx r hr => h r (hr ▸ hx)⟩
  | .asio (.resolved ..) | .asio (.connected ..) | .asio (.readDone ..)
  | .asio (.writeDone ..) | .asio (.writeHandler _) | .asio (.timerExpire _)
  | .asio (.timerHandler _) | .asio .closeCheck | .sendData .. | .stop _ => isTrue trivial

/-- After a cancel no operation starts, and once the link is idle it has been
reported closed. -/
def QuietAfterCancel (l l' : OutLink) : Prop :=
  l.stopWriteImmediate = true → l'.started = l.started ∧ (Idle l' → l'.closeCalls = 1)

instance (l l' : OutLink) : Decidable (QuietAfterCancel l l') :=
  inferInstanceAs (Decidable (_ → _))

/-- Only an established link is ever cancelled. -/
structure Cancellable (l : OutLink) : Prop extends Owned l where
  established : l.stopWriteImmediate = true → l.connected = true

/-- `RequestWrite` on a cancelled link ends the write loop. -/
theorem started_requestWrite (himm : l.stopWriteImmediate = true) :
    l.requestWrite.started = l.started := by
  have hout := requestWrite_outcome l
  generalize l.requestWrite = after at hout ⊢
  cases hout with
  | aborted fails _ => rfl
  | finished fails m h _ _ _ => exact absurd (h.symm.trans himm) (by simp)
  | idle fails m h _ _ _ => exact absurd (h.symm.trans himm) (by simp)
  | writing fails m h _ _ => exact absurd (h.symm.trans himm) (by simp)

/-- A link once connected counts as connected. -/
theorem connected_asioStep {e : AsioEvent} {call : Option HosterCall} (h : Owned l)
    (hstep : l.asioStep e = some (l', call)) (hc : l.connected = true) : l'.connected = true := by
  obtain ⟨hres, hcon⟩ := h.toRest.not_setup hc
  cases asioStep_outcome hstep with
  | resolved hx => simp [hres] at hx
  | connected hx => simp [hcon] at hx
  | readDone hx hle => exact hc
  | @readHandler i r _ _ hx heq =>
      have hkeep := connected_readHandler { l with reads := l.reads.eraseIdx i } r
      rw [heq] at hkeep
      exact hkeep.trans hc
  | writeDone hx hle => exact hc
  | @writeHandler i size r hx =>
      obtain ⟨hwp, hone, _, _⟩ := h.writing hx
      obtain ⟨hsize, _, hle⟩ := h.buffer ⟨size, some r⟩ (by simp [hone])
      exact (connected_writeHandler { l with writes := l.writes.eraseIdx i } r hwp
        (hsize ▸ hle r rfl)).trans hc
  | timerExpire hx => exact hc
  | timerHandler hx ht => exact (sameStage_requestWrite _).connected.trans hc
  | closeCheck hpos heq =>
      rcases checkReadyCloseProcessing_cases { l with posts := l.posts - 1 } with
        ⟨_, _, _, hclose⟩ | ⟨_, hclose⟩
      · rw [hclose] at heq
        cases heq
        exact hc
      · rw [hclose] at heq
        cases heq
        exact hc

/-- Before the connection an event does not cancel, unless it connects. -/
theorem uncancelled_asioStep {e : AsioEvent} {call : Option HosterCall} (h : Owned l)
    (hstep : l.asioStep e = some (l', call)) (hc : l.connected = false)
    (himm : l.stopWriteImmediate = false) :
    l'.stopWriteImmediate = false ∨ l'.connected = true := by
  cases asioStep_outcome hstep with
  | @resolved i x results hx =>
      refine Or.inl ?_
      cases results with
      | none => exact himm
      | some points =>
          rcases requestConnect_cases { l with
            resolves := l.resolves.eraseIdx i
            resolvedPoints := l.resolvedPoints ++ points } with ⟨_, heq⟩ | ⟨ep, _, heq⟩
          · exact (congrArg stopWriteImmediate heq).trans himm
          · exact (congrArg stopWriteImmediate heq).trans himm
  | @connected i x error hx =>
      cases error with
      | true =>
          refine Or.inl ?_
          rcases requestConnect_cases { l with
            connects := l.connects.eraseIdx i
            resolvedPoints := l.resolvedPoints.tail } with ⟨_, heq⟩ | ⟨ep, _, heq⟩
          · exact (congrArg stopWriteImmediate heq).trans himm
          · exact (congrArg stopWriteImmediate heq).trans himm
      | false => exact Or.inr (connected_startLoops _)
  | readDone hx hle => exact Or.inl himm
  | readHandler hx heq =>
      exact absurd ((h.toRest.online (Or.inl (h.reading hx).1)).1.symm.trans hc) (by simp)
  | writeDone hx hle => exact Or.inl himm
  | writeHandler hx =>
      exact absurd ((h.toRest.online (Or.inr (h.writing hx).1)).1.symm.trans hc) (by simp)
  | timerExpire hx => exact Or.inl himm
  | timerHandler hx ht =>
      exact absurd ((h.toRest.online (Or.inr (h.idling hx).1)).1.symm.trans hc) (by simp)
  | closeCheck hpos heq =>
      refine Or.inl ?_
      rcases checkReadyCloseProcessing_cases { l with posts := l.posts - 1 } with
        ⟨_, _, _, hclose⟩ | ⟨_, hclose⟩
      · rw [hclose] at heq
        cases heq
        exact himm
      · rw [hclose] at heq
        cases heq
        exact himm

/-- **Every event keeps cancels to established links.** -/
theorem cancellable_step {e : LinkEvent} (h : Cancellable l) (hstep : l.step e = some l') :
    l'.Cancellable := by
  refine ⟨owned_step h.toOwned hstep, ?_⟩
  by_cases hasio : ∃ a, e = .asio a
  · obtain ⟨a, rfl⟩ := hasio
    obtain ⟨⟨m, call⟩, hm, rfl⟩ := Option.map_eq_some_iff.mp hstep
    intro himm'
    cases hc : l.connected with
    | true => exact connected_asioStep h.toOwned hm hc
    | false =>
        have himm : l.stopWriteImmediate = false := by
          by_contra hi
          exact absurd (hc.symm.trans (h.established (by simpa using hi))) (by simp)
        rcases uncancelled_asioStep h.toOwned hm hc himm with hno | hyes
        · exact absurd (hno.symm.trans himm') (by simp)
        · exact hyes
  · obtain ⟨hc, _, _, _, _, _, himm⟩ := setup_call (fun a ha => hasio ⟨a, ha⟩) hstep
    rw [himm, hc]
    exact h.established

/-- A new link is not cancelled. -/
theorem cancellable_fresh (h : Fresh l) : Cancellable l := by
  refine ⟨owned_fresh h, ?_⟩
  obtain ⟨cnt, rfl | ⟨address, port, rfl⟩⟩ := h
  · exact fun _ => connected_startLoops { createAccepted with hoster := some cnt }
  · simp [run, createAddress]

/-- A read that succeeds starts the next one, an aborted one starts nothing. -/
theorem started_readHandler (r : ReadResult) (hp : l.readProcessing = true) :
    (l.requestReadProcessing r).1.started = l.started + (!r.error).toNat := by
  obtain ⟨fails, heq⟩ := l.assertThat_eq .requestReadProcessing (r.data = [] ∨ l.hoster.isSome)
  unfold requestReadProcessing
  simp only [heq]
  cases herr : r.error with
  | true => rfl
  | false =>
      simp only [Bool.false_eq_true, if_false]
      rw [requestRead_eq (by exact hp)]
      rfl

/-- On a cancelled link only a successful read starts an operation. -/
theorem started_asioStep {e : AsioEvent} {call : Option HosterCall} (h : Cancellable l)
    (hstep : l.asioStep e = some (l', call)) (himm : l.stopWriteImmediate = true) :
    l'.started = l.started ↔ NoReadAfterCancel l (.asio e) := by
  have hc := h.established himm
  obtain ⟨hres, hcon⟩ := h.toRest.not_setup hc
  cases asioStep_outcome hstep with
  | resolved hx => simp [hres] at hx
  | connected hx => simp [hcon] at hx
  | readDone hx hle => exact ⟨fun _ => trivial, fun _ => rfl⟩
  | @readHandler i r _ _ hx heq =>
      have hcount := started_readHandler (l := { l with reads := l.reads.eraseIdx i }) r
        (h.toOwned.reading hx).1
      rw [heq] at hcount
      simp only at hcount
      constructor
      · intro hsame r' hr' herr
        rw [hx] at hr'
        cases hr'
        simp [herr] at hcount
        omega
      · intro hquiet
        cases herr : r.error with
        | true => simpa [herr] using hcount
        | false => exact absurd ((hquiet r hx herr).symm.trans himm) (by simp)
  | writeDone hx hle => exact ⟨fun _ => trivial, fun _ => rfl⟩
  | @writeHandler i size r hx =>
      refine ⟨fun _ => trivial, fun _ => ?_⟩
      obtain ⟨hwp, hone, _, _⟩ := h.toOwned.writing hx
      obtain ⟨hsize, _, hle⟩ := h.buffer ⟨size, some r⟩ (by simp [hone])
      rcases requestWriteProcessing_cases { l with writes := l.writes.eraseIdx i } r hwp
        (hsize ▸ hle r rfl) with ⟨_, heq⟩ | ⟨_, _, heq⟩
      · rw [heq]
        rfl
      · rw [heq]
        exact started_requestWrite himm
  | timerExpire hx => exact ⟨fun _ => trivial, fun _ => rfl⟩
  | timerHandler hx ht => exact ⟨fun _ => trivial, fun _ => started_requestWrite himm⟩
  | closeCheck hpos heq =>
      refine ⟨fun _ => trivial, fun _ => ?_⟩
      rcases checkReadyCloseProcessing_cases { l with posts := l.posts - 1 } with
        ⟨_, _, _, hclose⟩ | ⟨_, hclose⟩
      · rw [hclose] at heq
        cases heq
        rfl
      · rw [hclose] at heq
        cases heq
        rfl

/-- One event is quiet after a cancel exactly when it is no successful read. -/
theorem quiet_step_iff {e : LinkEvent} (h : Cancellable l) (hstep : l.step e = some l') :
    QuietAfterCancel l l' ↔ NoReadAfterCancel l e := by
  have hnext := cancellable_step h hstep
  by_cases hasio : ∃ a, e = .asio a
  · obtain ⟨a, rfl⟩ := hasio
    obtain ⟨⟨m, call⟩, hm, rfl⟩ := Option.map_eq_some_iff.mp hstep
    cases himm : l.stopWriteImmediate with
    | false =>
        refine ⟨fun _ => ?_, fun _ hi => absurd (himm.symm.trans hi) (by simp)⟩
        cases a with
        | readHandler i => exact fun _ _ _ => himm
        | _ => trivial
    | true =>
        rw [← started_asioStep h hm himm]
        refine ⟨fun hq => (hq himm).1, fun hs _ => ⟨hs, fun hidle => ?_⟩⟩
        exact hnext.toOwned.idle_closed (connected_asioStep h.toOwned hm (h.established himm)) hidle
  · obtain ⟨hc, _, _, _, _, hs, _⟩ := setup_call (fun a ha => hasio ⟨a, ha⟩) hstep
    constructor
    · intro _
      cases e with
      | asio a => exact absurd ⟨a, rfl⟩ hasio
      | sendData chunkId data => trivial
      | stop n => trivial
    · exact fun _ himm => ⟨hs, hnext.toOwned.idle_closed (hc.trans (h.established himm))⟩

/-- **No new operation after a cancel, but for a read.**  Along any list of
events of a link, nothing starts after `CancelReadWrite` and the link ends up
reported closed if and only if no successful read completion is handled on a
link that has been cancelled. -/
theorem quiet_iff_no_read {l₀ : OutLink} (hfresh : Fresh l₀) (es : List LinkEvent) :
    Always step (fun s _ s' => QuietAfterCancel s s') l₀ es ↔
      Always step (fun s e _ => NoReadAfterCancel s e) l₀ es :=
  always_iff (I := Cancellable) (fun _ _ _ h (hstep : step _ _ = _) => quiet_step_iff h hstep)
    (fun _ _ _ h _ hstep => cancellable_step h hstep) (cancellable_fresh hfresh)

/-- A stop closes the write loop; the read it cancels is aborted. -/
theorem quiet_after_stop :
    Always step (fun s _ s' => QuietAfterCancel s s') (createAccepted.run (.ofByte 1))
      [.stop 0, .asio (.timerHandler 0), .asio (.readHandler 0), .asio .closeCheck,
        .asio .closeCheck] :=
  (quiet_iff_no_read ⟨.ofByte 1, Or.inl rfl⟩ _).mpr (by decide +kernel)

/-- The read had completed before the cancel: its handler starts another one. -/
theorem read_after_cancel :
    ¬ Always step (fun s _ s' => QuietAfterCancel s s') (createAccepted.run (.ofByte 1))
      [.stop 0, .asio (.readDone 0 ⟨false, [65]⟩), .asio (.timerHandler 0),
        .asio (.readHandler 0)] := by
  decide +kernel

end OutLink
