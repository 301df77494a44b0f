import ByteStacker.OutLinkCalls

/-!
# One owner of the write buffer

The source works on `network_write_buffer_` without a lock: "only one function
at a time works with the buffer".  This rests on a token that the handlers pass
to each other.  While the write loop runs there is one write or one idle wait in
flight, and whoever takes it out of flight may call `RequestWrite`.

`Owned` is the count behind it.  `pending_step` says what a write in flight is
safe from: until its handler runs, every event leaves the buffer, and the result
once it is fixed, alone.  So the bytes the handler erases are the bytes that were
written.
-/

namespace OutLink

open Transition

variable {l l' : OutLink}

/-- The event runs the handler of a write. -/
def RunsWriteHandler (e : LinkEvent) : Prop := ∃ i, e = .asio (.writeHandler i)

/-- **A write in flight.**  Until its handler runs, an event leaves the buffer
alone, keeps the write in flight and does not touch a result it has. -/
theorem pending_step {e : LinkEvent} {w : WriteOp} (h : Owned l) (hone : l.writes = [w])
    (hno : ¬ RunsWriteHandler e) (hstep : l.step e = some l') :
    l'.networkWriteBuffer = l.networkWriteBuffer ∧
      ∃ w', l'.writes = [w'] ∧ (∀ r, w.result = some r → w' = w ∧ l'.written = l.written) := by
  cases e with
  | sendData chunkId data =>
      cases hstep
      have hout := sendData_outcome l chunkId data
      generalize l.sendData chunkId data = after at hout ⊢
      cases hout <;> exact ⟨rfl, w, hone, fun r _ => ⟨rfl, rfl⟩⟩
  | stop n =>
      cases hstep
      by_cases hn : n ≤ l.nextWriteChunkId
      · rw [stop_atOnce hn]
        exact ⟨rfl, w, hone, fun r _ => ⟨rfl, rfl⟩⟩
      · rw [stop_later (UInt32.not_le.mp hn)]
        exact ⟨rfl, w, hone, fun r _ => ⟨rfl, rfl⟩⟩
  | asio e =>
      obtain ⟨⟨m, call⟩, hm, rfl⟩ := Option.map_eq_some_iff.mp hstep
      cases asioStep_buffer h hm with
      | kept hsame hwrites _ =>
          refine ⟨hsame.networkWriteBuffer, ?_⟩
          rcases hwrites with hwrites | hwrites
          · exact ⟨w, hwrites.trans hone, fun r _ => ⟨rfl, hsame.written⟩⟩
          · rw [hone] at hwrites
            refine ⟨abortWrite w, hwrites, fun r hr => ⟨?_, hsame.written⟩⟩
            rw [abortWrite, hr]
            exact congrArg (WriteOp.mk w.size) hr.symm
      | began _ _ hidle _ => simp [hone] at hidle
      | @done i size r hpending hle =>
          obtain rfl : w = ⟨size, none⟩ := by simpa [hone] using hpending
          exact ⟨rfl, ⟨size, some r⟩, rfl, fun r hr => by simp at hr⟩
      | failed _ _ _ => exact absurd ⟨_, rfl⟩ hno
      | continued _ => exact absurd ⟨_, rfl⟩ hno

/-- Between the completion of a write and its handler nothing happens to the
buffer, the result and the bytes written. -/
theorem pending_run {es : List LinkEvent} {w : WriteOp} {r : WriteResult} (h : Owned l)
    (hone : l.writes = [w]) (hresult : w.result = some r)
    (hno : ∀ e ∈ es, ¬ RunsWriteHandler e) (hrun : Transition.run step l es = some l') :
    Owned l' ∧ l'.writes = [w] ∧ l'.networkWriteBuffer = l.networkWriteBuffer ∧
      l'.written = l.written := by
  have hreach : Reach step (fun _ e => ¬ RunsWriteHandler e) (· = l) l' :=
    .of_run (.start rfl) (always_of_mem hno) hrun
  refine hreach.invariant (I := fun m => Owned m ∧ m.writes = [w] ∧
    m.networkWriteBuffer = l.networkWriteBuffer ∧ m.written = l.written) ?_ ?_
  · intro s hs
    subst hs
    exact ⟨h, hone, rfl, rfl⟩
  · intro s e s' _ hinv hok hstep
    obtain ⟨ho, hs, hb, hw⟩ := hinv
    obtain ⟨hb', w', hs', hkept⟩ := pending_step ho hs hok hstep
    obtain ⟨rfl, hw'⟩ := hkept r hresult
    exact ⟨owned_step ho hstep, hs', hb'.trans hb, hw'.trans hw⟩

/-- **Single owner**, seen in one state. -/
structure SingleOwner (l : OutLink) : Prop where
  oneRead : l.reads.length ≤ 1
  oneWrite : l.writes.length + l.timers.length ≤ 1
  running : l.writeProcessing = true → l.writes.length + l.timers.length = 1
  ended : l.writeProcessing = false → l.writes.length + l.timers.length = 0
  /-- A write in flight covers the buffer and cannot transfer more. -/
  covers : ∀ w ∈ l.writes, w.size = l.networkWriteBuffer.length ∧
    ∀ r, w.result = some r → r.transferred ≤ l.networkWriteBuffer.length
  /-- The only assertion that can fail is the one in `SendData`. -/
  asserts : ∀ site ∈ l.failedAsserts, site = .sendData

/-- The ownership of the loops gives all of it, once the asserts are known. -/
theorem Owned.singleOwner (h : Owned l) (hasserts : ∀ site ∈ l.failedAsserts, site = .sendData) :
    SingleOwner l where
  oneRead := h.reads ▸ Bool.toNat_le l.readProcessing
  oneWrite := h.writes ▸ Bool.toNat_le l.writeProcessing
  running := fun hp => by simpa [hp] using h.writes
  ended := fun hp => by
    obtain ⟨hw, ht⟩ := h.write_ended hp
    simp [hw, ht]
  covers := fun w hw => by
    obtain ⟨hsize, _, hle⟩ := h.buffer w hw
    exact ⟨hsize, fun r hr => hsize ▸ hle r hr⟩
  asserts := hasserts

/-- The invariants behind it, for every state of a run. -/
theorem owned_run {l₀ : OutLink} {es : List LinkEvent} (hfresh : Fresh l₀)
    (hrun : Transition.run step l₀ es = some l) :
    Owned l ∧ Reassembly l ∧ ∀ site ∈ l.failedAsserts, site = .sendData := by
  refine run_invariant (I := fun l => Owned l ∧ Reassembly l ∧
    ∀ site ∈ l.failedAsserts, site = .sendData) ?_ ?_ hrun
  · intro s e s' hinv hstep
    obtain ⟨ho, hr, hs⟩ := hinv
    refine ⟨owned_step ho hstep, reassembly_step hr hstep, ?_⟩
    cases e with
    | asio e =>
        obtain ⟨⟨m, call⟩, hm, rfl⟩ := Option.map_eq_some_iff.mp hstep
        exact (asserts_asioStep ho hr hm) ▸ hs
    | sendData chunkId data =>
        cases hstep
        rw [asserts_sendData]
        split
        · intro site hsite
          rcases List.mem_append.mp hsite with hsite | hsite
          · exact hs site hsite
          · exact List.mem_singleton.mp hsite
        · exact hs
    | stop n =>
        cases hstep
        exact (sameLife_stop s n).2 ▸ hs
  · exact ⟨owned_fresh hfresh, reassembly_fresh hfresh, by simp [asserts_fresh hfresh]⟩

/-- **Erased is what was written.**  The write in flight in `l` completes in `a`,
`b` is the state before its handler and `c` the one after it. -/
structure ErasesWritten (r : WriteResult) (l a b c : OutLink) : Prop where
  written : a.written = l.written ++ l.networkWriteBuffer.take r.transferred ∧
    (l.networkWriteBuffer.take r.transferred).length = r.transferred
  untouched : b.networkWriteBuffer = l.networkWriteBuffer ∧ b.written = a.written
  erased : r.error = false → 0 < r.transferred →
    c = ({ b with
      writes := []
      networkWriteBuffer := l.networkWriteBuffer.drop r.transferred } : OutLink).requestWrite

/-- **Single-owner write buffer.**  In every state of every run at most one read
and at most one write or idle wait are in flight, exactly one of the latter while
the write loop runs and none otherwise; while a write is in flight no other event
than its handler changes the buffer; and the handler of a successful write
erases from the buffer exactly the bytes that were written. -/
theorem single_owner {l₀ : OutLink} {es : List LinkEvent} (hfresh : Fresh l₀)
    (hrun : Transition.run step l₀ es = some l) :
    SingleOwner l ∧
    (∀ e l', l.writes ≠ [] → ¬ RunsWriteHandler e → l.step e = some l' →
      l'.networkWriteBuffer = l.networkWriteBuffer ∧ l'.writes ≠ []) ∧
    ∀ i j r es a b c, l.step (.asio (.writeDone i r)) = some a →
      (∀ e ∈ es, ¬ RunsWriteHandler e) → Transition.run step a es = some b →
      b.step (.asio (.writeHandler j)) = some c → ErasesWritten r l a b c := by
  obtain ⟨ho, _, hs⟩ := owned_run hfresh hrun
  refine ⟨ho.singleOwner hs, ?_, ?_⟩
  · intro e l' hpending hno hstep
    obtain ⟨w, hw⟩ := List.exists_mem_of_ne_nil l.writes hpending
    obtain ⟨k, hk⟩ := List.getElem?_of_mem hw
    obtain ⟨hbuffer, w', hw', _⟩ := pending_step ho (ho.writing hk).2.1 hno hstep
    exact ⟨hbuffer, by simp [hw']⟩
  · intro i j r es a b c hdone hno hbetween hhandler
    obtain ⟨⟨m, call⟩, hm, rfl⟩ := Option.map_eq_some_iff.mp hdone
    cases asioStep_outcome hm with
    | @writeDone _ size _ hx hle =>
        obtain ⟨hone, _⟩ := (ho.writing hx).2
        obtain ⟨hsize, _, _⟩ := ho.buffer ⟨size, none⟩ (by simp [hone])
        have ha := owned_step ho hdone
        have hset : l.writes.set i ⟨size, some r⟩ = [⟨size, some r⟩] := by
          have hi := (List.getElem?_eq_some_iff.mp hx).1
          simp only [hone, List.length_singleton, Nat.lt_one_iff] at hi
          simp [hone, hi]
        obtain ⟨hb, hw, hbuffer, hwritten⟩ := pending_run ha hset rfl hno hbetween
        refine ⟨⟨rfl, ?_⟩, ⟨hbuffer, hwritten⟩, fun herr hpos => ?_⟩
        · exact List.length_take_of_le (hsize ▸ hle)
        · obtain ⟨⟨m', call'⟩, hm', rfl⟩ := Option.map_eq_some_iff.mp hhandler
          cases asioStep_outcome hm' with
          | @writeHandler _ size' r' hx' =>
              obtain ⟨hwp, hone', herase, _⟩ := hb.writing hx'
              obtain ⟨rfl, rfl⟩ : size' = size ∧ r' = r := by simpa [hw] using hone'.symm
              have hfit : r'.transferred ≤ b.networkWriteBuffer.length := by
                rw [hbuffer]
                exact hsize ▸ hle
              rcases requestWriteProcessing_cases { b with writes := [] } r' hwp hfit with
                ⟨hfail, _⟩ | ⟨_, _, heq⟩
              · rcases hfail with hfail | hfail
                · simp [herr] at hfail
                · omega
              · rw [herase, heq, hbuffer]

/-- A write of two bytes that takes one, with a chunk and a read error between
its completion and its handler. -/
theorem single_owner_partial :
    ∃ l a b c, Transition.run step (createAccepted.run (.ofByte 1))
        [.sendData 0 [65, 66], .asio (.timerHandler 0)] = some l ∧
      l.step (.asio (.writeDone 0 ⟨false, 1⟩)) = some a ∧
      Transition.run step a
        [.sendData 1 [67], .asio (.readDone 0 ⟨true, []⟩), .asio (.readHandler 0)] = some b ∧
      b.step (.asio (.writeHandler 0)) = some c ∧
      SingleOwner l ∧ ErasesWritten ⟨false, 1⟩ l a b c ∧ c.written = [65] := by
  have hrun : Transition.run step (createAccepted.run (.ofByte 1))
      [.sendData 0 [65, 66], .asio (.timerHandler 0)] = some _ := rfl
  refine ⟨_, _, _, _, hrun, rfl, rfl, rfl, ?_⟩
  have h := single_owner ⟨.ofByte 1, Or.inl rfl⟩ hrun
  refine ⟨h.1, h.2.2 0 0 ⟨false, 1⟩
    [.sendData 1 [67], .asio (.readDone 0 ⟨true, []⟩), .asio (.readHandler 0)]
    _ _ _ rfl ?_ rfl rfl, rfl⟩
  simp [RunsWriteHandler]

end OutLink
