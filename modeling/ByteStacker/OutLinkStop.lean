import ByteStacker.OutLinkChunks

/-!
# Stopping a link

`Stop(n)` asks a link to close once everything below chunk `n` has been handed
to the socket.  The header promises that chunks numbered `n` and above are no
longer accepted.

Is a stop permanent?  Each call overwrites `stop_write_chunk_id_`, so a later
call with a larger argument opens the link again (`stop_raised`); as long as no
call raises the stop point and the value 2³²-1, which doubles as "no stop",
stays out of it, nothing at or above the stop point is ever drained
(`stop_permanent`).
-/

namespace OutLink

open Transition

variable {l l' : OutLink}

/-! ## Permanence -/

/-- After `Stop(n)` turned `l` into some state from which `l'` was reached,
only chunks below `max(n, next_write_chunk_id_)` have been drained since. -/
def StopPermanent (l : OutLink) (n : UInt32) (l' : OutLink) : Prop :=
  ∃ more, l'.appended = l.appended ++ more ∧ ∀ c ∈ more, c.1 < max n l.nextWriteChunkId

/-- The event is no `Stop` call above the stop point in force. -/
def StopKept (l : OutLink) : LinkEvent → Prop
  | .stop n => n ≤ l.stopWriteChunkId
  | _ => True

instance (l : OutLink) : ∀ e, Decidable (StopKept l e)
  | .asio _ => isTrue trivial
  | .sendData _ _ => isTrue trivial
  | .stop n => inferInstanceAs (Decidable (n ≤ l.stopWriteChunkId))

/-- The stop point is set, at most `b`, and has not been overrun; what was
drained since `base` lies below `b`. -/
structure StopBelow (b : UInt32) (base : List (UInt32 × Bytes)) (l : OutLink) : Prop where
  defined : l.stopWriteChunkId ≠ kUndefinedChunkID
  below : l.stopWriteChunkId ≤ b
  reached : l.nextWriteChunkId ≤ l.stopWriteChunkId
  since : ∃ more, l.appended = base ++ more ∧ ∀ c ∈ more, c.1 < b

variable {b : UInt32} {base : List (UInt32 × Bytes)}

/-- Where the stop point lies is a matter of the chunks and the stop point. -/
theorem chunkProperty_stopBelow : ChunkProperty (StopBelow b base) where
  congr := by
    intro l m hs h
    exact ⟨by rw [hs.stopWriteChunkId]; exact h.defined,
      by rw [hs.stopWriteChunkId]; exact h.below,
      by rw [hs.nextWriteChunkId, hs.stopWriteChunkId]; exact h.reached,
      by rw [hs.appended]; exact h.since⟩
  finish := fun l h _ => ⟨h.defined, h.below, h.reached, h.since⟩
  take := by
    intro l data rest h hopen _
    have hlt : l.nextWriteChunkId < l.stopWriteChunkId := by
      have hdef := h.defined
      simp only [stopReached, ne_eq, decide_eq_false_iff_not, not_and] at hopen
      exact UInt32.not_le.mp (hopen hdef)
    obtain ⟨more, hmore, hbelow⟩ := h.since
    refine ⟨h.defined, h.below, ?_, more ++ [(l.nextWriteChunkId, data)], ?_, ?_⟩
    · exact next_le_of_ne h.reached (by
        intro heq
        have heq : l.stopWriteChunkId = l.nextWriteChunkId := heq
        exact UInt32.lt_irrefl _ (heq ▸ hlt))
    · simp [takeChunk, hmore]
    · intro c hc
      rcases List.mem_append.mp hc with hc | hc
      · exact hbelow c hc
      · rw [List.mem_singleton.mp hc]
        exact UInt32.lt_of_lt_of_le hlt h.below

/-- A chunk handed over does not move it. -/
theorem stopBelow_sendData (h : StopBelow b base l) (chunkId : UInt32) (data : Bytes) :
    (l.sendData chunkId data).StopBelow b base := by
  have hout := sendData_outcome l chunkId data
  generalize l.sendData chunkId data = after at hout ⊢
  cases hout with
  | stale _ => exact h
  | afterStop _ _ _ => exact ⟨h.defined, h.below, h.reached, h.since⟩
  | duplicate _ _ _ => exact h
  | stored _ _ _ timers _ => exact ⟨h.defined, h.below, h.reached, h.since⟩

/-- A stop at or below the stop point in force only lowers it. -/
theorem stopBelow_stop (h : StopBelow b base l) {n : UInt32} (hn : n ≤ l.stopWriteChunkId) :
    (l.stop n).StopBelow b base := by
  have hdef : l.stopWriteChunkId < kUndefinedChunkID := by
    have := h.defined
    simp only [kUndefinedChunkID] at this ⊢
    grind
  by_cases hle : n ≤ l.nextWriteChunkId
  · rw [stop_atOnce hle]
    have hlt := UInt32.lt_of_le_of_lt h.reached hdef
    exact ⟨fun heq => UInt32.lt_irrefl _ (heq ▸ hlt), UInt32.le_trans h.reached h.below,
      UInt32.le_refl _, h.since⟩
  · have hlt := UInt32.not_le.mp hle
    rw [stop_later hlt]
    have hndef := UInt32.lt_of_le_of_lt hn hdef
    exact ⟨fun heq => UInt32.lt_irrefl _ (heq ▸ hndef), UInt32.le_trans hn h.below,
      UInt32.le_of_lt hlt, h.since⟩

/-- **No event but a higher stop moves it up.** -/
theorem stopBelow_step {e : LinkEvent} (h : StopBelow b base l) (hkept : StopKept l e)
    (hstep : l.step e = some l') : l'.StopBelow b base := by
  cases e with
  | asio e =>
      obtain ⟨⟨m, call⟩, hm, rfl⟩ := Option.map_eq_some_iff.mp hstep
      exact chunkProperty_stopBelow.asioStep h hm
  | sendData chunkId data => exact Option.some.inj hstep ▸ stopBelow_sendData h chunkId data
  | stop n => exact Option.some.inj hstep ▸ stopBelow_stop h hkept

/-- Both indices are at most the larger one. -/
theorem le_max (m n : UInt32) : m ≤ max m n ∧ n ≤ max m n := by
  change m ≤ (if m ≤ n then n else m) ∧ n ≤ (if m ≤ n then n else m)
  split
  · rename_i h
    exact ⟨h, UInt32.le_refl _⟩
  · rename_i h
    exact ⟨UInt32.le_refl _, UInt32.le_of_lt (UInt32.not_le.mp h)⟩

/-- The stop itself sets the bound. -/
theorem stopBelow_first {n : UInt32} (hn : n ≠ kUndefinedChunkID)
    (hnext : l.nextWriteChunkId ≠ kUndefinedChunkID) :
    (l.stop n).StopBelow (max n l.nextWriteChunkId) l.appended := by
  by_cases hle : n ≤ l.nextWriteChunkId
  · rw [stop_atOnce hle]
    exact ⟨hnext, (le_max n _).2, UInt32.le_refl _, [], by simp, by simp⟩
  · have hlt := UInt32.not_le.mp hle
    rw [stop_later hlt]
    exact ⟨hn, (le_max n _).1, UInt32.le_of_lt hlt, [], by simp, by simp⟩

/-- **Stop is permanent unless it is raised.**  If neither `n` nor the awaited
index is the sentinel 2³²-1 and no later `Stop` call lies above the stop point
in force, then after `Stop(n)` no chunk numbered `max(n, m)` or above is
drained, where `m` is the index awaited at the call. -/
theorem stop_permanent (l : OutLink) (n : UInt32) {es : List LinkEvent} {l' : OutLink}
    (hn : n ≠ kUndefinedChunkID)
    (hnext : l.nextWriteChunkId ≠ kUndefinedChunkID)
    (hkept : Always step (fun s e _ => StopKept s e) (l.stop n) es)
    (hrun : Transition.run step (l.stop n) es = some l') :
    StopPermanent l n l' := by
  have hreach : Reach step StopKept (· = l.stop n) l' :=
    Reach.of_run (.start rfl) hkept hrun
  have hbelow : l'.StopBelow (max n l.nextWriteChunkId) l.appended := by
    refine hreach.invariant ?_ ?_
    · intro s hs
      subst hs
      exact stopBelow_first hn hnext
    · exact fun s e s' _ h hok hstep => stopBelow_step h hok hstep
  exact hbelow.since

/-- Two chunks arrive in the wrong order, then the stop again, then a chunk behind it. -/
theorem stop_permanent_two :
    ∃ l', Transition.run step ((createAccepted.run (.ofByte 1)).stop 2)
        [.sendData 1 [66], .sendData 0 [65], .stop 2, .sendData 2 [67],
          .asio (.timerHandler 0)] = some l' ∧
      l'.appended = [(0, [65]), (1, [66])] ∧
      StopPermanent (createAccepted.run (.ofByte 1)) 2 l' :=
  ⟨_, rfl, rfl, @stop_permanent (createAccepted.run (.ofByte 1)) 2
    [.sendData 1 [66], .sendData 0 [65], .stop 2, .sendData 2 [67], .asio (.timerHandler 0)] _
    (by decide +kernel) (by decide +kernel) (by decide +kernel) rfl⟩

/-- A second call raises the stop point: after `Stop(0)` and `Stop(5)` chunk 0
is drained, although the link was to close at once. -/
theorem stop_raised :
    ∃ l', Transition.run step ((createAccepted.run (.ofByte 1)).stop 0)
        [.stop 5, .sendData 0 [65], .asio (.timerHandler 0)] = some l' ∧
      l'.appended = [(0, [65])] ∧ ¬ StopPermanent (createAccepted.run (.ofByte 1)) 0 l' := by
  refine ⟨_, rfl, rfl, ?_⟩
  intro hmore
  obtain ⟨more, hmore, hbelow⟩ := hmore
  have hdrained : [((0 : UInt32), ([65] : Bytes))] = more := hmore
  exact absurd (hbelow (0, [65]) (hdrained ▸ List.mem_singleton_self _)) (by decide)

end OutLink
