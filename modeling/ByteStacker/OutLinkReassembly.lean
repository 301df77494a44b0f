import ByteStacker.OutLinkDrain

/-!
# Exact reassembly

Chunks arrive in any order, repeated and with gaps; `Stop` erases some of them,
the drain moves others to the network buffer, and partial writes take the
buffer from the front.  What a link has handed to its socket, together with
what it still has in the buffer, is nevertheless exactly
`data 0 ++ data 1 ++ ⋯` up to the awaited index, as long as chunks of one number
carry the same bytes and the number 2³²-1 stays out of use.

The bytes of a completed write stay in the buffer until its handler has run;
`taken` counts them.  `Accounted` is the equation of the byte stream, `Sorted`
the invariant of the chunk map, and `Held` follows one chunk in the map.
-/

namespace OutLink

open Transition

variable {l l' : OutLink}

/-! ## The stream -/

/-- Bytes of the buffer which a completed write took and its handler has not
dropped yet. -/
def taken (l : OutLink) : Nat :=
  l.writes.foldr (fun w n => w.result.elim 0 WriteResult.transferred + n) 0

/-- Writes without a result have taken nothing out of the buffer. -/
theorem taken_eq_zero (h : ∀ w ∈ l.writes, w.result = none) : l.taken = 0 := by
  unfold taken
  generalize l.writes = ws at h
  induction ws with
  | nil => rfl
  | cons w rest ih =>
      have hw := h w List.mem_cons_self
      simp [hw, ih fun v hv => h v (List.mem_cons_of_mem w hv)]

/-- A failed write takes no bytes. -/
def WritesClean : LinkEvent → Prop
  | .asio (.writeDone _ r) => r.error = true → r.transferred = 0
  | _ => True

/-- **Accounted.**  Every drained byte has been written or is in the buffer. -/
structure Accounted (l : OutLink) : Prop where
  drained : l.appended.flatMap Prod.snd = l.written ++ l.networkWriteBuffer.drop l.taken
  clean : ∀ w ∈ l.writes, ∀ r, w.result = some r → r.error = true → r.transferred = 0

/-- The account depends on the buffer and the writes only; aborting a write takes no byte. -/
theorem Accounted.congr {m : OutLink} (h : Accounted l) (hsame : SameBuffer l m)
    (hwrites : m.writes = l.writes ∨ m.writes = l.writes.map abortWrite) : m.Accounted := by
  have htaken : m.taken = l.taken := by
    rcases hwrites with hwrites | hwrites
    · rw [taken, hwrites, taken]
    · rw [taken, hwrites, taken, List.foldr_map]
      simp only [transferred_abortWrite]
  refine ⟨?_, ?_⟩
  · rw [hsame.appended, hsame.written, hsame.networkWriteBuffer, htaken]
    exact h.drained
  · rcases hwrites with hwrites | hwrites
    · rw [hwrites]
      exact h.clean
    · rw [hwrites]
      intro w hw r hr herr
      obtain ⟨v, hv, rfl⟩ := List.mem_map.mp hw
      cases hv' : v.result with
      | none =>
          simp only [abortWrite, hv', Option.getD_none, Option.some.injEq] at hr
          rw [← hr]
      | some r' =>
          simp only [abortWrite, hv', Option.getD_some, Option.some.injEq] at hr
          exact h.clean v hv r (hv'.trans (congrArg some hr)) herr

/-- A turn of the write loop moves bytes from the map to the buffer. -/
theorem accounted_requestWrite
    (hd : l.appended.flatMap Prod.snd = l.written ++ l.networkWriteBuffer)
    (hnone : l.writes = []) : l.requestWrite.Accounted := by
  obtain ⟨hd', hw', hpending⟩ := unwritten_requestWrite hd rfl hnone
  refine ⟨?_, ?_⟩
  · rw [taken_eq_zero hpending, List.drop_zero, hw']
    exact hd'
  · intro w hw r hr
    exact absurd ((hpending w hw).symm.trans hr) (by simp)

/-- **Every asio event keeps the bytes accounted for**, as long as failed
writes take none. -/
theorem accounted_asioStep {e : AsioEvent} {call : Option HosterCall} (h : Accounted l)
    (ho : Owned l) (hclean : WritesClean (.asio e)) (hstep : l.asioStep e = some (l', call)) :
    l'.Accounted := by
  cases asioStep_buffer ho hstep with
  | kept hsame hwrites _ => exact h.congr hsame hwrites
  | began hsame _ hidle hnone =>
      refine accounted_requestWrite ?_ hnone
      have hzero : l.taken = 0 := by simp [taken, hidle]
      have hd := h.drained
      rw [hzero, List.drop_zero] at hd
      rw [hsame.appended, hsame.written, hsame.networkWriteBuffer, hd]
  | @done i size r hone hle =>
      have hzero : l.taken = 0 := by simp [taken, hone]
      have hd := h.drained
      rw [hzero, List.drop_zero] at hd
      refine ⟨?_, ?_⟩
      · simp [taken, hd]
      · simpa [WritesClean] using hclean
  | @failed i size r hone hfail _ =>
      have hr : r.transferred = 0 := hfail.elim (h.clean ⟨size, some r⟩ (by simp [hone]) r rfl) id
      have hd := h.drained
      refine ⟨?_, ?_⟩
      · simpa [taken, hone, hr, checkReadyClose, cancelSocket] using hd
      · simp [checkReadyClose, cancelSocket]
  | @continued i size r hone =>
      refine accounted_requestWrite ?_ rfl
      have hd := h.drained
      simpa [taken, hone] using hd

/-- **Every event keeps the account.** -/
theorem accounted_step {e : LinkEvent} (h : Accounted l) (ho : Owned l) (hclean : WritesClean e)
    (hstep : l.step e = some l') : l'.Accounted := by
  cases e with
  | asio e =>
      obtain ⟨⟨m, call⟩, hm, rfl⟩ := Option.map_eq_some_iff.mp hstep
      exact accounted_asioStep h ho hclean hm
  | sendData chunkId data =>
      cases hstep
      have hout := sendData_outcome l chunkId data
      generalize l.sendData chunkId data = after at hout ⊢
      cases hout <;> exact h.congr ⟨rfl, rfl, rfl⟩ (Or.inl rfl)
  | stop n =>
      cases hstep
      by_cases hn : n ≤ l.nextWriteChunkId
      · rw [stop_atOnce hn]
        exact h.congr ⟨rfl, rfl, rfl⟩ (Or.inl rfl)
      · rw [stop_later (UInt32.not_le.mp hn)]
        exact h.congr ⟨rfl, rfl, rfl⟩ (Or.inl rfl)

/-- A new link has nothing to account for. -/
theorem accounted_fresh (h : Fresh l) : Accounted l := by
  obtain ⟨cnt, rfl | ⟨address, port, rfl⟩⟩ := h
  · unfold run startLoops requestRead
    simp only [createAccepted, if_true, assertThat_true]
    exact accounted_requestWrite rfl rfl
  · exact ⟨rfl, by simp [run, createAddress]⟩

/-! ## The chunks -/

/-- A chunk that may be handed to the link: its number is not the sentinel, its
bytes are those of its number, and it satisfies `Q`. -/
def Genuine (data : UInt32 → Bytes) (Q : UInt32 → Prop) (c : UInt32 × Bytes) : Prop :=
  c.1 ≠ kUndefinedChunkID ∧ c.2 = data c.1 ∧ Q c.1

/-- The event hands over a genuine chunk, if it hands over any. -/
def SendsGenuine (data : UInt32 → Bytes) (Q : UInt32 → Prop) : LinkEvent → Prop
  | .sendData chunkId chunk => Genuine data Q (chunkId, chunk)
  | _ => True

variable {data : UInt32 → Bytes} {Q : UInt32 → Prop}

/-- **Sorted.**  The chunks are genuine and numbered in order, and a stop point
in force lies above every chunk of the map. -/
structure Sorted (data : UInt32 → Bytes) (Q : UInt32 → Prop) (l : OutLink) : Prop
    extends Reassembly l where
  genuine : ChunksFrom (Genuine data Q) l
  bounded : l.stopWriteChunkId ≠ kUndefinedChunkID →
    ∀ c ∈ l.writeChunks.entries, c.1 < l.stopWriteChunkId

/-- Being sorted is a matter of the chunks and the stop point. -/
theorem chunkProperty_sorted : ChunkProperty (Sorted data Q) where
  congr := fun l m hs h =>
    ⟨chunkProperty_reassembly.congr l m hs h.toReassembly,
      chunkProperty_chunksFrom.congr l m hs h.genuine, chunkProperty_wanted.congr l m hs h.bounded⟩
  finish := fun l h hstop =>
    ⟨chunkProperty_reassembly.finish l h.toReassembly hstop,
      chunkProperty_chunksFrom.finish l h.genuine hstop,
      chunkProperty_wanted.finish l h.bounded hstop⟩
  take := fun l chunk rest h hopen hentries =>
    ⟨chunkProperty_reassembly.take l chunk rest h.toReassembly hopen hentries,
      chunkProperty_chunksFrom.take l chunk rest h.genuine hopen hentries,
      chunkProperty_wanted.take l chunk rest h.bounded hopen hentries⟩

/-- **Every event that sends genuine chunks keeps the link sorted.** -/
theorem sorted_step {e : LinkEvent} (h : Sorted data Q l) (hsend : SendsGenuine data Q e)
    (hstep : l.step e = some l') : l'.Sorted data Q := by
  cases e with
  | asio e =>
      obtain ⟨⟨m, call⟩, hm, rfl⟩ := Option.map_eq_some_iff.mp hstep
      exact chunkProperty_sorted.asioStep h hm
  | sendData chunkId chunk =>
      cases hstep
      exact ⟨reassembly_sendData h.toReassembly chunkId chunk,
        chunksFrom_sendData h.genuine hsend, wanted_sendData h.bounded chunkId chunk⟩
  | stop n =>
      cases hstep
      exact ⟨reassembly_stop h.toReassembly n, chunksFrom_stop h.genuine n, wanted_stop l n⟩

/-- A new link has no chunks. -/
theorem sorted_fresh (h : Fresh l) : Sorted data Q l := by
  refine chunkProperty_sorted.fresh ?_ ?_ h
  · exact ⟨⟨rfl, rfl, by simp [createAccepted]⟩, by simp [ChunksFrom, createAccepted],
      by simp [createAccepted]⟩
  · exact fun address port => ⟨⟨rfl, rfl, by simp [createAddress]⟩,
      by simp [ChunksFrom, createAddress], by simp [createAddress]⟩

/-- Without the sentinel among them, fewer than 2³² chunks can be drained. -/
theorem Sorted.length_lt (h : Sorted data Q l) : l.appended.length < 4294967296 := by
  by_contra hlong
  have hp : 4294967295 < l.appended.length := by omega
  have hgenuine := h.genuine _ (Or.inr (List.getElem_mem hp))
  exact hgenuine.1 (h.numbered.fst_getElem hp)

/-- The awaited index has not wrapped around. -/
theorem Sorted.next_toNat (h : Sorted data Q l) :
    l.nextWriteChunkId.toNat = l.appended.length := by
  rw [h.next, index_toNat h.length_lt]

/-- The drained bytes are those of the chunks below the awaited index. -/
theorem Sorted.drained (h : Sorted data Q l) :
    l.appended.flatMap Prod.snd =
      (List.range l.nextWriteChunkId.toNat).flatMap fun p => data (UInt32.ofNat p) := by
  have hlist := h.numbered.eq_map fun c hc => (h.genuine c (Or.inr hc)).2.1
  rw [h.next_toNat]
  conv_lhs => rw [hlist]
  rw [List.flatMap_map]

/-- Every number below the awaited index has been drained. -/
theorem Sorted.received (h : Sorted data Q l) {i : UInt32} (hi : i < l.nextWriteChunkId) :
    Q i := by
  have hp : i.toNat < l.appended.length := h.next_toNat ▸ UInt32.lt_iff_toNat_lt.mp hi
  have hgenuine := h.genuine _ (Or.inr (List.getElem_mem hp))
  have hfst : l.appended[i.toNat].1 = i := by
    rw [h.numbered.fst_getElem hp]
    exact UInt32.ofNat_toNat
  exact hfst ▸ hgenuine.2.2

/-- Behind a number other than the sentinel the index does not wrap around. -/
theorem lt_of_next_le {next i : UInt32} (hne : next ≠ kUndefinedChunkID) (hle : next + 1 ≤ i) :
    next < i ∧ i ≠ next := by
  simp only [kUndefinedChunkID] at hne
  grind

/-! ## One chunk in the map -/

/-- The event is a stop's doing to chunk `i`: `SendData` rejects it behind the
stop point, or `Stop` erases it from the map.  The drain clears the map too,
but only behind the stop point, where there is nothing left. -/
def StopDrops (i : UInt32) (l : OutLink) : LinkEvent → Prop
  | .sendData chunkId _ => chunkId = i ∧ l.nextWriteChunkId ≤ i ∧
      l.stopWriteChunkId ≠ kUndefinedChunkID ∧ l.stopWriteChunkId ≤ i
  | .stop n => l.writeChunks.contains i = true ∧ (n ≤ l.nextWriteChunkId ∨ n ≤ i)
  | .asio _ => False

instance (i : UInt32) (l : OutLink) : ∀ e, Decidable (StopDrops i l e)
  | .asio _ => isFalse id
  | .sendData _ _ => inferInstanceAs (Decidable (_ ∧ _ ∧ _ ∧ _))
  | .stop _ => inferInstanceAs (Decidable (_ ∧ (_ ∨ _)))

/-- Chunk `i` is in the map unless it has been drained. -/
def Held (data : UInt32 → Bytes) (i : UInt32) (l : OutLink) : Prop :=
  l.nextWriteChunkId ≤ i → (i, data i) ∈ l.writeChunks.entries

variable {i : UInt32}

/-- A chunk leaves the map only when it is drained. -/
theorem chunkProperty_held :
    ChunkProperty (fun l => Sorted data Q l ∧ Held data i l) where
  congr := by
    intro l m hs h
    refine ⟨chunkProperty_sorted.congr l m hs h.1, ?_⟩
    unfold Held
    rw [hs.nextWriteChunkId, hs.writeChunks]
    exact h.2
  finish := by
    intro l h hstop
    refine ⟨chunkProperty_sorted.finish l h.1 hstop, fun hle => ?_⟩
    have hempty := (ChunkMap.mk h.1.toReassembly h.1.bounded).stopped_empty hstop
    exact absurd (h.2 hle) (by simp [hempty])
  take := by
    intro l chunk rest h hopen hentries
    refine ⟨chunkProperty_sorted.take l chunk rest h.1 hopen hentries, fun hle => ?_⟩
    have hgenuine := h.1.genuine (l.nextWriteChunkId, chunk) (Or.inl (by simp [hentries]))
    obtain ⟨hlt, hne⟩ := lt_of_next_le hgenuine.1 hle
    exact (SortedMap.mem_eraseBegin hentries).mpr ⟨h.2 (UInt32.le_of_lt hlt), hne⟩

/-- So no event loses it, unless a stop drops it. -/
theorem held_step {e : LinkEvent} (hs : Sorted data Q l) (h : Held data i l)
    (hkept : ¬ StopDrops i l e) (hstep : l.step e = some l') : l'.Held data i := by
  cases e with
  | asio e =>
      obtain ⟨⟨m, call⟩, hm, rfl⟩ := Option.map_eq_some_iff.mp hstep
      exact (chunkProperty_held.asioStep ⟨hs, h⟩ hm).2
  | sendData chunkId chunk =>
      cases hstep
      have hout := sendData_outcome l chunkId chunk
      generalize l.sendData chunkId chunk = after at hout ⊢
      cases hout with
      | stale _ => exact h
      | afterStop _ _ _ => exact h
      | duplicate _ _ _ => exact h
      | stored _ _ hnew timers _ =>
          exact fun hle => (SortedMap.mem_insert_new hnew).mpr (Or.inr (h hle))
  | stop n =>
      cases hstep
      have habove : ∀ hle : l.nextWriteChunkId ≤ i, ¬ (n ≤ l.nextWriteChunkId ∨ n ≤ i) :=
        fun hle hn => hkept ⟨SortedMap.contains_iff.mpr ⟨_, h hle⟩, hn⟩
      by_cases hn : n ≤ l.nextWriteChunkId
      · rw [stop_atOnce hn]
        exact fun hle => absurd (Or.inl hn) (habove hle)
      · rw [stop_later (UInt32.not_le.mp hn)]
        intro hle
        refine List.mem_filter.mpr ⟨h hle, ?_⟩
        simpa using fun hni => habove hle (Or.inr hni)

/-- A chunk handed over is in the map, unless it had been drained. -/
theorem held_sendData (hs : Sorted data Q l)
    (hkept : ¬ StopDrops i l (.sendData i (data i))) : (l.sendData i (data i)).Held data i := by
  have hout := sendData_outcome l i (data i)
  generalize l.sendData i (data i) = after at hout ⊢
  cases hout with
  | stale hlt => exact fun hle => absurd hle (UInt32.not_le.mpr hlt)
  | afterStop hge hdef hstop => exact absurd ⟨rfl, UInt32.not_lt.mp hge, hdef, hstop⟩ hkept
  | duplicate _ _ hdup =>
      intro _
      obtain ⟨chunk, hmem⟩ := SortedMap.contains_iff.mp hdup
      have hgenuine := hs.genuine (i, chunk) (Or.inl hmem)
      have heq : chunk = data i := hgenuine.2.1
      exact heq ▸ hmem
  | stored _ _ hnew timers _ =>
      exact fun _ => (SortedMap.mem_insert_new hnew).mpr (Or.inl rfl)

/-! ## The whole run -/

/-- **Reassembled.**  What a link makes of the chunks the events `es` hand to
it, seen in the state `l` they lead to from `l₀`. -/
structure Reassembled (data : UInt32 → Bytes) (l₀ : OutLink) (es : List LinkEvent)
    (l : OutLink) : Prop where
  /-- Written bytes and the rest of the buffer are the chunks in order. -/
  stream : l.written ++ l.networkWriteBuffer.drop l.taken =
    (List.range l.nextWriteChunkId.toNat).flatMap fun p => data (UInt32.ofNat p)
  /-- Between a write and the next one the rest is the whole buffer. -/
  settled : (∀ w ∈ l.writes, w.result = none) → l.written ++ l.networkWriteBuffer =
    (List.range l.nextWriteChunkId.toNat).flatMap fun p => data (UInt32.ofNat p)
  received : ∀ i < l.nextWriteChunkId, LinkEvent.sendData i (data i) ∈ es
  held : ∀ i, LinkEvent.sendData i (data i) ∈ es → l.nextWriteChunkId ≤ i →
    Always step (fun s e _ => ¬ StopDrops i s e) l₀ es → (i, data i) ∈ l.writeChunks.entries

/-- **Exact reassembly.**  If chunks of one number carry the same bytes, the
number 2³²-1 is not used and failed writes take nothing, then in every state a
link reaches the bytes written and the buffer are the chunks `0, 1, …` in order
up to the awaited index, all of them received, and every other chunk received
that no stop rejected or erased is in the map. -/
theorem exact_reassembly (data : UInt32 → Bytes) {l₀ l : OutLink} {es : List LinkEvent}
    (hfresh : Fresh l₀)
    (hsend : ∀ i chunk, LinkEvent.sendData i chunk ∈ es →
      i ≠ kUndefinedChunkID ∧ chunk = data i)
    (hclean : ∀ e ∈ es, WritesClean e)
    (hrun : Transition.run step l₀ es = some l) : Reassembled data l₀ es l := by
  have hgenuine : ∀ e ∈ es,
      SendsGenuine data (fun i => LinkEvent.sendData i (data i) ∈ es) e := by
    intro e he
    cases e with
    | asio e => trivial
    | stop n => trivial
    | sendData i chunk =>
        obtain ⟨hne, rfl⟩ := hsend i chunk he
        exact ⟨hne, rfl, he⟩
  have hreach : Reach step (fun _ e => WritesClean e ∧
      SendsGenuine data (fun i => LinkEvent.sendData i (data i) ∈ es) e) (· = l₀) l :=
    .of_run (.start rfl) (always_of_mem fun e he => ⟨hclean e he, hgenuine e he⟩) hrun
  obtain ⟨_, haccounted, hsorted⟩ : Owned l ∧ Accounted l ∧
      Sorted data (fun i => LinkEvent.sendData i (data i) ∈ es) l := by
    refine hreach.invariant (I := fun l => Owned l ∧ Accounted l ∧ Sorted data _ l) ?_ ?_
    · intro s hs
      subst hs
      exact ⟨owned_fresh hfresh, accounted_fresh hfresh, sorted_fresh hfresh⟩
    · intro s e s' _ hinv hok hstep
      obtain ⟨ho, ha, hs⟩ := hinv
      exact ⟨owned_step ho hstep, accounted_step ha ho hok.1 hstep, sorted_step hs hok.2 hstep⟩
  have hstream : l.written ++ l.networkWriteBuffer.drop l.taken =
      (List.range l.nextWriteChunkId.toNat).flatMap fun p => data (UInt32.ofNat p) :=
    haccounted.drained.symm.trans hsorted.drained
  refine ⟨hstream, fun hnone => ?_, fun i hi => hsorted.received hi, ?_⟩
  · rwa [taken_eq_zero hnone, List.drop_zero] at hstream
  · intro i hi hle hkept
    have hok := always_and (always_of_mem hgenuine) hkept
    refine holds_of_mem (I := Sorted data (fun i => LinkEvent.sendData i (data i) ∈ es))
      (Q := Held data i) ?_ ?_ ?_ (sorted_fresh hfresh) hok hrun (Or.inr hi) hle
    · exact fun s e s' hs hok hstep => sorted_step hs hok.1 hstep
    · exact fun s s' hs hok hstep => Option.some.inj hstep ▸ held_sendData hs hok.2
    · exact fun s e s' hs h hok hstep => held_step hs h hok.2 hstep

/-- Chunk 1 arrives first and twice, chunk 3 waits in the map for chunk 2, and
the socket takes chunks 0 and 1 in two writes. -/
theorem exact_reassembly_gap :
    ∃ l, Transition.run step (createAccepted.run (.ofByte 1))
        [.sendData 1 [66, 67], .sendData 3 [69], .sendData 1 [66, 67], .sendData 0 [65],
          .asio (.timerHandler 0), .asio (.writeDone 0 ⟨false, 2⟩), .asio (.writeHandler 0)] =
        some l ∧
      l.written = [65, 66] ∧ l.networkWriteBuffer = [67] ∧ l.nextWriteChunkId = 2 ∧
      Reassembled (fun i => if i = 0 then [65] else if i = 1 then [66, 67] else [69])
        (createAccepted.run (.ofByte 1))
        [.sendData 1 [66, 67], .sendData 3 [69], .sendData 1 [66, 67], .sendData 0 [65],
          .asio (.timerHandler 0), .asio (.writeDone 0 ⟨false, 2⟩), .asio (.writeHandler 0)] l := by
  refine ⟨_, rfl, rfl, rfl, rfl, ?_⟩
  refine exact_reassembly _ ⟨.ofByte 1, Or.inl rfl⟩ ?_ ?_ rfl
  · intro i chunk hmem
    simp only [List.mem_cons, LinkEvent.sendData.injEq, reduceCtorEq, List.not_mem_nil,
      or_false] at hmem
    rcases hmem with ⟨rfl, rfl⟩ | ⟨rfl, rfl⟩ | ⟨rfl, rfl⟩ | ⟨rfl, rfl⟩ <;> decide
  · simp [WritesClean]

end OutLink
