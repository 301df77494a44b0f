import ByteStacker.OutLinkReassembly
import ByteStacker.OutLinkStop
import ByteStacker.OutLinkWakeup

/-!
# Orderly close

One stream of chunks `data₀ … dataₙ₋₁` and the one stop `Stop(n)` reach a link
in any order and any number of times, before or after the connection is
established, between idle completions and partial writes.  `orderly_close`
says that the write loop then ends only when every byte has been written, and
that it does not sleep once everything has arrived.

* `StreamOf data` follows the chunks: what the map holds and what was drained
  belong to the stream, the stop point is `n`, and "all is in the buffer" is
  claimed only when it is;
* `EndsDry` follows the write loop: it ends with an empty buffer;
* `not_stopDrops` makes the deliveries a case of the general reassembly: a chunk
  once delivered is in the map or drained.
-/

namespace OutLink

open Transition

variable {l l' : OutLink} {data : List Bytes}

/-- The events of an orderly close of the stream `data`: its chunks, `Stop(n)`,
and asio events among which writes succeed and no read fails before the link
has cancelled its reads itself. -/
def OrderlyEvent (data : List Bytes) (l : OutLink) : LinkEvent → Prop
  | .sendData chunkId chunk => data[chunkId.toNat]? = some chunk
  | .stop n => n = UInt32.ofNat data.length
  | .asio (.readHandler i) =>
    ∀ r, l.reads[i]? = some (some r) → r.error = true → l.stopWriteImmediate = true
  | .asio (.writeDone _ r) => r.error = false ∧ 0 < r.transferred
  | .asio _ => True

instance (data : List Bytes) (l : OutLink) : ∀ e, Decidable (OrderlyEvent data l e)
  | .sendData chunkId chunk => inferInstanceAs (Decidable (data[chunkId.toNat]? = some chunk))
  | .stop n => inferInstanceAs (Decidable (n = UInt32.ofNat data.length))
  | .asio (.readHandler i) =>
    decidable_of_iff (∀ x ∈ l.reads[i]?, ∀ r ∈ x, r.error = true → l.stopWriteImmediate = true)
      ⟨fun h r hr => h (some r) hr r rfl, fun h _ hx r hr => h r (hr ▸ hx)⟩
  | .asio (.writeDone _ r) => inferInstanceAs (Decidable (r.error = false ∧ 0 < r.transferred))
  | .asio (.resolved ..) | .asio (.connected ..) | .asio (.readDone ..)
  | .asio (.writeHandler _) | .asio (.timerExpire _) | .asio (.timerHandler _)
  | .asio .closeCheck => isTrue trivial

/-- Every chunk of the stream and its stop are among the events. -/
def Delivered (data : List Bytes) (es : List LinkEvent) : Prop :=
  (∀ i chunk, data[i]? = some chunk → .sendData (UInt32.ofNat i) chunk ∈ es) ∧
    .stop (UInt32.ofNat data.length) ∈ es

/-! ## The chunks of the stream -/

/-- The link carries the stream `data` and no other stop point than its end. -/
structure StreamOf (data : List Bytes) (l : OutLink) : Prop extends Reassembly l where
  chunks : ChunksFrom (fun e => data[e.1.toNat]? = some e.2) l
  stopAt : l.stopWriteChunkId = kUndefinedChunkID ∨
    l.stopWriteChunkId = UInt32.ofNat data.length
  all : l.stopAfterAllWrite = true →
    l.stopWriteChunkId = UInt32.ofNat data.length ∧ l.appended.length = data.length

/-- The number of chunks fits into an index. -/
theorem end_toNat (hn : data.length < 4294967295) :
    (UInt32.ofNat data.length).toNat = data.length :=
  index_toNat (by omega)

/-- No more chunks are drained than the stream has. -/
theorem StreamOf.length_le (h : StreamOf data l) (hn : data.length < 4294967295) :
    l.appended.length ≤ data.length := by
  by_contra hlt
  have hp : data.length < l.appended.length := by omega
  have hmem : data[l.appended[data.length].1.toNat]? = some l.appended[data.length].2 :=
    h.chunks _ (Or.inr (List.getElem_mem hp))
  rw [h.numbered.fst_getElem hp, end_toNat hn] at hmem
  simp at hmem

/-- The awaited index has not wrapped around. -/
theorem StreamOf.next_toNat (h : StreamOf data l) (hn : data.length < 4294967295) :
    l.nextWriteChunkId.toNat = l.appended.length := by
  have hle := h.length_le hn
  rw [h.next, index_toNat (by omega)]

/-- The end of the stream is not mistaken for "no stop". -/
theorem end_ne_undefined (hn : data.length < 4294967295) :
    UInt32.ofNat data.length ≠ kUndefinedChunkID := by
  intro heq
  have hnat := congrArg UInt32.toNat heq
  rw [end_toNat hn] at hnat
  simp only [kUndefinedChunkID, UInt32.reduceToNat] at hnat
  omega

/-- The stop point of an orderly stream is reached only at its end. -/
theorem StreamOf.stopReached_iff (h : StreamOf data l) (hn : data.length < 4294967295) :
    l.stopReached = true ↔
      l.stopWriteChunkId = UInt32.ofNat data.length ∧ l.appended.length = data.length := by
  have hle := h.length_le hn
  have hnext := h.next_toNat hn
  have hend := end_ne_undefined hn
  simp only [stopReached, ne_eq, decide_eq_true_eq, UInt32.le_iff_toNat_le, hnext]
  constructor
  · intro hreached
    obtain ⟨hdef, hreach⟩ := hreached
    have hstop := h.stopAt.resolve_left hdef
    rw [hstop, end_toNat hn] at hreach
    exact ⟨hstop, by omega⟩
  · intro hended
    obtain ⟨hstop, hlen⟩ := hended
    rw [hstop, end_toNat hn]
    exact ⟨hend, by omega⟩

/-- Being such a stream is a matter of the chunks and the stop point. -/
theorem chunkProperty_streamOf (hn : data.length < 4294967295) :
    ChunkProperty (StreamOf data) where
  congr := by
    intro l m hs h
    exact {
      toReassembly := chunkProperty_reassembly.congr l m hs h.toReassembly
      chunks := chunkProperty_chunksFrom.congr l m hs h.chunks
      stopAt := by rw [hs.stopWriteChunkId]; exact h.stopAt
      all := by rw [hs.stopAfterAllWrite, hs.stopWriteChunkId, hs.appended]; exact h.all }
  finish := by
    intro l h hreach
    exact {
      toReassembly := chunkProperty_reassembly.finish l h.toReassembly hreach
      chunks := chunkProperty_chunksFrom.finish l h.chunks hreach
      stopAt := h.stopAt
      all := fun _ => (h.stopReached_iff hn).mp hreach }
  take := by
    intro l chunk rest h hopen hentries
    exact {
      toReassembly := chunkProperty_reassembly.take l chunk rest h.toReassembly hopen hentries
      chunks := chunkProperty_chunksFrom.take l chunk rest h.chunks hopen hentries
      stopAt := h.stopAt
      all := fun hall => absurd (hopen.symm.trans ((h.stopReached_iff hn).mpr (h.all hall)))
        (by simp) }

/-- A chunk of the stream keeps it. -/
theorem streamOf_sendData (h : StreamOf data l) {chunkId : UInt32} {chunk : Bytes}
    (hchunk : data[chunkId.toNat]? = some chunk) : (l.sendData chunkId chunk).StreamOf data := by
  have hreassembly := reassembly_sendData h.toReassembly chunkId chunk
  have hchunks := chunksFrom_sendData h.chunks hchunk
  have hout := sendData_outcome l chunkId chunk
  generalize l.sendData chunkId chunk = after at hout hreassembly hchunks ⊢
  cases hout with
  | stale _ => exact h
  | afterStop _ _ _ => exact ⟨hreassembly, hchunks, h.stopAt, h.all⟩
  | duplicate _ _ _ => exact h
  | stored _ _ _ timers _ => exact ⟨hreassembly, hchunks, h.stopAt, h.all⟩

/-- So does the stop at its end. -/
theorem streamOf_stop (h : StreamOf data l) (hn : data.length < 4294967295) :
    (l.stop (UInt32.ofNat data.length)).StreamOf data := by
  have hreassembly := reassembly_stop h.toReassembly (UInt32.ofNat data.length)
  have hchunks := chunksFrom_stop h.chunks (UInt32.ofNat data.length)
  have hle := h.length_le hn
  by_cases hreach : UInt32.ofNat data.length ≤ l.nextWriteChunkId
  · rw [stop_atOnce hreach] at hreassembly hchunks ⊢
    rw [UInt32.le_iff_toNat_le, h.next_toNat hn, end_toNat hn] at hreach
    have hlen : l.appended.length = data.length := by omega
    have hend : l.nextWriteChunkId = UInt32.ofNat data.length := by rw [h.next, hlen]
    exact ⟨hreassembly, hchunks, Or.inr hend, fun _ => ⟨hend, hlen⟩⟩
  · rw [stop_later (UInt32.not_le.mp hreach)] at hreassembly hchunks ⊢
    exact ⟨hreassembly, hchunks, Or.inr rfl, fun hall => ⟨rfl, (h.all hall).2⟩⟩

/-- **Every orderly event keeps the stream.** -/
theorem streamOf_step (hn : data.length < 4294967295) {e : LinkEvent} (h : StreamOf data l)
    (hok : OrderlyEvent data l e) (hstep : l.step e = some l') : l'.StreamOf data := by
  cases e with
  | asio e =>
      obtain ⟨⟨m, call⟩, hm, rfl⟩ := Option.map_eq_some_iff.mp hstep
      exact (chunkProperty_streamOf hn).asioStep h hm
  | sendData chunkId chunk => exact Option.some.inj hstep ▸ streamOf_sendData h hok
  | stop n =>
      have hstop : n = UInt32.ofNat data.length := hok
      subst hstop
      exact Option.some.inj hstep ▸ streamOf_stop h hn

/-- A new link has put out nothing of it. -/
theorem streamOf_fresh (hn : data.length < 4294967295) (h : Fresh l) : StreamOf data l := by
  refine (chunkProperty_streamOf hn).fresh ?_ ?_ h
  · exact ⟨⟨rfl, rfl, by simp [createAccepted]⟩, fun e he => by simp [createAccepted] at he,
      Or.inl rfl, by simp [createAccepted]⟩
  · exact fun address port => ⟨⟨rfl, rfl, by simp [createAddress]⟩,
      fun e he => by simp [createAddress] at he, Or.inl rfl, by simp [createAddress]⟩

/-- Once the end of the stream is reached, the drained bytes are the stream. -/
theorem StreamOf.drained_all (h : StreamOf data l) (hn : data.length < 4294967295)
    (hlen : l.appended.length = data.length) : l.appended.flatMap Prod.snd = data.flatten := by
  have hsnd : l.appended.map Prod.snd = data := by
    apply List.ext_getElem
    · simp [hlen]
    · intro p hp hp'
      have hpl : p < l.appended.length := by omega
      have hmem : data[l.appended[p].1.toNat]? = some l.appended[p].2 :=
        h.chunks _ (Or.inr (List.getElem_mem hpl))
      rw [h.numbered.fst_getElem hpl, index_toNat (by omega),
        List.getElem?_eq_getElem hp'] at hmem
      simpa using (Option.some.inj hmem).symm
  rw [List.flatMap_def, hsnd]

/-! ## The write loop -/

/-- The write loop ends with an empty buffer, and nothing fails before. -/
structure EndsDry (l : OutLink) : Prop where
  running : l.stopWriteImmediate = true → l.connected = true ∧ l.writeProcessing = false
  ended : l.connected = true → l.writeProcessing = false →
    l.stopWriteImmediate = true ∧ l.stopAfterAllWrite = true ∧ l.networkWriteBuffer = []
  results : ∀ w ∈ l.writes, ∀ r, w.result = some r → r.error = false ∧ 0 < r.transferred

/-- A state that agrees with an `EndsDry` one on the write loop. -/
theorem EndsDry.congr {m : OutLink} (h : EndsDry l)
    (himm : m.stopWriteImmediate = l.stopWriteImmediate) (hconn : m.connected = l.connected)
    (hproc : m.writeProcessing = l.writeProcessing)
    (hall : l.stopAfterAllWrite = true → m.stopAfterAllWrite = true)
    (hbuffer : m.networkWriteBuffer = l.networkWriteBuffer)
    (hwrites : m.writes = l.writes ∨ m.writes = []) : m.EndsDry where
  running := by rw [himm, hconn, hproc]; exact h.running
  ended := by
    rw [himm, hconn, hproc, hbuffer]
    intro hc hp
    obtain ⟨hi, ha, hb⟩ := h.ended hc hp
    exact ⟨hi, hall ha, hb⟩
  results := by
    rcases hwrites with hw | hw
    · rw [hw]
      exact h.results
    · simp [hw]

/-- `RequestWrite` ends the loop only with an empty buffer and everything put out. -/
theorem endsDry_requestWrite (himm : l.stopWriteImmediate = false)
    (hc : l.connected = true) (hp : l.writeProcessing = true) (hw : l.writes = []) :
    l.requestWrite.EndsDry := by
  have hout := requestWrite_outcome l
  generalize l.requestWrite = after at hout ⊢
  cases hout with
  | aborted fails h => exact absurd (himm.symm.trans h) (by simp)
  | finished fails m _ hm hbuffer hall =>
      have hs := sameLoops_filled hm
      exact ⟨fun _ => ⟨hs.connected.trans hc, rfl⟩, fun _ _ => ⟨rfl, hall, hbuffer⟩,
        by simp [endWrite, cancelReadWrite, cancelSocket, cancelTimer, checkReadyClose,
          hs.writes, hw]⟩
  | idle fails m _ hm _ _ =>
      have hs := sameLoops_filled hm
      exact ⟨fun h => absurd ((hs.stopWriteImmediate.trans himm).symm.trans h) (by simp),
        fun _ h => absurd ((hs.writeProcessing.trans hp).symm.trans h) (by simp),
        by simp [waitIdle, cancelTimer, hs.writes, hw]⟩
  | writing fails m _ hm _ =>
      have hs := sameLoops_filled hm
      exact ⟨fun h => absurd ((hs.stopWriteImmediate.trans himm).symm.trans h) (by simp),
        fun _ h => absurd ((hs.writeProcessing.trans hp).symm.trans h) (by simp),
        by simp [startWrite, hs.writes, hw]⟩

/-- So do the loops when they start. -/
theorem endsDry_startLoops (himm : l.stopWriteImmediate = false) (hw : l.writes = []) :
    l.startLoops.EndsDry := by
  unfold startLoops requestRead
  simp only [assertThat_true]
  exact endsDry_requestWrite himm rfl rfl hw

/-- Trying the next endpoint does not touch the buffer. -/
theorem EndsDry.requestConnect (h : EndsDry l) : l.requestConnect.EndsDry := by
  unfold OutLink.requestConnect
  split
  · exact h
  · exact h.congr rfl rfl rfl id rfl (Or.inl rfl)

/-- A read that fails does so after the write loop has ended. -/
theorem endsDry_readHandler (h : EndsDry l)
    (howned : l.writes.length + l.timers.length = l.writeProcessing.toNat) (r : ReadResult)
    (hlate : r.error = true → l.stopWriteImmediate = true) :
    (l.requestReadProcessing r).1.EndsDry := by
  obtain ⟨fails, heq⟩ := l.assertThat_eq .requestReadProcessing (r.data = [] ∨ l.hoster.isSome)
  unfold requestReadProcessing
  simp only [heq]
  split
  · rename_i herr
    have himm := hlate herr
    obtain ⟨_, hp⟩ := h.running himm
    have hnone : l.writes = [] := by
      rw [hp, Bool.toNat_false] at howned
      exact List.eq_nil_of_length_eq_zero (by omega)
    exact h.congr himm.symm rfl rfl id rfl
      (Or.inr (by simp [checkReadyClose, cancelReadWrite, cancelSocket, cancelTimer, hnone]))
  · obtain ⟨fails', heq'⟩ := ({ l with
      failedAsserts := fails
      readLog := l.readLog ++ r.data } : OutLink).assertThat_eq .requestRead l.readProcessing
    unfold requestRead
    rw [heq']
    exact h.congr rfl rfl rfl id rfl (Or.inl rfl)

/-- A write that was no failure goes on with the rest of the buffer. -/
theorem endsDry_writeHandler (h : EndsDry l) (ho : Owned l) {i size : Nat} {r : WriteResult}
    (hx : l.writes[i]? = some ⟨size, some r⟩) :
    ({ l with writes := l.writes.eraseIdx i }.requestWriteProcessing r).EndsDry := by
  obtain ⟨hwp, hone, herase, _⟩ := ho.writing hx
  obtain ⟨hc, _⟩ := ho.online (Or.inr hwp)
  obtain ⟨hsize, _, hle⟩ := ho.buffer ⟨size, some r⟩ (by simp [hone])
  have hfit : r.transferred ≤ l.networkWriteBuffer.length := hsize ▸ hle r rfl
  obtain ⟨herr, hpos⟩ := h.results ⟨size, some r⟩ (by simp [hone]) r rfl
  have himm : l.stopWriteImmediate = false := by
    by_contra himm
    exact absurd (hwp.symm.trans (h.running (by simpa using himm)).2) (by simp)
  rw [herase]
  rcases requestWriteProcessing_cases { l with writes := [] } r hwp hfit with
    ⟨hbad, _⟩ | ⟨_, _, heq⟩
  · rcases hbad with hbad | hbad
    · exact absurd (herr.symm.trans hbad) (by simp)
    · omega
  · rw [heq]
    exact endsDry_requestWrite himm hc hwp rfl

/-- **The write loop ends dry**, for every asio event an orderly close admits. -/
theorem endsDry_asioStep {e : AsioEvent} {call : Option HosterCall} (h : EndsDry l)
    (ho : Owned l) (hok : OrderlyEvent data l (.asio e))
    (hstep : l.asioStep e = some (l', call)) : l'.EndsDry := by
  cases asioStep_outcome hstep with
  | @resolved i x results hx =>
      cases results with
      | none => exact h.congr rfl rfl rfl id rfl (Or.inl rfl)
      | some points => exact EndsDry.requestConnect (h.congr rfl rfl rfl id rfl (Or.inl rfl))
  | @connected i x error hx =>
      have hpos : 0 < l.resolves.length + l.connects.length := by
        have := (List.getElem?_eq_some_iff.mp hx).1
        omega
      have hc := ho.setup_offline hpos
      cases error with
      | true => exact EndsDry.requestConnect (h.congr rfl rfl rfl id rfl (Or.inl rfl))
      | false =>
          have himm : l.stopWriteImmediate = false := by
            by_contra himm
            exact absurd (hc.symm.trans (h.running (by simpa using himm)).1) (by simp)
          exact endsDry_startLoops himm (ho.offline_empty hc).2.1
  | readDone hx hle => exact h.congr rfl rfl rfl id rfl (Or.inl rfl)
  | @readHandler i r _ _ hx heq =>
      have hd := endsDry_readHandler (l := { l with reads := l.reads.eraseIdx i })
        (h.congr rfl rfl rfl id rfl (Or.inl rfl)) ho.writes r (hok r hx)
      rwa [heq] at hd
  | @writeDone i size r hx hle =>
      refine ⟨h.running, h.ended, ?_⟩
      intro w hw r' hr'
      rcases List.mem_or_eq_of_mem_set hw with hw | rfl
      · exact h.results w hw r' hr'
      · exact Option.some.inj hr' ▸ hok
  | writeHandler hx => exact endsDry_writeHandler h ho hx
  | timerExpire hx => exact h.congr rfl rfl rfl id rfl (Or.inl rfl)
  | timerHandler hx ht =>
      obtain ⟨hwp, _, _, hw⟩ := ho.idling hx
      obtain ⟨hc, _⟩ := ho.online (Or.inr hwp)
      have himm : l.stopWriteImmediate = false := by
        by_contra himm
        exact absurd (hwp.symm.trans (h.running (by simpa using himm)).2) (by simp)
      exact endsDry_requestWrite himm hc hwp hw
  | closeCheck hpos heq =>
      rcases checkReadyCloseProcessing_cases { l with posts := l.posts - 1 } with
        ⟨_, hwp, _, hclose⟩ | ⟨_, hclose⟩
      · rw [hclose] at heq
        cases heq
        have hnone := (ho.write_ended hwp).1
        exact h.congr rfl rfl rfl id rfl (Or.inr (by simp [cancelSocket, hnone]))
      · rw [hclose] at heq
        cases heq
        exact h.congr rfl rfl rfl id rfl (Or.inl rfl)

/-- A chunk handed over changes neither the buffer nor the write loop. -/
theorem endsDry_sendData (h : EndsDry l) (chunkId : UInt32) (chunk : Bytes) :
    (l.sendData chunkId chunk).EndsDry := by
  have hout := sendData_outcome l chunkId chunk
  generalize l.sendData chunkId chunk = after at hout ⊢
  cases hout with
  | stale _ => exact h
  | afterStop _ _ _ => exact h.congr rfl rfl rfl id rfl (Or.inl rfl)
  | duplicate _ _ _ => exact h
  | stored _ _ _ timers _ => exact h.congr rfl rfl rfl id rfl (Or.inl rfl)

/-- A stop does not end the loop by itself. -/
theorem endsDry_stop (h : EndsDry l) (n : UInt32) : (l.stop n).EndsDry := by
  by_cases hn : n ≤ l.nextWriteChunkId
  · rw [stop_atOnce hn]
    exact h.congr rfl rfl rfl (fun _ => rfl) rfl (Or.inl rfl)
  · rw [stop_later (UInt32.not_le.mp hn)]
    exact h.congr rfl rfl rfl id rfl (Or.inl rfl)

/-- **Every orderly event keeps this.** -/
theorem endsDry_step {e : LinkEvent} (h : EndsDry l) (ho : Owned l)
    (hok : OrderlyEvent data l e) (hstep : l.step e = some l') : l'.EndsDry := by
  cases e with
  | asio e =>
      obtain ⟨⟨m, call⟩, hm, rfl⟩ := Option.map_eq_some_iff.mp hstep
      exact endsDry_asioStep h ho hok hm
  | sendData chunkId chunk => exact Option.some.inj hstep ▸ endsDry_sendData h chunkId chunk
  | stop n => exact Option.some.inj hstep ▸ endsDry_stop h n

/-- A new link has not ended. -/
theorem endsDry_fresh (h : Fresh l) : EndsDry l := by
  obtain ⟨cnt, rfl | ⟨address, port, rfl⟩⟩ := h
  · exact endsDry_startLoops (l := { createAccepted with hoster := some cnt }) rfl rfl
  · exact ⟨by simp [run, createAddress], by simp [run, createAddress],
      by simp [run, createAddress]⟩

/-! ## The deliveries -/

/-- Chunk `i` is drained or in the map. -/
def HeldChunk (i : Nat) (l : OutLink) : Prop :=
  i < l.appended.length ∨ l.writeChunks.contains (UInt32.ofNat i) = true

/-- A stream without the sentinel is a case of the general reassembly. -/
theorem StreamOf.sorted (h : StreamOf data l) (hn : data.length < 4294967295) :
    Sorted (fun id => data.getD id.toNat []) (fun _ => True) l := by
  have hbelow : ∀ c, c ∈ l.writeChunks.entries ∨ c ∈ l.appended →
      data[c.1.toNat]? = some c.2 ∧ c.1.toNat < data.length :=
    fun c hc => ⟨h.chunks c hc, (List.getElem?_eq_some_iff.mp (h.chunks c hc)).1⟩
  refine ⟨h.toReassembly, fun c hc => ?_, fun hdef c hc => ?_⟩
  · obtain ⟨hget, hlt⟩ := hbelow c hc
    refine ⟨fun heq => ?_, by simp [List.getD, hget], trivial⟩
    rw [heq] at hlt
    simp only [kUndefinedChunkID, UInt32.reduceToNat] at hlt
    omega
  · rw [h.stopAt.resolve_left hdef, UInt32.lt_iff_toNat_lt, end_toNat hn]
    exact (hbelow c (Or.inl hc)).2

/-- No event of an orderly close drops a chunk of the stream. -/
theorem not_stopDrops (hn : data.length < 4294967295) {i : Nat} (hi : i < data.length)
    {e : LinkEvent} (hstream : StreamOf data l) (hok : OrderlyEvent data l e) :
    ¬ StopDrops (UInt32.ofNat i) l e := by
  have hlt : UInt32.ofNat i < UInt32.ofNat data.length := index_lt hi (by omega)
  intro hdrops
  cases e with
  | asio e => exact hdrops
  | sendData chunkId chunk =>
      obtain ⟨_, _, hdef, hreach⟩ := hdrops
      rw [hstream.stopAt.resolve_left hdef] at hreach
      exact UInt32.not_le.mpr hlt hreach
  | stop n =>
      have hstop : n = UInt32.ofNat data.length := hok
      subst hstop
      obtain ⟨hmap, hreach⟩ := hdrops
      obtain ⟨v, hv⟩ := SortedMap.contains_iff.mp hmap
      refine UInt32.not_le.mpr hlt (hreach.elim (fun hnext => ?_) id)
      exact UInt32.le_trans hnext (hstream.keys _ hv)

/-- A chunk that was handed over is in the map or was put out. -/
theorem heldChunk_of_held (hn : data.length < 4294967295) {i : Nat} (hi : i < data.length)
    (hstream : StreamOf data l)
    (h : Held (fun id => data.getD id.toNat []) (UInt32.ofNat i) l) : HeldChunk i l := by
  rcases Nat.lt_or_ge i l.appended.length with hlt | hge
  · exact Or.inl hlt
  · refine Or.inr (SortedMap.contains_iff.mpr ⟨_, h ?_⟩)
    rw [UInt32.le_iff_toNat_le, hstream.next_toNat hn, index_toNat (by omega)]
    exact hge

/-- The stop at the end of the stream is either reached already or set. -/
theorem stopSet_stop (hn : data.length < 4294967295) (hstream : StreamOf data l) :
    (l.stop (UInt32.ofNat data.length)).stopWriteChunkId = UInt32.ofNat data.length := by
  have hle := hstream.length_le hn
  by_cases hreach : UInt32.ofNat data.length ≤ l.nextWriteChunkId
  · rw [stop_atOnce hreach]
    rw [UInt32.le_iff_toNat_le, hstream.next_toNat hn, end_toNat hn] at hreach
    have hlen : l.appended.length = data.length := by omega
    exact hstream.next.trans (congrArg UInt32.ofNat hlen)
  · rw [stop_later (UInt32.not_le.mp hreach)]

/-- The stop point, once known, stays known. -/
theorem stopSet_step (hn : data.length < 4294967295) {e : LinkEvent}
    (hstream : StreamOf data l) (hstop : l.stopWriteChunkId = UInt32.ofNat data.length)
    (hok : OrderlyEvent data l e) (hstep : l.step e = some l') :
    l'.stopWriteChunkId = UInt32.ofNat data.length := by
  cases e with
  | asio e =>
      obtain ⟨⟨m, call⟩, hm, rfl⟩ := Option.map_eq_some_iff.mp hstep
      exact (ChunkProperty.asioStep
        (P := fun l => l.stopWriteChunkId = UInt32.ofNat data.length)
        ⟨fun l m hs h => hs.stopWriteChunkId.trans h, fun l h _ => h, fun l _ _ h _ _ => h⟩
        hstop hm)
  | sendData chunkId chunk =>
      have heq := Option.some.inj hstep
      subst heq
      have hout := sendData_outcome l chunkId chunk
      generalize l.sendData chunkId chunk = after at hout ⊢
      cases hout <;> exact hstop
  | stop n =>
      have hend : n = UInt32.ofNat data.length := hok
      subst hend
      have heq := Option.some.inj hstep
      subst heq
      exact stopSet_stop hn hstream

/-! ## The run -/

/-- Everything an orderly close keeps. -/
structure Orderly (data : List Bytes) (l : OutLink) : Prop where
  owned : Owned l
  stream : StreamOf data l
  awake : Awake l
  dry : EndsDry l
  drained : Drained l

/-- A new link is in order. -/
theorem orderly_fresh (hn : data.length < 4294967295) (h : Fresh l) : Orderly data l :=
  ⟨owned_fresh h, streamOf_fresh hn h, awake_fresh h, endsDry_fresh h, drained_fresh h⟩

/-- **Every orderly event keeps the link in order.** -/
theorem orderly_step (hn : data.length < 4294967295) {e : LinkEvent} (h : Orderly data l)
    (hok : OrderlyEvent data l e) (hstep : l.step e = some l') : l'.Orderly data where
  owned := owned_step h.owned hstep
  stream := streamOf_step hn h.stream hok hstep
  awake := awake_step h.awake h.owned h.stream.toReassembly hstep
  dry := endsDry_step h.dry h.owned hok hstep
  drained := drained_step h.drained h.owned hstep

/-- A write loop that has ended has written the whole stream. -/
theorem Orderly.written_all (h : Orderly data l) (hn : data.length < 4294967295)
    (hc : l.connected = true) (hp : l.writeProcessing = false) : l.written = data.flatten := by
  obtain ⟨_, hall, hbuffer⟩ := h.dry.ended hc hp
  have hlen := (h.stream.all hall).2
  obtain ⟨gone, t, hd⟩ := h.drained
  have hwritten := hd.written
  have hdrained := hd.drained
  rw [hbuffer, List.take_nil, List.append_nil] at hwritten
  rw [hbuffer, List.append_nil, h.stream.drained_all hn hlen] at hdrained
  exact hwritten.trans hdrained.symm

/-- **Orderly close delivers everything, then ends.**  However the chunks of a
stream and its stop reach a link, the write loop has not ended before every
byte is written.  Once all of them have arrived the loop no longer waits for
the idle timeout, and if it has no operation left it has written exactly the
stream and ended through `stop_after_all_write_`. -/
theorem orderly_close (data : List Bytes) (hn : data.length < 4294967295)
    {l₀ l : OutLink} {es : List LinkEvent} (hfresh : Fresh l₀)
    (hok : Always step (fun s e _ => OrderlyEvent data s e) l₀ es)
    (hrun : Transition.run step l₀ es = some l) (hc : l.connected = true) :
    (l.writeProcessing = false → l.written = data.flatten) ∧
    (Delivered data es →
      .waiting ∉ l.timers ∧
      (l.writes = [] → l.timers = [] →
        l.written = data.flatten ∧ l.writeProcessing = false ∧
          l.stopAfterAllWrite = true ∧ l.stopWriteImmediate = true)) := by
  have hreach : Reach step (OrderlyEvent data) Fresh l := Reach.of_run (.start hfresh) hok hrun
  have h : Orderly data l :=
    hreach.invariant (fun s hs => orderly_fresh hn hs)
      (fun s e s' _ hs hoke hstep => orderly_step hn hs hoke hstep)
  refine ⟨h.written_all hn hc, ?_⟩
  intro hall
  obtain ⟨hchunks, hstop⟩ := hall
  have hpres : ∀ s e s', StreamOf data s → OrderlyEvent data s e → step s e = some s' →
      StreamOf data s' := fun s e s' hs hoke hst => streamOf_step hn hs hoke hst
  have hstart : StreamOf data l₀ := streamOf_fresh hn hfresh
  have hset : l.stopWriteChunkId = UInt32.ofNat data.length := by
    refine holds_of_mem (Q := fun s => s.stopWriteChunkId = UInt32.ofNat data.length) hpres ?_
      (fun s e s' hs hQ hoke hst => stopSet_step hn hs hQ hoke hst) hstart hok hrun (Or.inr hstop)
    exact fun s s' hs _ hst => Option.some.inj hst ▸ stopSet_stop hn hs
  have hheld : ∀ i, i < data.length → HeldChunk i l := by
    intro i hi
    have hmem := hchunks i data[i] (List.getElem?_eq_getElem hi)
    have hbytes : data[i] = data.getD (UInt32.ofNat i).toNat [] := by
      simp [index_toNat (show i < 4294967296 by omega), hi]
    refine heldChunk_of_held hn hi h.stream ?_
    refine holds_of_mem (Q := Held (fun id => data.getD id.toNat []) (UInt32.ofNat i)) hpres ?_ ?_
      hstart hok hrun (Or.inr (hbytes ▸ hmem))
    · intro s s' hs hoke hst
      exact Option.some.inj hst ▸ held_sendData (hs.sorted hn) (not_stopDrops hn hi hs hoke)
    · intro s e s' hs hQ hoke hst
      exact held_step (hs.sorted hn) hQ (not_stopDrops hn hi hs hoke) hst
  have hawake : .waiting ∉ l.timers := by
    rcases Nat.lt_or_ge l.appended.length data.length with hlt | hge
    · -- the next chunk has been delivered, so it is in the map
      have hnext : l.writeChunks.contains l.nextWriteChunkId = true := by
        rw [h.stream.next]
        exact (hheld _ hlt).resolve_left (by omega)
      exact h.awake.chunk hnext
    · have hlen : l.appended.length = data.length :=
        Nat.le_antisymm (h.stream.length_le hn) hge
      exact h.awake.stopped ((h.stream.stopReached_iff hn).mpr ⟨hset, hlen⟩)
  refine ⟨hawake, fun hw ht => ?_⟩
  have hp : l.writeProcessing = false := by
    have hsum := h.owned.writes
    rw [hw, ht] at hsum
    cases hb : l.writeProcessing with
    | false => rfl
    | true => simp [hb] at hsum
  obtain ⟨himm, hall, _⟩ := h.dry.ended hc hp
  exact ⟨h.written_all hn hc hp, hp, hall, himm⟩

/-- The stop, chunk 1 and chunk 0 arrive in this order; two partial writes. -/
def closingEvents : List LinkEvent :=
  [.stop 2, .sendData 1 [66], .sendData 0 [65], .asio (.timerHandler 0),
    .asio (.writeDone 0 ⟨false, 1⟩), .asio (.writeHandler 0),
    .asio (.writeDone 0 ⟨false, 1⟩), .asio (.writeHandler 0)]

/-- Two chunks, the stop first and a write that takes one byte only. -/
theorem orderly_close_two :
    ∃ l, Transition.run step (createAccepted.run (.ofByte 1)) closingEvents = some l ∧
      l.written = [65, 66] ∧ l.writeProcessing = false ∧
      l.stopAfterAllWrite = true ∧ l.stopWriteImmediate = true := by
  have hrun : ∃ l, Transition.run step (createAccepted.run (.ofByte 1)) closingEvents = some l ∧
      l.connected = true ∧ l.writes = [] ∧ l.timers = [] := ⟨_, rfl, rfl, rfl, rfl⟩
  obtain ⟨l, hrun, hconn, hwrites, htimers⟩ := hrun
  refine ⟨l, hrun, ((orderly_close [[65], [66]] (by decide)
    ⟨.ofByte 1, Or.inl rfl⟩ (by decide +kernel) hrun hconn).2 ?_).2 hwrites htimers⟩
  refine ⟨?_, by decide +kernel⟩
  intro i chunk hchunk
  match i with
  | 0 => exact Option.some.inj hchunk ▸ by decide +kernel
  | 1 => exact Option.some.inj hchunk ▸ by decide +kernel
  | i + 2 => simp at hchunk

end OutLink
