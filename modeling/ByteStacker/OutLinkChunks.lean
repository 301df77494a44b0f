import ByteStacker.Enumeration
import ByteStacker.OutLinkLoops

/-!
# Reassembling the chunks of a link

`SendData` files chunks under their index, `FillNetworkBuffer` moves the run
that starts at `next_write_chunk_id_` into the network buffer, the write loop
hands the buffer to the socket from the front.  This file follows a chunk
through these three stages.

* `asioStep_chunks_rule` — whatever concerns only the map, the indices and the
  stop point is preserved by every asio event as soon as `FillNetworkBuffer`
  preserves it, and `sendData_outcome`, `stop_atOnce`, `stop_later` say what
  the two calls of the trunk do;
* `Reassembly` — the chunks drained so far are numbered `0, 1, 2, …` (modulo
  2³²) and the map holds only chunks that are still awaited;
* `Drained` — the bytes written are the drained chunks in order, up to what is
  still in the buffer; `written_prefix` is the consequence the stream
  properties use.
-/

namespace OutLink

/-- Two states of a link with the same chunks and the same stop point. -/
structure SameChunks (l m : OutLink) : Prop where
  writeChunks : m.writeChunks = l.writeChunks
  stopWriteChunkId : m.stopWriteChunkId = l.stopWriteChunkId
  stopAfterAllWrite : m.stopAfterAllWrite = l.stopAfterAllWrite
  nextWriteChunkId : m.nextWriteChunkId = l.nextWriteChunkId
  appended : m.appended = l.appended

/-- A property of the chunks and the stop point. -/
structure ChunkProperty (P : OutLink → Prop) : Prop where
  congr : ∀ l m, SameChunks l m → P l → P m
  finish : ∀ l, P l → l.stopReached = true → P l.finishFill
  take : ∀ l data rest, P l → l.stopReached = false →
    l.writeChunks.entries = (l.nextWriteChunkId, data) :: rest →
    P (l.takeChunk l.nextWriteChunkId data)

variable {P : OutLink → Prop} {l l' : OutLink}

/-- Filling the buffer keeps such a property, chunk by chunk. -/
theorem ChunkProperty.fill (hP : ChunkProperty P) (h : P l) : P l.fillNetworkBuffer := by
  refine fillNetworkBuffer_rule ?_ hP.finish hP.take h
  exact fun m fails hm => hP.congr m _ (by constructor <;> rfl) hm

/-- So does a turn of the write loop. -/
theorem ChunkProperty.requestWrite (hP : ChunkProperty P) (h : P l) : P l.requestWrite := by
  have hfails : ∀ fails, P { l with failedAsserts := fails } :=
    fun fails => hP.congr l _ (by constructor <;> rfl) h
  have hout := requestWrite_outcome l
  generalize l.requestWrite = after at hout ⊢
  cases hout with
  | aborted fails _ => exact hP.congr _ _ (by constructor <;> rfl) (hfails fails)
  | finished fails m _ hm _ _ =>
      exact hP.congr m _ (by constructor <;> rfl) (hm ▸ hP.fill (hfails fails))
  | idle fails m _ hm _ _ =>
      exact hP.congr m _ (by constructor <;> rfl) (hm ▸ hP.fill (hfails fails))
  | writing fails m _ hm _ =>
      exact hP.congr m _ (by constructor <;> rfl) (hm ▸ hP.fill (hfails fails))

/-- Starting a read does not concern the chunks. -/
theorem sameChunks_requestRead (l : OutLink) : SameChunks l l.requestRead := by
  obtain ⟨fails, heq⟩ := l.assertThat_eq .requestRead l.readProcessing
  unfold requestRead
  rw [heq]
  constructor <;> rfl

/-- Starting both loops keeps the property. -/
theorem ChunkProperty.startLoops (hP : ChunkProperty P) (h : P l) : P l.startLoops := by
  have hread : P ({ l with readProcessing := true, connected := true } : OutLink).requestRead :=
    hP.congr _ _ (sameChunks_requestRead _) (hP.congr l _ (by constructor <;> rfl) h)
  exact hP.requestWrite (hP.congr _ _ (by constructor <;> rfl) hread)

/-- Trying the next endpoint does not concern the chunks. -/
theorem sameChunks_requestConnect (l : OutLink) : SameChunks l l.requestConnect := by
  unfold requestConnect
  split <;> constructor <;> rfl

/-- Nor does the read loop. -/
theorem sameChunks_readHandler (l : OutLink) (r : ReadResult) :
    SameChunks l (l.requestReadProcessing r).1 := by
  obtain ⟨fails, heq⟩ := l.assertThat_eq .requestReadProcessing (r.data = [] ∨ l.hoster.isSome)
  unfold requestReadProcessing
  simp only [heq]
  split
  · constructor <;> rfl
  · have hread := sameChunks_requestRead
      { l with failedAsserts := fails, readLog := l.readLog ++ r.data }
    exact ⟨hread.1, hread.2, hread.3, hread.4, hread.5⟩

/-- A write completion lowers the flag of the loop or leaves it, and then stops
or goes on writing. -/
theorem requestWriteProcessing_shape (l : OutLink) (r : WriteResult) :
    ∃ running fails,
      (∀ site ∈ fails, site = .requestWriteProcessing ∨ site ∈ l.failedAsserts) ∧
      (l.requestWriteProcessing r = ({ l with
        writeProcessing := running
        failedAsserts := fails } : OutLink).cancelSocket.checkReadyClose ∨
      l.requestWriteProcessing r = ({ l with
        writeProcessing := running
        failedAsserts := fails
        networkWriteBuffer := l.networkWriteBuffer.drop r.transferred } :
        OutLink).requestWrite) := by
  have hkept : ∀ site ∈ l.failedAsserts,
      site = .requestWriteProcessing ∨ site ∈ l.failedAsserts := fun _ => Or.inr
  have hone : ∀ site ∈ l.failedAsserts ++ [.requestWriteProcessing],
      site = .requestWriteProcessing ∨ site ∈ l.failedAsserts := by
    intro site hmem
    exact (List.mem_append.mp hmem).symm.imp List.mem_singleton.mp id
  unfold requestWriteProcessing
  by_cases herr : r.error = true <;> by_cases hzero : r.transferred = 0 <;>
    by_cases hover : r.transferred > l.networkWriteBuffer.length <;>
    cases hp : l.writeProcessing <;>
    simp only [herr, hzero, hover, hp, assertThat, if_true, if_false, Bool.not_true,
      Bool.not_false, Bool.false_eq_true]
  all_goals first
    | exact ⟨_, _, hkept, Or.inl rfl⟩
    | exact ⟨_, _, hkept, Or.inr rfl⟩
    | exact ⟨_, _, hone, Or.inl rfl⟩

/-- A completed write may start the next turn of the write loop. -/
theorem ChunkProperty.writeHandler (hP : ChunkProperty P) (h : P l) (r : WriteResult) :
    P (l.requestWriteProcessing r) := by
  obtain ⟨running, fails, _, heq | heq⟩ := l.requestWriteProcessing_shape r
  · rw [heq]
    exact hP.congr l _ (by constructor <;> rfl) h
  · rw [heq]
    exact hP.requestWrite (hP.congr l _ (by constructor <;> rfl) h)

/-- **Asio events and chunks.**  An asio event changes the chunks and the stop point only
through `FillNetworkBuffer`. -/
theorem ChunkProperty.asioStep (hP : ChunkProperty P) {e : AsioEvent}
    {call : Option HosterCall} (h : P l) (hstep : l.asioStep e = some (l', call)) : P l' := by
  cases asioStep_outcome hstep with
  | @resolved i x results hx =>
      cases results with
      | none => exact hP.congr l _ (by constructor <;> rfl) h
      | some points =>
          exact hP.congr _ _ (sameChunks_requestConnect _)
            (hP.congr l _ (by constructor <;> rfl) h)
  | @connected i x error hx =>
      cases error with
      | true =>
          exact hP.congr _ _ (sameChunks_requestConnect _)
            (hP.congr l _ (by constructor <;> rfl) h)
      | false => exact hP.startLoops (hP.congr l _ (by constructor <;> rfl) h)
  | readDone hx hle => exact hP.congr l _ (by constructor <;> rfl) h
  | @readHandler i r _ _ hx heq =>
      have hsame := sameChunks_readHandler { l with reads := l.reads.eraseIdx i } r
      rw [heq] at hsame
      exact hP.congr l l' ⟨hsame.1, hsame.2, hsame.3, hsame.4, hsame.5⟩ h
  | writeDone hx hle => exact hP.congr l _ (by constructor <;> rfl) h
  | writeHandler hx => exact hP.writeHandler (hP.congr l _ (by constructor <;> rfl) h) _
  | timerExpire hx => exact hP.congr l _ (by constructor <;> rfl) h
  | timerHandler hx ht => exact hP.requestWrite (hP.congr l _ (by constructor <;> rfl) h)
  | closeCheck hpos heq =>
      rcases checkReadyCloseProcessing_cases { l with posts := l.posts - 1 } with
        ⟨_, _, _, hclose⟩ | ⟨_, hclose⟩
      · rw [hclose] at heq
        cases heq
        exact hP.congr l _ (by constructor <;> rfl) h
      · rw [hclose] at heq
        cases heq
        exact hP.congr l _ (by constructor <;> rfl) h

/-! ## The two calls of the trunk -/

/-- **What `SendData` does with a chunk.** -/
inductive SendOutcome (l : OutLink) (chunkId : UInt32) (data : Bytes) : OutLink → Prop
  | stale (hlt : chunkId < l.nextWriteChunkId) : SendOutcome l chunkId data l
  | afterStop (hge : ¬ chunkId < l.nextWriteChunkId)
      (hdef : l.stopWriteChunkId ≠ kUndefinedChunkID) (hstop : l.stopWriteChunkId ≤ chunkId) :
      SendOutcome l chunkId data
        { l with failedAsserts := l.failedAsserts ++ [.sendData] }
  | duplicate (hge : ¬ chunkId < l.nextWriteChunkId)
      (hopen : l.stopWriteChunkId = kUndefinedChunkID ∨ chunkId < l.stopWriteChunkId)
      (hdup : l.writeChunks.contains chunkId = true) : SendOutcome l chunkId data l
  | stored (hge : ¬ chunkId < l.nextWriteChunkId)
      (hopen : l.stopWriteChunkId = kUndefinedChunkID ∨ chunkId < l.stopWriteChunkId)
      (hnew : l.writeChunks.contains chunkId = false) (timers : List WaitStatus)
      (htimers : timers = if chunkId = l.nextWriteChunkId then l.timers.map abortWait
        else l.timers) :
      SendOutcome l chunkId data
        { l with writeChunks := l.writeChunks.insert chunkId data, timers := timers }

/-- **`SendData` does one of four things.** -/
theorem sendData_outcome (l : OutLink) (chunkId : UInt32) (data : Bytes) :
    SendOutcome l chunkId data (l.sendData chunkId data) := by
  unfold sendData
  split
  · rename_i hlt
    exact .stale hlt
  · rename_i hge
    split
    · rename_i hstop
      exact .afterStop hge hstop.1 hstop.2
    · rename_i hopen
      have hopen : l.stopWriteChunkId = kUndefinedChunkID ∨ chunkId < l.stopWriteChunkId := by
        by_cases hdef : l.stopWriteChunkId = kUndefinedChunkID
        · exact Or.inl hdef
        · exact Or.inr (UInt32.not_le.mp fun hle => hopen ⟨hdef, hle⟩)
      split
      · rename_i hdup
        exact .duplicate hge hopen hdup
      · rename_i hnew
        have hnew : l.writeChunks.contains chunkId = false := by simpa using hnew
        simp only
        split
        · rename_i hid
          exact .stored hge hopen hnew l.timers (by rw [if_neg hid])
        · rename_i hid
          exact .stored hge hopen hnew _ (by rw [if_pos (by simpa using hid)])

/-- `Stop` at or below the awaited chunk closes at the current point. -/
theorem stop_atOnce {n : UInt32} (h : n ≤ l.nextWriteChunkId) :
    l.stop n = { l with
      stopWriteChunkId := l.nextWriteChunkId
      stopAfterAllWrite := true
      writeChunks := .empty
      timers := l.timers.map abortWait } := by
  simp [stop, h, cancelTimer]

/-- `Stop` above the awaited chunk sets the stop point and forgets the chunks
from it on. -/
theorem stop_later {n : UInt32} (h : l.nextWriteChunkId < n) :
    l.stop n = { l with
      stopWriteChunkId := n
      writeChunks := l.writeChunks.filterKeys fun id => ¬ n ≤ id } := by
  have hnot : ¬ n ≤ l.nextWriteChunkId := UInt32.not_le.mpr h
  simp [stop, hnot, assertThat, h]

/-! ## Numbering -/

/-- Below 2³² the index of a chunk is its number. -/
theorem index_toNat {i : Nat} (hi : i < 4294967296) : (UInt32.ofNat i).toNat = i :=
  UInt32.toNat_ofNat_of_lt' hi

/-- Indices below 2³² determine the number they stand for. -/
theorem index_inj {i j : Nat} (hi : i < 4294967296) (hj : j < 4294967296)
    (heq : UInt32.ofNat i = UInt32.ofNat j) : i = j := by
  have hnat := congrArg UInt32.toNat heq
  rwa [index_toNat hi, index_toNat hj] at hnat

/-- Below 2³² indices are in the order of the numbers. -/
theorem index_lt {i j : Nat} (hlt : i < j) (hj : j < 4294967296) :
    UInt32.ofNat i < UInt32.ofNat j := by
  rw [UInt32.lt_iff_toNat_lt, index_toNat (Nat.lt_trans hlt hj), index_toNat hj]
  exact hlt

/-- A key above the awaited one is still awaited after the next chunk. -/
theorem next_le_of_ne {next id : UInt32} (hle : next ≤ id) (hne : id ≠ next) :
    next + 1 ≤ id := by
  grind

/-- **Reassembly.**  Drained chunks are numbered consecutively from zero, the
awaited index is the next number, and the map holds no older chunk. -/
structure Reassembly (l : OutLink) : Prop where
  numbered : Enumerated UInt32.ofNat l.appended
  next : l.nextWriteChunkId = UInt32.ofNat l.appended.length
  keys : ∀ e ∈ l.writeChunks.entries, l.nextWriteChunkId ≤ e.1

/-- Reassembly is a matter of the chunks and the stop point. -/
theorem chunkProperty_reassembly : ChunkProperty Reassembly where
  congr := by
    intro l m hs h
    exact ⟨by rw [hs.appended]; exact h.numbered,
      by rw [hs.nextWriteChunkId, hs.appended]; exact h.next,
      by rw [hs.writeChunks, hs.nextWriteChunkId]; exact h.keys⟩
  finish := fun l h _ => ⟨h.numbered, h.next, fun e he => absurd he (by simp [finishFill])⟩
  take := by
    intro l data rest h _ hentries
    refine ⟨h.numbered.snoc data h.next, ?_, ?_⟩
    · simp [takeChunk, h.next]
    · intro e he
      obtain ⟨hmem, hne⟩ := (SortedMap.mem_eraseBegin hentries).mp he
      exact next_le_of_ne (h.keys e hmem) hne

/-- A chunk is put into the map only at or behind the awaited index. -/
theorem reassembly_sendData (h : Reassembly l) (chunkId : UInt32) (data : Bytes) :
    (l.sendData chunkId data).Reassembly := by
  have hout := sendData_outcome l chunkId data
  generalize l.sendData chunkId data = after at hout ⊢
  cases hout with
  | stale _ => exact h
  | afterStop _ _ _ => exact ⟨h.numbered, h.next, h.keys⟩
  | duplicate _ _ _ => exact h
  | stored hge _ hnew timers _ =>
      refine ⟨h.numbered, h.next, ?_⟩
      intro e he
      rcases (SortedMap.mem_insert_new hnew).mp he with rfl | he
      · exact UInt32.not_lt.mp hge
      · exact h.keys e he

/-- A stop only takes chunks out of the map. -/
theorem reassembly_stop (h : Reassembly l) (n : UInt32) : (l.stop n).Reassembly := by
  by_cases hn : n ≤ l.nextWriteChunkId
  · rw [stop_atOnce hn]
    exact ⟨h.numbered, h.next, fun e he => absurd he (by simp)⟩
  · rw [stop_later (UInt32.not_le.mp hn)]
    exact ⟨h.numbered, h.next, fun e he => h.keys e (List.mem_of_mem_filter he)⟩

/-- **Every event keeps the reassembly.** -/
theorem reassembly_step {e : LinkEvent} (h : Reassembly l) (hstep : l.step e = some l') :
    l'.Reassembly := by
  cases e with
  | asio e =>
      obtain ⟨⟨m, call⟩, hm, rfl⟩ := Option.map_eq_some_iff.mp hstep
      exact chunkProperty_reassembly.asioStep h hm
  | sendData chunkId data => exact Option.some.inj hstep ▸ reassembly_sendData h chunkId data
  | stop n => exact Option.some.inj hstep ▸ reassembly_stop h n

/-- What holds of both kinds of new links and concerns the chunks holds after `Run`. -/
theorem ChunkProperty.fresh (hP : ChunkProperty P) (haccepted : P createAccepted)
    (haddress : ∀ address port, P (createAddress address port)) (h : Fresh l) : P l := by
  obtain ⟨cnt, rfl | ⟨address, port, rfl⟩⟩ := h
  · exact hP.startLoops (l := { createAccepted with hoster := some cnt })
      (hP.congr createAccepted _ (by constructor <;> rfl) haccepted)
  · exact hP.congr (createAddress address port) _ (by constructor <;> rfl) (haddress address port)

/-- Nothing has been drained of a new link. -/
theorem reassembly_fresh (h : Fresh l) : Reassembly l := by
  refine chunkProperty_reassembly.fresh ?_ ?_ h
  · exact ⟨rfl, rfl, fun e he => absurd he (by simp [createAccepted])⟩
  · exact fun address port => ⟨rfl, rfl, fun e he => absurd he (by simp [createAddress])⟩

/-! ## Where the chunks come from -/

/-- Every chunk in the map or already drained satisfies `Q`. -/
def ChunksFrom (Q : UInt32 × Bytes → Prop) (l : OutLink) : Prop :=
  ∀ e, e ∈ l.writeChunks.entries ∨ e ∈ l.appended → Q e

variable {Q : UInt32 × Bytes → Prop}

/-- Where the chunks come from is a matter of the chunks. -/
theorem chunkProperty_chunksFrom : ChunkProperty (ChunksFrom Q) where
  congr := by
    intro l m hs h e he
    rw [hs.writeChunks, hs.appended] at he
    exact h e he
  finish := by
    intro l h _ e he
    rcases he with he | he
    · simp [finishFill] at he
    · exact h e (Or.inr he)
  take := by
    intro l data rest h _ hentries e he
    rcases he with he | he
    · exact h e (Or.inl (List.mem_of_mem_tail he))
    · rcases List.mem_append.mp he with he | he
      · exact h e (Or.inr he)
      · exact h e (Or.inl (by simpa [hentries] using Or.inl (List.mem_singleton.mp he)))

/-- A chunk handed over has to have the property. -/
theorem chunksFrom_sendData (h : ChunksFrom Q l) {chunkId : UInt32} {data : Bytes}
    (hnew : Q (chunkId, data)) : (l.sendData chunkId data).ChunksFrom Q := by
  have hout := sendData_outcome l chunkId data
  generalize l.sendData chunkId data = after at hout ⊢
  cases hout with
  | stale _ => exact h
  | afterStop _ _ _ => exact h
  | duplicate _ _ _ => exact h
  | stored _ _ hfree timers _ =>
      intro e he
      rcases he with he | he
      · rcases (SortedMap.mem_insert_new hfree).mp he with rfl | he
        · exact hnew
        · exact h e (Or.inl he)
      · exact h e (Or.inr he)

/-- A stop adds no chunk. -/
theorem chunksFrom_stop (h : ChunksFrom Q l) (n : UInt32) : (l.stop n).ChunksFrom Q := by
  by_cases hn : n ≤ l.nextWriteChunkId
  · rw [stop_atOnce hn]
    intro e he
    rcases he with he | he
    · simp at he
    · exact h e (Or.inr he)
  · rw [stop_later (UInt32.not_le.mp hn)]
    intro e he
    rcases he with he | he
    · exact h e (Or.inl (List.mem_of_mem_filter he))
    · exact h e (Or.inr he)

/-- A new link has no chunks. -/
theorem chunksFrom_fresh (h : Fresh l) : ChunksFrom Q l := by
  refine chunkProperty_chunksFrom.fresh ?_ ?_ h
  · intro e he
    simp [createAccepted] at he
  · intro address port e he
    simp [createAddress] at he

/-! ## The network buffer -/

/-- The drained bytes are `gone` followed by the buffer, and the socket took
`gone` and the first `t` bytes of the buffer.  `t` is the result of the write
in flight; it is zero whenever the writer can start a new write. -/
structure DrainedAt (l : OutLink) (gone : Bytes) (t : Nat) : Prop where
  drained : l.appended.flatMap Prod.snd = gone ++ l.networkWriteBuffer
  written : l.written = gone ++ l.networkWriteBuffer.take t
  result : ∀ w ∈ l.writes, t = w.result.elim 0 WriteResult.transferred
  ready : l.connected = false ∨ l.writeProcessing = true → l.writes = [] → t = 0

/-- **Drained.**  What the socket took is the beginning of what was drained
from the map. -/
def Drained (l : OutLink) : Prop := ∃ gone t, DrainedAt l gone t

/-- **The socket took a beginning of what was drained.** -/
theorem written_prefix (h : Drained l) : l.written <+: l.appended.flatMap Prod.snd := by
  obtain ⟨gone, t, h⟩ := h
  rw [h.drained, h.written]
  exact List.prefix_append_right_inj _ |>.mpr (List.take_prefix _ _)

/-- The equations of `DrainedAt` with nothing of the buffer taken survive
`FillNetworkBuffer`. -/
theorem drained_fill {gone : Bytes}
    (hd : l.appended.flatMap Prod.snd = gone ++ l.networkWriteBuffer)
    (hw : l.written = gone) :
    l.fillNetworkBuffer.appended.flatMap Prod.snd = gone ++ l.fillNetworkBuffer.networkWriteBuffer ∧
      l.fillNetworkBuffer.written = gone := by
  refine fillNetworkBuffer_rule
    (P := fun m => m.appended.flatMap Prod.snd = gone ++ m.networkWriteBuffer ∧ m.written = gone)
    ?_ ?_ ?_ ⟨hd, hw⟩
  · exact fun m fails h => h
  · exact fun m h _ => h
  · intro m data rest hm _ _
    obtain ⟨hm, hw⟩ := hm
    exact ⟨by simp [takeChunk, hm], hw⟩

/-- `RequestWrite` takes nothing of the buffer: it only starts a write. -/
theorem unwritten_requestWrite {gone : Bytes}
    (hd : l.appended.flatMap Prod.snd = gone ++ l.networkWriteBuffer) (hw : l.written = gone)
    (hnone : l.writes = []) :
    l.requestWrite.appended.flatMap Prod.snd = gone ++ l.requestWrite.networkWriteBuffer ∧
      l.requestWrite.written = gone ∧ ∀ w ∈ l.requestWrite.writes, w.result = none := by
  have hfill : ∀ fails m, m = ({ l with failedAsserts := fails } : OutLink).fillNetworkBuffer →
      m.appended.flatMap Prod.snd = gone ++ m.networkWriteBuffer ∧ m.written = gone ∧
        m.writes = [] := by
    intro fails m hm
    obtain ⟨hd', hw'⟩ := drained_fill (l := { l with failedAsserts := fails }) hd hw
    exact ⟨hm ▸ hd', hm ▸ hw', (sameLoops_filled hm).writes.trans hnone⟩
  have hended : ∀ m : OutLink, m.writes = [] → ∀ w ∈ m.endWrite.writes, w.result = none := by
    intro m hm
    simp [endWrite, cancelReadWrite, cancelSocket, cancelTimer, checkReadyClose, hm]
  have hout := requestWrite_outcome l
  generalize l.requestWrite = after at hout ⊢
  cases hout with
  | aborted fails _ => exact ⟨hd, hw, hended _ hnone⟩
  | finished fails m _ hm _ _ =>
      obtain ⟨hd', hw', hnone'⟩ := hfill fails m hm
      exact ⟨hd', hw', hended _ hnone'⟩
  | idle fails m _ hm _ _ =>
      obtain ⟨hd', hw', hnone'⟩ := hfill fails m hm
      exact ⟨hd', hw', by simp [waitIdle, cancelTimer, hnone']⟩
  | writing fails m _ hm _ =>
      obtain ⟨hd', hw', hnone'⟩ := hfill fails m hm
      exact ⟨hd', hw', by simp [startWrite, hnone']⟩

/-- A turn of the write loop starts a write only if none is in flight. -/
theorem drained_requestWrite {gone : Bytes}
    (hd : l.appended.flatMap Prod.snd = gone ++ l.networkWriteBuffer) (hw : l.written = gone)
    (hnone : l.writes = []) : l.requestWrite.Drained := by
  obtain ⟨hd', hw', hpending⟩ := unwritten_requestWrite hd hw hnone
  refine ⟨gone, 0, hd', by simpa using hw', ?_, fun _ _ => rfl⟩
  intro w hw
  simp [hpending w hw]

/-- Nothing of the buffer is taken while no write is in flight. -/
theorem Drained.idle (h : Drained l) (hready : l.connected = false ∨ l.writeProcessing = true)
    (hnone : l.writes = []) :
    ∃ gone, l.appended.flatMap Prod.snd = gone ++ l.networkWriteBuffer ∧ l.written = gone := by
  obtain ⟨gone, t, h⟩ := h
  have ht := h.ready hready hnone
  exact ⟨gone, h.drained, by simpa [ht] using h.written⟩

/-- Cancelling fixes the result of a write in flight to nothing transferred. -/
theorem transferred_abortWrite (w : WriteOp) :
    (abortWrite w).result.elim 0 WriteResult.transferred =
      w.result.elim 0 WriteResult.transferred := by
  cases h : w.result <;> simp [abortWrite, h]

/-- The property depends on the buffer, the writes and the state of the write loop only;
aborting the writes keeps it. -/
theorem Drained.congr {m : OutLink} (h : Drained l) (happended : m.appended = l.appended)
    (hbuffer : m.networkWriteBuffer = l.networkWriteBuffer) (hwritten : m.written = l.written)
    (hwrites : m.writes = l.writes ∨ m.writes = l.writes.map abortWrite)
    (hready : m.connected = false ∨ m.writeProcessing = true →
      l.connected = false ∨ l.writeProcessing = true) : m.Drained := by
  obtain ⟨gone, t, h⟩ := h
  refine ⟨gone, t, ?_, ?_, ?_, ?_⟩
  · rw [happended, hbuffer]
    exact h.drained
  · rw [hwritten, hbuffer]
    exact h.written
  · rcases hwrites with hwrites | hwrites
    · rw [hwrites]
      exact h.result
    · rw [hwrites]
      intro w hw
      obtain ⟨v, hv, rfl⟩ := List.mem_map.mp hw
      rw [transferred_abortWrite]
      exact h.result v hv
  · intro hm hnone
    refine h.ready (hready hm) ?_
    rcases hwrites with hwrites | hwrites
    · exact hwrites ▸ hnone
    · simpa [hwrites] using hnone

/-- Two states of a link with the same drained bytes, the same buffer and the
same bytes written. -/
structure SameBuffer (l m : OutLink) : Prop where
  appended : m.appended = l.appended
  networkWriteBuffer : m.networkWriteBuffer = l.networkWriteBuffer
  written : m.written = l.written

/-- **What an asio event does to the buffer and the writes.** -/
inductive BufferOutcome (l : OutLink) : AsioEvent → OutLink → Prop
  | kept {e : AsioEvent} {m : OutLink} (hsame : SameBuffer l m)
      (hwrites : m.writes = l.writes ∨ m.writes = l.writes.map abortWrite)
      (hready : m.connected = false ∨ m.writeProcessing = true →
        l.connected = false ∨ l.writeProcessing = true) :
      BufferOutcome l e m
  | began {e : AsioEvent} {m : OutLink} (hsame : SameBuffer l m)
      (hready : l.connected = false ∨ l.writeProcessing = true) (hidle : l.writes = [])
      (hnone : m.writes = []) : BufferOutcome l e m.requestWrite
  | done {i size : Nat} {r : WriteResult} (hone : l.writes = [⟨size, none⟩])
      (hle : r.transferred ≤ size) :
      BufferOutcome l (.writeDone i r)
        { l with
          writes := [⟨size, some r⟩]
          written := l.written ++ l.networkWriteBuffer.take r.transferred }
  | failed {i size : Nat} {r : WriteResult} (hone : l.writes = [⟨size, some r⟩])
      (hfail : r.error = true ∨ r.transferred = 0) (hconnected : l.connected = true) :
      BufferOutcome l (.writeHandler i)
        { l with writes := [], writeProcessing := false }.cancelSocket.checkReadyClose
  | continued {i size : Nat} {r : WriteResult} (hone : l.writes = [⟨size, some r⟩]) :
      BufferOutcome l (.writeHandler i)
        ({ l with
          writes := []
          networkWriteBuffer := l.networkWriteBuffer.drop r.transferred } : OutLink).requestWrite

/-- Trying the next endpoint does not concern the buffer. -/
theorem buffer_requestConnect (l : OutLink) :
    SameBuffer l l.requestConnect ∧ l.requestConnect.writes = l.writes ∧
      l.requestConnect.connected = l.connected ∧
      l.requestConnect.writeProcessing = l.writeProcessing := by
  unfold requestConnect
  split <;> exact ⟨⟨rfl, rfl, rfl⟩, rfl, rfl, rfl⟩

/-- The read loop leaves the buffer alone; it aborts the write in flight or does not touch it. -/
theorem buffer_readHandler (l : OutLink) (r : ReadResult) :
    SameBuffer l (l.requestReadProcessing r).1 ∧
      ((l.requestReadProcessing r).1.writes = l.writes ∨
        (l.requestReadProcessing r).1.writes = l.writes.map abortWrite) ∧
      (l.requestReadProcessing r).1.connected = l.connected ∧
      (l.requestReadProcessing r).1.writeProcessing = l.writeProcessing := by
  obtain ⟨fails, heq⟩ := l.assertThat_eq .requestReadProcessing (r.data = [] ∨ l.hoster.isSome)
  unfold requestReadProcessing
  simp only [heq]
  split
  · exact ⟨⟨rfl, rfl, rfl⟩, Or.inr rfl, rfl, rfl⟩
  · obtain ⟨fails', heq'⟩ := ({ l with
      failedAsserts := fails
      readLog := l.readLog ++ r.data } : OutLink).assertThat_eq .requestRead l.readProcessing
    unfold requestRead
    rw [heq']
    exact ⟨⟨rfl, rfl, rfl⟩, Or.inl rfl, rfl, rfl⟩

/-- **Every asio event** does one of these things to the buffer and the writes. -/
theorem asioStep_buffer {e : AsioEvent} {call : Option HosterCall} (ho : Owned l)
    (hstep : l.asioStep e = some (l', call)) : BufferOutcome l e l' := by
  cases asioStep_outcome hstep with
  | @resolved i x results hx =>
      cases results with
      | none => exact .kept ⟨rfl, rfl, rfl⟩ (Or.inl rfl) id
      | some points =>
          obtain ⟨hsame, hwrites, hc, hwp⟩ := buffer_requestConnect { l with
            resolves := l.resolves.eraseIdx i
            resolvedPoints := l.resolvedPoints ++ points }
          refine .kept ⟨hsame.1, hsame.2, hsame.3⟩ (Or.inl hwrites) fun hready => ?_
          exact hready.imp hc.symm.trans hwp.symm.trans
  | @connected i x error hx =>
      have hpos : 0 < l.resolves.length + l.connects.length := by
        have := (List.getElem?_eq_some_iff.mp hx).1
        omega
      have hoff := ho.setup_offline hpos
      cases error with
      | true =>
          obtain ⟨hsame, hwrites, hc, hwp⟩ := buffer_requestConnect { l with
            connects := l.connects.eraseIdx i
            resolvedPoints := l.resolvedPoints.tail }
          refine .kept ⟨hsame.1, hsame.2, hsame.3⟩ (Or.inl hwrites) fun hready => ?_
          exact hready.imp hc.symm.trans hwp.symm.trans
      | false =>
          have hnone := (ho.offline_empty hoff).2.1
          exact .began (m := { ({ l with
              connects := l.connects.eraseIdx i
              readProcessing := true
              connected := true } : OutLink).requestRead with writeProcessing := true })
            ⟨rfl, rfl, rfl⟩ (Or.inl hoff) hnone hnone
  | readDone hx hle => exact .kept ⟨rfl, rfl, rfl⟩ (Or.inl rfl) id
  | @readHandler i r _ _ hx heq =>
      obtain ⟨hsame, hwrites, hc, hwp⟩ :=
        buffer_readHandler { l with reads := l.reads.eraseIdx i } r
      rw [heq] at hsame hwrites hc hwp
      refine .kept ⟨hsame.1, hsame.2, hsame.3⟩ hwrites fun hready => ?_
      exact hready.imp hc.symm.trans hwp.symm.trans
  | @writeDone i size r hx hle =>
      obtain ⟨_, hone, _, _⟩ := ho.writing hx
      have hi : i = 0 := by
        have := (List.getElem?_eq_some_iff.mp hx).1
        simp [hone] at this
        omega
      have hset : l.writes.set i ⟨size, some r⟩ = [⟨size, some r⟩] := by simp [hone, hi]
      rw [hset]
      exact .done hone hle
  | @writeHandler i size r hx =>
      obtain ⟨hwp, hone, herase, _⟩ := ho.writing hx
      obtain ⟨hc, _⟩ := ho.online (Or.inr hwp)
      obtain ⟨hsize, _, hle⟩ := ho.buffer ⟨size, some r⟩ (by simp [hone])
      rw [herase]
      rcases requestWriteProcessing_cases { l with writes := [] } r hwp (hsize ▸ hle r rfl) with
        ⟨hfail, heq⟩ | ⟨_, _, heq⟩
      · rw [heq]
        exact .failed hone hfail hc
      · rw [heq]
        exact .continued hone
  | timerExpire hx => exact .kept ⟨rfl, rfl, rfl⟩ (Or.inl rfl) id
  | @timerHandler i t hx ht =>
      obtain ⟨hwp, _, _, hw⟩ := ho.idling hx
      exact .began (m := { l with timers := l.timers.eraseIdx i }) ⟨rfl, rfl, rfl⟩ (Or.inr hwp)
        hw hw
  | closeCheck hpos heq =>
      rcases checkReadyCloseProcessing_cases { l with posts := l.posts - 1 } with
        ⟨_, _, _, hclose⟩ | ⟨_, hclose⟩
      · rw [hclose] at heq
        cases heq
        exact .kept ⟨rfl, rfl, rfl⟩ (Or.inr rfl) id
      · rw [hclose] at heq
        cases heq
        exact .kept ⟨rfl, rfl, rfl⟩ (Or.inl rfl) id

/-- **Every asio event keeps the drained bytes accounted for.** -/
theorem drained_asioStep {e : AsioEvent} {call : Option HosterCall} (h : Drained l)
    (ho : Owned l) (hstep : l.asioStep e = some (l', call)) : l'.Drained := by
  cases asioStep_buffer ho hstep with
  | kept hsame hwrites hready =>
      exact h.congr hsame.appended hsame.networkWriteBuffer hsame.written hwrites hready
  | began hsame hready hidle hnone =>
      obtain ⟨gone, hd, hwritten⟩ := h.idle hready hidle
      refine drained_requestWrite ?_ (hsame.written.trans hwritten) hnone
      rw [hsame.appended, hsame.networkWriteBuffer, hd]
  | @done i size r hone hle =>
      obtain ⟨gone, t, h⟩ := h
      have ht : t = 0 := h.result ⟨size, none⟩ (by simp [hone])
      refine ⟨gone, r.transferred, h.drained, ?_, by simp, fun _ hnone => by simp at hnone⟩
      simp [h.written, ht]
  | @failed i size r hone hfail hconnected =>
      obtain ⟨gone, t, h⟩ := h
      refine ⟨gone, t, h.drained, h.written, by simp [checkReadyClose, cancelSocket], ?_⟩
      intro hready
      simp [checkReadyClose, cancelSocket, hconnected] at hready
  | @continued i size r hone =>
      obtain ⟨gone, t, h⟩ := h
      have ht : t = r.transferred := h.result ⟨size, some r⟩ (by simp [hone])
      -- the handler drops from the buffer what the socket took
      have hrest : l.appended.flatMap Prod.snd = gone ++ l.networkWriteBuffer.take t ++
          l.networkWriteBuffer.drop r.transferred := by
        simp only [h.drained, List.append_assoc, ht, List.take_append_drop]
      exact drained_requestWrite hrest h.written rfl

/-- A chunk that is handed over is not drained yet. -/
theorem drained_sendData (h : Drained l) (chunkId : UInt32) (data : Bytes) :
    (l.sendData chunkId data).Drained := by
  have hout := sendData_outcome l chunkId data
  generalize l.sendData chunkId data = after at hout ⊢
  cases hout with
  | stale _ => exact h
  | afterStop _ _ _ => exact h.congr rfl rfl rfl (Or.inl rfl) id
  | duplicate _ _ _ => exact h
  | stored _ _ _ timers _ => exact h.congr rfl rfl rfl (Or.inl rfl) id

/-- A stop drains nothing. -/
theorem drained_stop (h : Drained l) (n : UInt32) : (l.stop n).Drained := by
  by_cases hn : n ≤ l.nextWriteChunkId
  · rw [stop_atOnce hn]
    exact h.congr rfl rfl rfl (Or.inl rfl) id
  · rw [stop_later (UInt32.not_le.mp hn)]
    exact h.congr rfl rfl rfl (Or.inl rfl) id

/-- **Every event keeps this.** -/
theorem drained_step {e : LinkEvent} (h : Drained l) (ho : Owned l)
    (hstep : l.step e = some l') : l'.Drained := by
  cases e with
  | asio e =>
      obtain ⟨⟨m, call⟩, hm, rfl⟩ := Option.map_eq_some_iff.mp hstep
      exact drained_asioStep h ho hm
  | sendData chunkId data => exact Option.some.inj hstep ▸ drained_sendData h chunkId data
  | stop n => exact Option.some.inj hstep ▸ drained_stop h n

/-- The first turn of the write loop finds no write in flight. -/
theorem drained_startLoops (h : Drained l) (hc : l.connected = false) (hw : l.writes = []) :
    l.startLoops.Drained := by
  obtain ⟨gone, hd, hwritten⟩ := h.idle (Or.inl hc) hw
  unfold startLoops requestRead
  simp only [assertThat_true]
  exact drained_requestWrite hd hwritten hw

/-- A new link has drained and written nothing. -/
theorem drained_fresh (h : Fresh l) : Drained l := by
  obtain ⟨cnt, rfl | ⟨address, port, rfl⟩⟩ := h
  · refine drained_startLoops (l := { createAccepted with hoster := some cnt }) ?_ rfl rfl
    exact ⟨[], 0, rfl, rfl, by simp [createAccepted], fun _ _ => rfl⟩
  · exact ⟨[], 0, rfl, rfl, by simp [run, createAddress], fun _ _ => rfl⟩

end OutLink
