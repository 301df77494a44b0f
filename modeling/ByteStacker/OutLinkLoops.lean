import ByteStacker.OutLink

/-!
# The two loops of a link and the operations they own

The source calls the read and the write loop "single-threaded": each has one
operation in flight while its flag `…_processing_` is up, and its completion
handler either starts the next operation or lowers the flag.  `Owned` is that
discipline as an invariant.  It counts the operations in flight against the
flags, says in which phase (resolving, connecting, connected) a link is, and
ties the closing check to the end of both loops.

The write token is passed through `RequestWrite`: `Rest` is the part of the
invariant that says nothing about the writer, and `owned_requestWrite` turns
it into `Owned` for a caller that holds the token, i.e. has just taken the only
write-side operation out of flight.
-/

namespace OutLink

/-! ## What the helper functions leave alone -/

/-- An assertion touches the record of failures only. -/
theorem assertThat_eq (l : OutLink) (site : AssertSite) (cond : Bool) :
    ∃ fails, l.assertThat site cond = { l with failedAsserts := fails } := by
  unfold assertThat
  cases cond with
  | true => exact ⟨l.failedAsserts, rfl⟩
  | false => exact ⟨_, rfl⟩

@[simp] theorem assertThat_true (l : OutLink) (site : AssertSite) :
    l.assertThat site true = l := rfl

/-- **Fill rule.**  `FillNetworkBuffer` preserves what survives dropping the
map at a stop and moving the first chunk when it is the awaited one. -/
theorem fillNetworkBuffer_rule {P : OutLink → Prop}
    (hassert : ∀ l fails, P l → P { l with failedAsserts := fails })
    (hfinish : ∀ l, P l → l.stopReached = true → P l.finishFill)
    (htake : ∀ l data rest, P l → l.stopReached = false →
      l.writeChunks.entries = (l.nextWriteChunkId, data) :: rest →
      P (l.takeChunk l.nextWriteChunkId data))
    {l : OutLink} (h : P l) : P l.fillNetworkBuffer := by
  have hloop : ∀ fuel l, P l → l.stopReached = false → P (fillLoop fuel l) := by
    intro fuel
    induction fuel with
    | zero => exact fun l h _ => h
    | succ fuel ih =>
        intro l h hns
        unfold fillLoop
        split
        · exact h
        · rename_i id data rest hentries
          obtain ⟨fails, heq⟩ := l.assertThat_eq .fillNetworkBuffer (l.nextWriteChunkId ≤ id)
          simp only [heq]
          split
          · exact hassert _ _ h
          · rename_i hid
            have hid : id = l.nextWriteChunkId := by simpa using hid
            have htaken := htake { l with failedAsserts := fails } data rest
              (hassert _ _ h) hns (by simpa [hid] using hentries)
            subst hid
            split
            · rename_i hstop
              exact hfinish _ htaken hstop
            · rename_i hstop
              exact ih _ htaken (by simpa using hstop)
  unfold fillNetworkBuffer
  split
  · rename_i hstop
    exact hfinish _ h hstop
  · rename_i hstop
    exact hloop _ _ h (by simpa using hstop)

/-- Two states of a link that agree on everything the two loops and the
operations in flight consist of. -/
structure SameLoops (l m : OutLink) : Prop where
  hoster : m.hoster = l.hoster
  readProcessing : m.readProcessing = l.readProcessing
  writeProcessing : m.writeProcessing = l.writeProcessing
  closeInvoked : m.closeInvoked = l.closeInvoked
  stopWriteImmediate : m.stopWriteImmediate = l.stopWriteImmediate
  resolves : m.resolves = l.resolves
  connects : m.connects = l.connects
  reads : m.reads = l.reads
  writes : m.writes = l.writes
  timers : m.timers = l.timers
  posts : m.posts = l.posts
  connected : m.connected = l.connected
  started : m.started = l.started
  readLog : m.readLog = l.readLog
  written : m.written = l.written
  closeCalls : m.closeCalls = l.closeCalls

/-- Every link has the loops of itself. -/
theorem SameLoops.refl (l : OutLink) : SameLoops l l := by
  constructor <;> rfl

/-- Steps that leave the loops alone can be put together. -/
theorem SameLoops.trans {l m n : OutLink} (h : SameLoops l m) (h' : SameLoops m n) :
    SameLoops l n where
  hoster := h'.hoster.trans h.hoster
  readProcessing := h'.readProcessing.trans h.readProcessing
  writeProcessing := h'.writeProcessing.trans h.writeProcessing
  closeInvoked := h'.closeInvoked.trans h.closeInvoked
  stopWriteImmediate := h'.stopWriteImmediate.trans h.stopWriteImmediate
  resolves := h'.resolves.trans h.resolves
  connects := h'.connects.trans h.connects
  reads := h'.reads.trans h.reads
  writes := h'.writes.trans h.writes
  timers := h'.timers.trans h.timers
  posts := h'.posts.trans h.posts
  connected := h'.connected.trans h.connected
  started := h'.started.trans h.started
  readLog := h'.readLog.trans h.readLog
  written := h'.written.trans h.written
  closeCalls := h'.closeCalls.trans h.closeCalls

/-- Failed assertions do not concern the loops. -/
theorem sameLoops_fails (l : OutLink) (fails : List AssertSite) :
    SameLoops l { l with failedAsserts := fails } := by
  constructor <;> rfl

/-- `FillNetworkBuffer` touches the reassembly state only. -/
theorem sameLoops_fillNetworkBuffer (l : OutLink) : SameLoops l l.fillNetworkBuffer := by
  refine fillNetworkBuffer_rule (P := SameLoops l) ?_ ?_ ?_ (SameLoops.refl l)
  · exact fun m fails h => h.trans (sameLoops_fails m fails)
  · exact fun m h _ => h.trans (by constructor <;> rfl)
  · exact fun m data rest h _ _ => h.trans (by constructor <;> rfl)

/-- **The ways `RequestWrite` can end**, with the state `m` in which it takes
its decision. -/
inductive WriteOutcome (l : OutLink) : OutLink → Prop
  | aborted (fails : List AssertSite) (himm : l.stopWriteImmediate = true) :
      WriteOutcome l { l with failedAsserts := fails }.endWrite
  | finished (fails : List AssertSite) (m : OutLink) (himm : l.stopWriteImmediate = false)
      (hm : m = { l with failedAsserts := fails }.fillNetworkBuffer)
      (hbuffer : m.networkWriteBuffer = []) (hall : m.stopAfterAllWrite = true) :
      WriteOutcome l m.endWrite
  | idle (fails : List AssertSite) (m : OutLink) (himm : l.stopWriteImmediate = false)
      (hm : m = { l with failedAsserts := fails }.fillNetworkBuffer)
      (hbuffer : m.networkWriteBuffer = []) (hall : m.stopAfterAllWrite = false) :
      WriteOutcome l m.waitIdle
  | writing (fails : List AssertSite) (m : OutLink) (himm : l.stopWriteImmediate = false)
      (hm : m = { l with failedAsserts := fails }.fillNetworkBuffer)
      (hbuffer : m.networkWriteBuffer ≠ []) :
      WriteOutcome l m.startWrite

/-- **`RequestWrite` ends in one of four ways.** -/
theorem requestWrite_outcome (l : OutLink) : WriteOutcome l l.requestWrite := by
  obtain ⟨fails, heq⟩ := l.assertThat_eq .requestWrite l.writeProcessing
  unfold requestWrite
  simp only [heq]
  generalize hm : { l with failedAsserts := fails }.fillNetworkBuffer = m
  by_cases himm : l.stopWriteImmediate = true
  · rw [if_pos himm]
    exact .aborted fails himm
  · rw [if_neg himm]
    have himm : l.stopWriteImmediate = false := by simpa using himm
    by_cases hbuf : m.networkWriteBuffer = []
    · rw [if_pos hbuf]
      by_cases hall : m.stopAfterAllWrite = true
      · rw [if_pos hall]
        exact .finished fails m himm hm.symm hbuf hall
      · rw [if_neg hall]
        exact .idle fails m himm hm.symm hbuf (by simpa using hall)
    · rw [if_neg hbuf]
      exact .writing fails m himm hm.symm hbuf

/-- Filling the buffer leaves the loops alone. -/
theorem sameLoops_filled {l m : OutLink} {fails : List AssertSite}
    (hm : m = { l with failedAsserts := fails }.fillNetworkBuffer) : SameLoops l m :=
  hm ▸ (sameLoops_fails l fails).trans (sameLoops_fillNetworkBuffer _)

/-- Two states of a link that agree on how far its life has come and on what it
has read. -/
structure SameStage (l m : OutLink) : Prop where
  hoster : m.hoster = l.hoster
  resolvedPoints : m.resolvedPoints = l.resolvedPoints
  resolves : m.resolves = l.resolves
  connects : m.connects = l.connects
  connected : m.connected = l.connected
  closeInvoked : m.closeInvoked = l.closeInvoked
  closeCalls : m.closeCalls = l.closeCalls
  readLog : m.readLog = l.readLog

/-- `FillNetworkBuffer` keeps the stage. -/
theorem sameStage_fillNetworkBuffer (l : OutLink) : SameStage l l.fillNetworkBuffer := by
  refine fillNetworkBuffer_rule (P := SameStage l) ?_ ?_ ?_ (by constructor <;> rfl)
  · exact fun m fails h => ⟨h.1, h.2, h.3, h.4, h.5, h.6, h.7, h.8⟩
  · exact fun m h _ => ⟨h.1, h.2, h.3, h.4, h.5, h.6, h.7, h.8⟩
  · exact fun m data rest h _ _ => ⟨h.1, h.2, h.3, h.4, h.5, h.6, h.7, h.8⟩

/-- A turn of the write loop leaves reads, hoster and connecting stage alone. -/
theorem sameStage_requestWrite (l : OutLink) : SameStage l l.requestWrite := by
  have hfilled : ∀ fails m, m = ({ l with failedAsserts := fails } : OutLink).fillNetworkBuffer →
      SameStage l m := by
    intro fails m hm
    subst hm
    have h := sameStage_fillNetworkBuffer { l with failedAsserts := fails }
    exact ⟨h.1, h.2, h.3, h.4, h.5, h.6, h.7, h.8⟩
  have hout := requestWrite_outcome l
  generalize l.requestWrite = after at hout ⊢
  cases hout with
  | aborted fails _ => constructor <;> rfl
  | finished fails m _ hm _ _ =>
      have h := hfilled fails m hm
      exact ⟨h.1, h.2, h.3, h.4, h.5, h.6, h.7, h.8⟩
  | idle fails m _ hm _ _ =>
      have h := hfilled fails m hm
      exact ⟨h.1, h.2, h.3, h.4, h.5, h.6, h.7, h.8⟩
  | writing fails m _ hm _ =>
      have h := hfilled fails m hm
      exact ⟨h.1, h.2, h.3, h.4, h.5, h.6, h.7, h.8⟩

/-! ## What an asio event can do -/

/-- **Inversion of an asio event**: the operation it names was in flight in the
required stage, and the state after it. -/
inductive AsioOutcome (l : OutLink) : AsioEvent → OutLink → Option HosterCall → Prop
  | resolved {i : Nat} {x : String × String} {results : Option (List Endpoint)}
      (hx : l.resolves[i]? = some x) :
      AsioOutcome l (.resolved i results)
        ({ l with resolves := l.resolves.eraseIdx i }.resolverProcessing results) none
  | connected {i : Nat} {x : Endpoint} {error : Bool} (hx : l.connects[i]? = some x) :
      AsioOutcome l (.connected i error)
        ({ l with connects := l.connects.eraseIdx i }.requestConnectProcessing error) none
  | readDone {i : Nat} {r : ReadResult} (hx : l.reads[i]? = some none)
      (hle : r.data.length ≤ kChunkSize) :
      AsioOutcome l (.readDone i r) { l with reads := l.reads.set i (some r) } none
  | readHandler {i : Nat} {r : ReadResult} {l' : OutLink} {call : Option HosterCall}
      (hx : l.reads[i]? = some (some r))
      (heq : ({ l with reads := l.reads.eraseIdx i } : OutLink).requestReadProcessing r =
        (l', call)) :
      AsioOutcome l (.readHandler i) l' call
  | writeDone {i size : Nat} {r : WriteResult} (hx : l.writes[i]? = some ⟨size, none⟩)
      (hle : r.transferred ≤ size) :
      AsioOutcome l (.writeDone i r)
        { l with
          writes := l.writes.set i ⟨size, some r⟩
          written := l.written ++ l.networkWriteBuffer.take r.transferred } none
  | writeHandler {i size : Nat} {r : WriteResult} (hx : l.writes[i]? = some ⟨size, some r⟩) :
      AsioOutcome l (.writeHandler i)
        ({ l with writes := l.writes.eraseIdx i }.requestWriteProcessing r) none
  | timerExpire {i : Nat} (hx : l.timers[i]? = some .waiting) :
      AsioOutcome l (.timerExpire i) { l with timers := l.timers.set i .expired } none
  | timerHandler {i : Nat} {t : WaitStatus} (hx : l.timers[i]? = some t) (ht : t ≠ .waiting) :
      AsioOutcome l (.timerHandler i)
        ({ l with timers := l.timers.eraseIdx i } : OutLink).requestWrite none
  | closeCheck {l' : OutLink} {call : Option HosterCall} (hpos : l.posts ≠ 0)
      (heq : ({ l with posts := l.posts - 1 } : OutLink).checkReadyCloseProcessing =
        (l', call)) :
      AsioOutcome l .closeCheck l' call

/-- **The inversion of asio events**: whatever completes does one of these things. -/
theorem asioStep_outcome {l l' : OutLink} {e : AsioEvent} {call : Option HosterCall}
    (hstep : l.asioStep e = some (l', call)) : AsioOutcome l e l' call := by
  cases e with
  | resolved i results =>
      simp only [asioStep] at hstep
      split at hstep
      · rename_i x hx
        cases hstep
        exact .resolved hx
      · cases hstep
  | connected i error =>
      simp only [asioStep] at hstep
      split at hstep
      · rename_i x hx
        cases hstep
        exact .connected hx
      · cases hstep
  | readDone i r =>
      simp only [asioStep] at hstep
      split at hstep
      · rename_i hx
        split at hstep
        · rename_i hle
          cases hstep
          exact .readDone hx hle
        · cases hstep
      · cases hstep
  | readHandler i =>
      simp only [asioStep] at hstep
      split at hstep
      · rename_i r hx
        exact .readHandler hx (Option.some.inj hstep)
      · cases hstep
  | writeDone i r =>
      simp only [asioStep] at hstep
      split at hstep
      · rename_i size hx
        split at hstep
        · rename_i hle
          cases hstep
          exact .writeDone hx hle
        · cases hstep
      · cases hstep
  | writeHandler i =>
      simp only [asioStep] at hstep
      split at hstep
      · rename_i size r hx
        cases hstep
        exact .writeHandler hx
      · cases hstep
  | timerExpire i =>
      simp only [asioStep] at hstep
      split at hstep
      · rename_i hx
        cases hstep
        exact .timerExpire hx
      · cases hstep
  | timerHandler i =>
      simp only [asioStep] at hstep
      split at hstep
      · cases hstep
      · rename_i t ht hx
        cases hstep
        exact .timerHandler hx ht
      · cases hstep
  | closeCheck =>
      simp only [asioStep] at hstep
      split at hstep
      · cases hstep
      · rename_i hpos
        exact .closeCheck hpos (Option.some.inj hstep)

/-! ## The invariant -/

/-- The part of the loop discipline that does not concern the writer. -/
structure Rest (l : OutLink) : Prop where
  reads : l.reads.length = l.readProcessing.toNat
  setup : l.resolves.length + l.connects.length + l.connected.toNat ≤ 1
  offline : l.connected = false → l.readProcessing = false ∧ l.writeProcessing = false
  unposted : 0 < l.resolves.length + l.connects.length → l.posts = 0 ∧ l.closeInvoked = false
  named : l.hoster.isSome = true
  closed : l.closeInvoked = true → l.readProcessing = false ∧ l.writeProcessing = false
  counted : l.closeCalls = l.closeInvoked.toNat
  pending : l.connected = true → l.readProcessing = false → l.writeProcessing = false →
    l.closeInvoked = false → 0 < l.posts
  aborted : l.connected = true → l.readProcessing = false → l.stopWriteImmediate = true

/-- **Loop discipline.**  One read in flight while the read loop runs, one
write or one idle wait while the write loop runs, none otherwise; a write in
flight covers the whole buffer. -/
structure Owned (l : OutLink) : Prop extends Rest l where
  writes : l.writes.length + l.timers.length = l.writeProcessing.toNat
  buffer : ∀ w ∈ l.writes, w.size = l.networkWriteBuffer.length ∧ 0 < w.size ∧
    ∀ r, w.result = some r → r.transferred ≤ w.size

/-- What holds besides the write loop depends on the loops only. -/
theorem Rest.congr {l m : OutLink} (h : Rest l) (hs : SameLoops l m) : Rest m where
  reads := by rw [hs.reads, hs.readProcessing]; exact h.reads
  setup := by rw [hs.resolves, hs.connects, hs.connected]; exact h.setup
  offline := by rw [hs.connected, hs.readProcessing, hs.writeProcessing]; exact h.offline
  unposted := by rw [hs.resolves, hs.connects, hs.posts, hs.closeInvoked]; exact h.unposted
  named := by rw [hs.hoster]; exact h.named
  closed := by rw [hs.closeInvoked, hs.readProcessing, hs.writeProcessing]; exact h.closed
  counted := by rw [hs.closeCalls, hs.closeInvoked]; exact h.counted
  pending := by
    rw [hs.connected, hs.readProcessing, hs.writeProcessing, hs.closeInvoked, hs.posts]
    exact h.pending
  aborted := by rw [hs.connected, hs.readProcessing, hs.stopWriteImmediate]; exact h.aborted

/-- Lists of operations of which at most one is in flight. -/
theorem eraseIdx_eq_nil {α : Type} {xs : List α} {i : Nat} {x : α}
    (hlen : xs.length ≤ 1) (hx : xs[i]? = some x) : xs = [x] ∧ xs.eraseIdx i = [] := by
  cases xs with
  | nil => simp at hx
  | cons y ys =>
      have hys : ys = [] := List.eq_nil_of_length_eq_zero (by simpa using hlen)
      subst hys
      cases i with
      | zero => simpa using hx
      | succ i => simp at hx

/-- A connected link is no longer being set up. -/
theorem Rest.not_setup {l : OutLink} (h : Rest l) (hc : l.connected = true) :
    l.resolves = [] ∧ l.connects = [] := by
  have hsum := h.setup
  rw [hc] at hsum
  simp only [Bool.toNat_true] at hsum
  constructor <;> apply List.eq_nil_of_length_eq_zero <;> omega

/-- A link whose write loop runs is not closed. -/
theorem Rest.not_closed {l : OutLink} (h : Rest l) (hp : l.writeProcessing = true) :
    l.closeInvoked = false := by
  by_contra hci
  have := (h.closed (by simpa using hci)).2
  simp [hp] at this

/-- Ending the write loop gives its token back and posts the closing check. -/
theorem owned_endWrite {l : OutLink} (h : Rest l) (hw : l.writes = [])
    (ht : l.timers = []) (hc : l.connected = true) (hci : l.closeInvoked = false) :
    l.endWrite.Owned := by
  obtain ⟨hres, hcon⟩ := h.not_setup hc
  have hreads := h.reads
  exact {
    reads := by simpa [endWrite, cancelReadWrite, cancelSocket, cancelTimer, checkReadyClose]
    setup := h.setup
    offline := fun hoff => absurd (hc.symm.trans hoff) (by simp)
    unposted := fun hpos => absurd hpos (by
      simp [endWrite, cancelReadWrite, cancelSocket, cancelTimer, checkReadyClose, hres, hcon])
    named := h.named
    closed := fun hinv => absurd (hci.symm.trans hinv) (by simp)
    counted := h.counted
    pending := fun _ _ _ _ => Nat.succ_pos _
    aborted := fun _ _ => rfl
    writes := by
      simp [endWrite, cancelReadWrite, cancelSocket, cancelTimer, checkReadyClose, hw, ht]
    buffer := by
      simp [endWrite, cancelReadWrite, cancelSocket, cancelTimer, checkReadyClose, hw] }

/-- `RequestWrite` by a caller that holds the write token. -/
theorem owned_requestWrite {l : OutLink} (h : Rest l) (hw : l.writes = [])
    (ht : l.timers = []) (hp : l.writeProcessing = true) (hc : l.connected = true) :
    l.requestWrite.Owned := by
  have hci := h.not_closed hp
  have hout := requestWrite_outcome l
  generalize l.requestWrite = after at hout ⊢
  cases hout with
  | aborted fails himm => exact owned_endWrite (h.congr (sameLoops_fails l fails)) hw ht hc hci
  | finished fails m himm hm hbuf hall =>
      have hs := sameLoops_filled hm
      exact owned_endWrite (h.congr hs) (hs.writes.trans hw) (hs.timers.trans ht)
        (hs.connected.trans hc) (hs.closeInvoked.trans hci)
  | idle fails m himm hm hbuf hall =>
      have hs := sameLoops_filled hm
      have hr := h.congr hs
      exact {
        toRest := ⟨hr.reads, hr.setup, hr.offline, hr.unposted, hr.named, hr.closed, hr.counted,
          hr.pending, hr.aborted⟩
        writes := by
          simp [waitIdle, cancelTimer, hs.writes, hs.timers, hs.writeProcessing, hw, ht, hp]
        buffer := by simp [waitIdle, cancelTimer, hs.writes, hw] }
  | writing fails m himm hm hbuf =>
      have hs := sameLoops_filled hm
      have hr := h.congr hs
      exact {
        toRest := ⟨hr.reads, hr.setup, hr.offline, hr.unposted, hr.named, hr.closed, hr.counted,
          hr.pending, hr.aborted⟩
        writes := by simp [startWrite, hs.writes, hs.timers, hs.writeProcessing, hw, ht, hp]
        buffer := by
          simp [startWrite, hs.writes, hw]
          exact List.length_pos_iff.mpr hbuf }

/-! ## Every event keeps the discipline -/

/-- Both loops start with one operation each. -/
theorem owned_startLoops {l : OutLink} (h : Rest l) (hreads : l.reads = [])
    (hw : l.writes = []) (ht : l.timers = []) (hres : l.resolves = []) (hcon : l.connects = [])
    (hci : l.closeInvoked = false) : l.startLoops.Owned := by
  unfold startLoops requestRead
  simp only [assertThat_true]
  refine owned_requestWrite ?_ hw ht rfl rfl
  exact {
    reads := by simp [hreads]
    setup := by simp [hres, hcon]
    offline := fun hoff => absurd hoff (by simp)
    unposted := fun hpos => absurd hpos (by simp [hres, hcon])
    named := h.named
    closed := fun hinv => absurd (hci.symm.trans hinv) (by simp)
    counted := h.counted
    pending := fun _ hrp => absurd hrp (by simp)
    aborted := fun _ hrp => absurd hrp (by simp) }

/-- Before there is a connection nothing is in flight on the socket. -/
theorem Owned.offline_empty {l : OutLink} (h : Owned l) (hc : l.connected = false) :
    l.reads = [] ∧ l.writes = [] ∧ l.timers = [] := by
  obtain ⟨hrp, hwp⟩ := h.offline hc
  have hr := h.reads
  have hw := h.writes
  rw [hrp] at hr
  rw [hwp] at hw
  simp only [Bool.toNat_false] at hr hw
  refine ⟨?_, ?_, ?_⟩ <;> apply List.eq_nil_of_length_eq_zero <;> omega

/-- A link that is being set up is not connected. -/
theorem Owned.setup_offline {l : OutLink} (h : Owned l)
    (hpos : 0 < l.resolves.length + l.connects.length) : l.connected = false := by
  have hsum := h.setup
  by_contra hc
  simp only [Bool.not_eq_false] at hc
  rw [hc] at hsum
  simp only [Bool.toNat_true] at hsum
  omega

/-- The next endpoint is tried with nothing else in flight. -/
theorem owned_requestConnect {l : OutLink} (h : Owned l) (hc : l.connected = false)
    (hres : l.resolves = []) (hcon : l.connects = []) (hposts : l.posts = 0)
    (hci : l.closeInvoked = false) : l.requestConnect.Owned := by
  unfold requestConnect
  split
  · exact h
  · exact {
      reads := h.reads
      setup := by simp [hres, hcon, hc]
      offline := h.offline
      unposted := fun _ => ⟨hposts, hci⟩
      named := h.named
      closed := h.closed
      counted := h.counted
      pending := h.pending
      aborted := h.aborted
      writes := h.writes
      buffer := h.buffer }

/-- **The resolver has answered.** -/
theorem owned_resolved {l : OutLink} (h : Owned l) {i : Nat} {x : String × String}
    (hx : l.resolves[i]? = some x) (results : Option (List Endpoint)) :
    ({ l with resolves := l.resolves.eraseIdx i }.resolverProcessing results).Owned := by
  have hsum := h.setup
  obtain ⟨hone, herase⟩ := eraseIdx_eq_nil (by omega) hx
  rw [hone] at hsum
  simp only [List.length_singleton] at hsum
  have hcon : l.connects = [] := List.eq_nil_of_length_eq_zero (by omega)
  have hpos : 0 < l.resolves.length + l.connects.length := by simp [hone, hcon]
  have hc := h.setup_offline hpos
  obtain ⟨hposts, hci⟩ := h.unposted hpos
  rw [herase]
  have hbase : ∀ points, Owned { l with resolves := [], resolvedPoints := points } :=
    fun points => {
    reads := h.reads
    setup := by simp [hcon, hc]
    offline := h.offline
    unposted := fun _ => ⟨hposts, hci⟩
    named := h.named
    closed := h.closed
    counted := h.counted
    pending := h.pending
    aborted := h.aborted
    writes := h.writes
    buffer := h.buffer }
  cases results with
  | none =>
      have hb := hbase l.resolvedPoints
      exact {
        reads := hb.reads
        setup := hb.setup
        offline := hb.offline
        unposted := fun hp => absurd hp (by simp [resolverProcessing, checkReadyClose, hcon])
        named := hb.named
        closed := hb.closed
        counted := hb.counted
        pending := fun _ _ _ _ => Nat.succ_pos _
        aborted := hb.aborted
        writes := hb.writes
        buffer := hb.buffer }
  | some points => exact owned_requestConnect (hbase _) hc rfl hcon hposts hci

/-- **An attempt to connect has completed.** -/
theorem owned_connected {l : OutLink} (h : Owned l) {i : Nat} {x : Endpoint}
    (hx : l.connects[i]? = some x) (error : Bool) :
    ({ l with connects := l.connects.eraseIdx i }.requestConnectProcessing error).Owned := by
  have hsum := h.setup
  obtain ⟨hone, herase⟩ := eraseIdx_eq_nil (by omega) hx
  rw [hone] at hsum
  simp only [List.length_singleton] at hsum
  have hres : l.resolves = [] := List.eq_nil_of_length_eq_zero (by omega)
  have hpos : 0 < l.resolves.length + l.connects.length := by simp [hone]
  have hc := h.setup_offline hpos
  obtain ⟨hposts, hci⟩ := h.unposted hpos
  obtain ⟨hr, hw, ht⟩ := h.offline_empty hc
  rw [herase]
  have hbase : ∀ points, Owned { l with connects := [], resolvedPoints := points } :=
    fun points => {
    reads := h.reads
    setup := by simp [hres, hc]
    offline := h.offline
    unposted := fun _ => ⟨hposts, hci⟩
    named := h.named
    closed := h.closed
    counted := h.counted
    pending := h.pending
    aborted := h.aborted
    writes := h.writes
    buffer := h.buffer }
  cases error with
  | true => exact owned_requestConnect (hbase _) hc hres rfl hposts hci
  | false =>
      exact owned_startLoops (hbase l.resolvedPoints).toRest hr hw ht hres rfl hci

/-- An aborted write has transferred nothing. -/
theorem buffer_cancelSocket {l : OutLink}
    (h : ∀ w ∈ l.writes, w.size = l.networkWriteBuffer.length ∧ 0 < w.size ∧
      ∀ r, w.result = some r → r.transferred ≤ w.size) :
    ∀ w ∈ l.cancelSocket.writes, w.size = l.networkWriteBuffer.length ∧ 0 < w.size ∧
      ∀ r, w.result = some r → r.transferred ≤ w.size := by
  intro w hw
  obtain ⟨v, hv, rfl⟩ := List.mem_map.mp hw
  obtain ⟨hsize, hpos, hle⟩ := h v hv
  refine ⟨hsize, hpos, ?_⟩
  intro res hres
  cases hv' : v.result with
  | none =>
      simp only [abortWrite, hv', Option.getD_none, Option.some.injEq] at hres
      simp [← hres]
  | some r =>
      simp only [abortWrite, hv', Option.getD_some, Option.some.injEq] at hres
      exact hres ▸ hle r hv'

/-- A read is started. -/
theorem requestRead_eq {l : OutLink} (h : l.readProcessing = true) :
    l.requestRead = { l with reads := l.reads ++ [none], started := l.started + 1 } := by
  simp [requestRead, assertThat, h]

/-- A loop that still runs belongs to an open connection. -/
theorem Rest.online {l : OutLink} (h : Rest l)
    (hp : l.readProcessing = true ∨ l.writeProcessing = true) :
    l.connected = true ∧ l.closeInvoked = false := by
  constructor
  · by_contra hoff
    obtain ⟨hr, hw⟩ := h.offline (by simpa using hoff)
    simp [hr, hw] at hp
  · by_contra hinv
    obtain ⟨hr, hw⟩ := h.closed (by simpa using hinv)
    simp [hr, hw] at hp

/-- A read in flight is the only one. -/
theorem Owned.reading {l : OutLink} (h : Owned l) {i : Nat} {x : Option ReadResult}
    (hx : l.reads[i]? = some x) :
    l.readProcessing = true ∧ l.reads = [x] ∧ l.reads.eraseIdx i = [] := by
  have hlen := h.reads
  have hle := Bool.toNat_le l.readProcessing
  obtain ⟨hone, herase⟩ := eraseIdx_eq_nil (by omega) hx
  refine ⟨?_, hone, herase⟩
  rw [hone] at hlen
  cases hb : l.readProcessing with
  | true => rfl
  | false => simp [hb] at hlen

/-- A write in flight is the only write-side operation. -/
theorem Owned.writing {l : OutLink} (h : Owned l) {i : Nat} {w : WriteOp}
    (hx : l.writes[i]? = some w) :
    l.writeProcessing = true ∧ l.writes = [w] ∧ l.writes.eraseIdx i = [] ∧ l.timers = [] := by
  have hlen := h.writes
  have hle := Bool.toNat_le l.writeProcessing
  obtain ⟨hone, herase⟩ := eraseIdx_eq_nil (by omega) hx
  rw [hone, List.length_singleton] at hlen
  refine ⟨?_, hone, herase, List.eq_nil_of_length_eq_zero (by omega)⟩
  cases hb : l.writeProcessing with
  | true => rfl
  | false => simp [hb] at hlen

/-- An idle wait in flight is the only write-side operation. -/
theorem Owned.idling {l : OutLink} (h : Owned l) {i : Nat} {t : WaitStatus}
    (hx : l.timers[i]? = some t) :
    l.writeProcessing = true ∧ l.timers = [t] ∧ l.timers.eraseIdx i = [] ∧ l.writes = [] := by
  have hlen := h.writes
  have hle := Bool.toNat_le l.writeProcessing
  obtain ⟨hone, herase⟩ := eraseIdx_eq_nil (by omega) hx
  rw [hone, List.length_singleton] at hlen
  refine ⟨?_, hone, herase, List.eq_nil_of_length_eq_zero (by omega)⟩
  cases hb : l.writeProcessing with
  | true => rfl
  | false => simp [hb] at hlen

/-- A write loop that has ended has nothing in flight. -/
theorem Owned.write_ended {l : OutLink} (h : Owned l) (hp : l.writeProcessing = false) :
    l.writes = [] ∧ l.timers = [] := by
  have hsum := h.writes
  rw [hp, Bool.toNat_false] at hsum
  constructor <;> apply List.eq_nil_of_length_eq_zero <;> omega

/-- **A read has completed.** -/
theorem owned_readHandler {l : OutLink} (h : Owned l) {i : Nat} {r : ReadResult}
    (hx : l.reads[i]? = some (some r)) :
    ({ l with reads := l.reads.eraseIdx i }.requestReadProcessing r).1.Owned := by
  obtain ⟨hrp, _, herase⟩ := h.reading hx
  obtain ⟨hc, hci⟩ := h.online (Or.inl hrp)
  obtain ⟨hres, hcon⟩ := h.not_setup hc
  rw [herase]
  obtain ⟨fails, heq⟩ := ({ l with reads := [] } : OutLink).assertThat_eq .requestReadProcessing
    (r.data = [] ∨ l.hoster.isSome)
  unfold requestReadProcessing
  simp only [heq]
  split
  · exact {
      reads := by simp [checkReadyClose, cancelReadWrite, cancelSocket, cancelTimer]
      setup := h.setup
      offline := fun hoff => absurd (hc.symm.trans hoff) (by simp)
      unposted := fun hpos => absurd hpos (by
        simp [checkReadyClose, cancelReadWrite, cancelSocket, cancelTimer, hres, hcon])
      named := h.named
      closed := fun hinv => absurd (hci.symm.trans hinv) (by simp)
      counted := h.counted
      pending := fun _ _ _ _ => Nat.succ_pos _
      aborted := fun _ _ => rfl
      writes := by
        simpa [checkReadyClose, cancelReadWrite, cancelSocket, cancelTimer] using h.writes
      buffer := buffer_cancelSocket h.buffer }
  · rw [requestRead_eq (by exact hrp)]
    exact {
      reads := by simp [hrp]
      setup := h.setup
      offline := h.offline
      unposted := h.unposted
      named := h.named
      closed := h.closed
      counted := h.counted
      pending := h.pending
      aborted := h.aborted
      writes := h.writes
      buffer := h.buffer }

/-- **The ways a write completion can end**: the loop stops, or the bytes
written are dropped from the buffer and `RequestWrite` runs. -/
theorem requestWriteProcessing_cases (l : OutLink) (r : WriteResult) (hp : l.writeProcessing = true)
    (hle : r.transferred ≤ l.networkWriteBuffer.length) :
    ((r.error = true ∨ r.transferred = 0) ∧ l.requestWriteProcessing r =
      ({ l with writeProcessing := false } : OutLink).cancelSocket.checkReadyClose) ∨
    (r.error = false ∧ 0 < r.transferred ∧ l.requestWriteProcessing r =
      ({ l with networkWriteBuffer := l.networkWriteBuffer.drop r.transferred } :
        OutLink).requestWrite) := by
  have hover : ¬ r.transferred > l.networkWriteBuffer.length := by omega
  unfold requestWriteProcessing
  cases herr : r.error with
  | true =>
      refine Or.inl ⟨Or.inl rfl, ?_⟩
      by_cases hzero : r.transferred = 0
      · simp [hzero]
      · simp [hzero, hover]
  | false =>
      by_cases hzero : r.transferred = 0
      · exact Or.inl ⟨Or.inr hzero, by simp [hzero]⟩
      · exact Or.inr ⟨rfl, Nat.pos_of_ne_zero hzero, by simp [hzero, hover, hp]⟩

/-- **A write has completed.** -/
theorem owned_writeHandler {l : OutLink} (h : Owned l) {i size : Nat} {r : WriteResult}
    (hx : l.writes[i]? = some ⟨size, some r⟩) :
    ({ l with writes := l.writes.eraseIdx i }.requestWriteProcessing r).Owned := by
  obtain ⟨hwp, hone, herase, ht⟩ := h.writing hx
  obtain ⟨hc, hci⟩ := h.online (Or.inr hwp)
  obtain ⟨hres, hcon⟩ := h.not_setup hc
  obtain ⟨hsize, _, hle⟩ := h.buffer ⟨size, some r⟩ (by simp [hone])
  have hfit : r.transferred ≤ l.networkWriteBuffer.length := hsize ▸ hle r rfl
  rw [herase]
  rcases requestWriteProcessing_cases { l with writes := [] } r hwp hfit with
    ⟨_, heq⟩ | ⟨_, _, heq⟩
  · rw [heq]
    exact {
      reads := by simpa [checkReadyClose, cancelSocket] using h.reads
      setup := h.setup
      offline := fun hoff => absurd (hc.symm.trans hoff) (by simp)
      unposted := fun hpos => absurd hpos (by simp [checkReadyClose, cancelSocket, hres, hcon])
      named := h.named
      closed := fun hinv => absurd (hci.symm.trans hinv) (by simp)
      counted := h.counted
      pending := fun _ _ _ _ => Nat.succ_pos _
      aborted := h.aborted
      writes := by simp [checkReadyClose, cancelSocket, ht]
      buffer := by simp [checkReadyClose, cancelSocket] }
  · rw [heq]
    refine owned_requestWrite ?_ rfl ht hwp hc
    exact ⟨h.reads, h.setup, h.offline, h.unposted, h.named, h.closed, h.counted, h.pending,
      h.aborted⟩

/-- **The idle wait is over.** -/
theorem owned_timerHandler {l : OutLink} (h : Owned l) {i : Nat} {t : WaitStatus}
    (hx : l.timers[i]? = some t) :
    ({ l with timers := l.timers.eraseIdx i } : OutLink).requestWrite.Owned := by
  obtain ⟨hwp, _, herase, hw⟩ := h.idling hx
  obtain ⟨hc, _⟩ := h.online (Or.inr hwp)
  rw [herase]
  refine owned_requestWrite ?_ hw rfl hwp hc
  exact ⟨h.reads, h.setup, h.offline, h.unposted, h.named, h.closed, h.counted, h.pending,
    h.aborted⟩

/-- **What the closing check does**: it closes the link if both loops have
ended and it has not been closed before, and nothing otherwise. -/
theorem checkReadyCloseProcessing_cases (l : OutLink) :
    (l.readProcessing = false ∧ l.writeProcessing = false ∧ l.closeInvoked = false ∧
      l.checkReadyCloseProcessing =
        ({ l.cancelSocket with
            closeInvoked := true
            socketOpen := false
            closeCalls := l.closeCalls + 1 }, l.hoster.map .closeConnect)) ∨
    ((l.readProcessing = false → l.writeProcessing = false → l.closeInvoked = true) ∧
      l.checkReadyCloseProcessing = (l, none)) := by
  unfold checkReadyCloseProcessing
  cases l.readProcessing <;> cases l.writeProcessing <;> cases l.closeInvoked <;> simp

/-- A check that finds both loops ended closes the link, once. -/
theorem owned_closeCheck {l : OutLink} (h : Owned l) (hpos : l.posts ≠ 0) :
    ({ l with posts := l.posts - 1 } : OutLink).checkReadyCloseProcessing.1.Owned := by
  have hsetup : ¬ 0 < l.resolves.length + l.connects.length := fun hp => hpos (h.unposted hp).1
  rcases checkReadyCloseProcessing_cases { l with posts := l.posts - 1 } with
    ⟨hrp, hwp, hci, heq⟩ | ⟨hbusy, heq⟩
  · rw [heq]
    exact {
      reads := by simpa [cancelSocket] using h.reads
      setup := h.setup
      offline := fun _ => ⟨hrp, hwp⟩
      unposted := fun hp => absurd hp hsetup
      named := h.named
      closed := fun _ => ⟨hrp, hwp⟩
      counted := by simpa [cancelSocket, h.counted] using hci
      pending := fun _ _ _ hinv => absurd hinv (by simp)
      aborted := h.aborted
      writes := by simpa [cancelSocket] using h.writes
      buffer := buffer_cancelSocket h.buffer }
  · rw [heq]
    exact ⟨⟨h.reads, h.setup, h.offline, fun hp => absurd hp hsetup, h.named, h.closed,
      h.counted, fun _ hr hw hinv => absurd ((hbusy hr hw).symm.trans hinv) (by simp),
      h.aborted⟩, h.writes, h.buffer⟩

/-- A cancelled wait is still one operation in flight. -/
theorem owned_cancelTimer {l : OutLink} (h : Owned l) : l.cancelTimer.Owned :=
  ⟨⟨h.reads, h.setup, h.offline, h.unposted, h.named, h.closed, h.counted, h.pending, h.aborted⟩,
    by simpa [cancelTimer] using h.writes, h.buffer⟩

/-- The loops do not see what happens in the chunk map. -/
theorem owned_chunks {l : OutLink} (h : Owned l) (chunks : SortedMap UInt32 Bytes)
    (stop : UInt32) (all : Bool) (fails : List AssertSite) :
    Owned { l with
      writeChunks := chunks
      stopWriteChunkId := stop
      stopAfterAllWrite := all
      failedAsserts := fails } :=
  ⟨⟨h.reads, h.setup, h.offline, h.unposted, h.named, h.closed, h.counted, h.pending, h.aborted⟩,
    h.writes, h.buffer⟩

/-- `SendData` starts nothing. -/
theorem owned_sendData {l : OutLink} (h : Owned l) (chunkId : UInt32) (data : Bytes) :
    (l.sendData chunkId data).Owned := by
  unfold sendData
  split
  · exact h
  · split
    · exact owned_chunks h _ _ _ _
    · split
      · exact h
      · split
        · exact owned_chunks h _ _ _ _
        · exact owned_cancelTimer (owned_chunks h _ _ _ _)

/-- `Stop` starts nothing. -/
theorem owned_stop {l : OutLink} (h : Owned l) (stopChunk : UInt32) :
    (l.stop stopChunk).Owned := by
  unfold stop
  split
  · exact owned_cancelTimer (owned_chunks h _ _ _ _)
  · obtain ⟨fails, heq⟩ := l.assertThat_eq .stop (l.nextWriteChunkId < stopChunk)
    simp only [heq]
    exact owned_chunks h _ _ _ _

/-- **Every asio event keeps the discipline.** -/
theorem owned_asioStep {l l' : OutLink} {e : AsioEvent} {call : Option HosterCall}
    (h : Owned l) (hstep : l.asioStep e = some (l', call)) : l'.Owned := by
  cases asioStep_outcome hstep with
  | resolved hx => exact owned_resolved h hx _
  | connected hx => exact owned_connected h hx _
  | readDone hx hle =>
      exact ⟨⟨by simpa using h.reads, h.setup, h.offline, h.unposted, h.named, h.closed,
        h.counted, h.pending, h.aborted⟩, h.writes, h.buffer⟩
  | readHandler hx heq =>
      have howned := owned_readHandler h hx
      rwa [heq] at howned
  | @writeDone i size r hx hle =>
      obtain ⟨_, hone, _, _⟩ := h.writing hx
      obtain ⟨hsize, hpos, _⟩ := h.buffer ⟨size, none⟩ (by simp [hone])
      refine ⟨⟨h.reads, h.setup, h.offline, h.unposted, h.named, h.closed, h.counted,
        h.pending, h.aborted⟩, by simpa using h.writes, ?_⟩
      intro w hw
      rcases List.mem_or_eq_of_mem_set hw with hw | rfl
      · exact h.buffer w hw
      · refine ⟨hsize, hpos, ?_⟩
        intro r' hr'
        exact Option.some.inj hr' ▸ hle
  | writeHandler hx => exact owned_writeHandler h hx
  | timerExpire hx =>
      exact ⟨⟨h.reads, h.setup, h.offline, h.unposted, h.named, h.closed, h.counted, h.pending,
        h.aborted⟩, by simpa using h.writes, h.buffer⟩
  | timerHandler hx _ => exact owned_timerHandler h hx
  | closeCheck hpos heq =>
      have howned := owned_closeCheck h hpos
      rwa [heq] at howned

/-- **Every event keeps the loops in order.** -/
theorem owned_step {l l' : OutLink} {e : LinkEvent} (h : Owned l)
    (hstep : l.step e = some l') : l'.Owned := by
  cases e with
  | asio e =>
      obtain ⟨⟨m, call⟩, hm, rfl⟩ := Option.map_eq_some_iff.mp hstep
      exact owned_asioStep h hm
  | sendData chunkId data => exact Option.some.inj hstep ▸ owned_sendData h chunkId data
  | stop stopChunk => exact Option.some.inj hstep ▸ owned_stop h stopChunk

/-- **`Run` starts the discipline**, for an accepted socket and for an address. -/
theorem owned_fresh {l : OutLink} (h : Fresh l) : l.Owned := by
  obtain ⟨cnt, rfl | ⟨address, port, rfl⟩⟩ := h
  · refine owned_startLoops (l := { createAccepted with hoster := some cnt })
      ?_ rfl rfl rfl rfl rfl rfl
    constructor <;> simp [createAccepted]
  · constructor
    · constructor <;> simp [run, createAddress]
    · simp [run, createAddress]
    · simp [run, createAddress]

end OutLink
