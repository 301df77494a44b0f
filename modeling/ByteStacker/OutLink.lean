import ByteStacker.Data
import ByteStacker.SortedMap
import ByteStacker.Transition

/-!
# The external TCP connection (`common/outlink.cpp`)

An `OutLink` joins one TCP socket to the trunk.  Its two loops, reading and
writing, are chains of asio completions: a `Request…` function starts one
operation, the paired `…Processing` function is its completion handler and
usually calls the `Request…` function again.

The asio side of the model is the list of operations in flight.  A read, a
write or a timer wait first completes (`readDone`, `writeDone`,
`timerExpire`), which fixes its result, and later its handler runs
(`readHandler`, …).  `cancel` gives the result `operation_aborted` to the
operations that have not completed yet and leaves the completed ones alone.
Nothing in the model limits how many operations of one kind are in flight.

Handlers are atomic.  The fields under "history" are not in the source: they
record what was read, written, drained, closed and which assertions failed.
-/

/-- The assertions of `outlink.cpp` that depend on the state. -/
inductive AssertSite
  | fillNetworkBuffer
  | requestRead
  | requestReadProcessing
  | requestWrite
  | requestWriteProcessing
  | sendData
  | stop
  deriving DecidableEq

/-- Result of a completed `async_read_some`: the error flag and the bytes
`read_buffer_` received. -/
structure ReadResult where
  error : Bool
  data : Bytes
  deriving DecidableEq

/-- Result of a completed `async_write_some`. -/
structure WriteResult where
  error : Bool
  transferred : Nat
  deriving DecidableEq

/-- An `async_write_some` in flight over the first `size` bytes of
`network_write_buffer_`. -/
structure WriteOp where
  size : Nat
  result : Option WriteResult
  deriving DecidableEq

/-- An `async_wait` of `write_idle_timer_` in flight. -/
inductive WaitStatus
  | waiting
  | expired
  | cancelled
  deriving DecidableEq

/-- What a handler calls on its hoster, the `TrunkLink`. -/
inductive HosterCall
  | sendData (cnt : ConnectID) (data : Bytes)
  | closeConnect (cnt : ConnectID)
  deriving DecidableEq

/-- `class OutLink`. -/
structure OutLink where
  host : String := ""
  service : String := ""
  resolvedPoints : List Endpoint := []
  /-- `hoster_` and `selfid_`, which `Run` sets together. -/
  hoster : Option ConnectID := none
  readProcessing : Bool := false
  writeProcessing : Bool := false
  closeInvoked : Bool := false
  networkWriteBuffer : Bytes := []
  writeChunks : SortedMap UInt32 Bytes := .empty
  stopWriteChunkId : UInt32
  stopAfterAllWrite : Bool := false
  stopWriteImmediate : Bool := false
  nextWriteChunkId : UInt32 := 0
  -- asio
  socketOpen : Bool
  resolves : List (String × String) := []
  connects : List Endpoint := []
  reads : List (Option ReadResult) := []
  writes : List WriteOp := []
  timers : List WaitStatus := []
  posts : Nat := 0
  -- history
  connected : Bool := false
  started : Nat := 0
  readLog : Bytes := []
  written : Bytes := []
  appended : List (UInt32 × Bytes) := []
  closeCalls : Nat := 0
  failedAsserts : List AssertSite := []
  deriving DecidableEq

namespace OutLink

def kChunkSize : Nat := 800

/-- `static_cast<uint32_t>(-1)`. -/
def kUndefinedChunkID : UInt32 := 4294967295

/-- `OutLink(tcp::socket&&)`: the socket is connected already. -/
def createAccepted : OutLink where
  stopWriteChunkId := kUndefinedChunkID
  socketOpen := true

/-- `OutLink(io_context&, address, port)`. -/
def createAddress (address : String) (port : UInt16) : OutLink where
  host := address
  service := toString port.toNat
  stopWriteChunkId := kUndefinedChunkID
  socketOpen := false

/-- `assert(cond)`: a failure is recorded and the function goes on. -/
def assertThat (l : OutLink) (site : AssertSite) (cond : Bool) : OutLink :=
  if cond then l else { l with failedAsserts := l.failedAsserts ++ [site] }

/-! ## Filling the network buffer -/

/-- The stop test `FillNetworkBuffer` makes before and inside its loop. -/
def stopReached (l : OutLink) : Bool :=
  l.stopWriteChunkId ≠ kUndefinedChunkID ∧ l.stopWriteChunkId ≤ l.nextWriteChunkId

/-- All wanted data is in the buffer: whatever is still in the map is dropped. -/
def finishFill (l : OutLink) : OutLink :=
  { l with stopAfterAllWrite := true, writeChunks := .empty }

/-- Move the first chunk of the map to the end of the buffer. -/
def takeChunk (l : OutLink) (id : UInt32) (data : Bytes) : OutLink :=
  { l with
    nextWriteChunkId := l.nextWriteChunkId + 1
    networkWriteBuffer := l.networkWriteBuffer ++ data
    writeChunks := l.writeChunks.eraseBegin
    appended := l.appended ++ [(id, data)] }

/-- The `while` loop of `FillNetworkBuffer`; each turn takes one entry of the
map, so the number of its entries bounds the turns. -/
def fillLoop : Nat → OutLink → OutLink
  | 0, l => l
  | fuel + 1, l =>
    match l.writeChunks.entries with
    | [] => l
    | (id, data) :: _ =>
      let l := l.assertThat .fillNetworkBuffer (l.nextWriteChunkId ≤ id)
      if id ≠ l.nextWriteChunkId then l
      else
        let l := l.takeChunk id data
        if l.stopReached then l.finishFill else fillLoop fuel l

def fillNetworkBuffer (l : OutLink) : OutLink :=
  if l.stopReached then l.finishFill
  else fillLoop l.writeChunks.entries.length l

/-! ## Cancelling and closing -/

/-- `operation_aborted` for a read that has not completed. -/
def abortRead (r : Option ReadResult) : Option ReadResult :=
  some (r.getD ⟨true, []⟩)

def abortWrite (w : WriteOp) : WriteOp :=
  { w with result := some (w.result.getD ⟨true, 0⟩) }

def abortWait : WaitStatus → WaitStatus
  | .waiting => .cancelled
  | s => s

/-- `socket_.cancel()`.  A connect attempt fixes its result only when its
handler runs, so it needs no mark. -/
def cancelSocket (l : OutLink) : OutLink :=
  { l with reads := l.reads.map abortRead, writes := l.writes.map abortWrite }

/-- `write_idle_timer_.cancel()`. -/
def cancelTimer (l : OutLink) : OutLink :=
  { l with timers := l.timers.map abortWait }

def cancelReadWrite (l : OutLink) : OutLink :=
  { l.cancelSocket with stopWriteImmediate := true }.cancelTimer

/-- `boost::asio::post` of the closing check. -/
def checkReadyClose (l : OutLink) : OutLink :=
  { l with posts := l.posts + 1 }

def checkReadyCloseProcessing (l : OutLink) : OutLink × Option HosterCall :=
  if !l.readProcessing && !l.writeProcessing then
    if !l.closeInvoked then
      ({ l.cancelSocket with
          closeInvoked := true
          socketOpen := false
          closeCalls := l.closeCalls + 1 },
        l.hoster.map .closeConnect)
    else (l, none)
  else (l, none)

/-! ## Reading -/

def requestRead (l : OutLink) : OutLink :=
  let l := l.assertThat .requestRead l.readProcessing
  { l with reads := l.reads ++ [none], started := l.started + 1 }

def requestReadProcessing (l : OutLink) (r : ReadResult) : OutLink × Option HosterCall :=
  let call := if r.data = [] then none else l.hoster.map fun cnt => .sendData cnt r.data
  let l := l.assertThat .requestReadProcessing (r.data = [] ∨ l.hoster.isSome)
  let l := { l with readLog := l.readLog ++ r.data }
  if r.error then
    ({ l with readProcessing := false }.cancelReadWrite.checkReadyClose, call)
  else (l.requestRead, call)

/-! ## Writing -/

/-- The common end of the write loop. -/
def endWrite (l : OutLink) : OutLink :=
  { l.cancelReadWrite with writeProcessing := false }.checkReadyClose

/-- Nothing to write: `expires_after` (which cancels pending waits) and `async_wait`. -/
def waitIdle (l : OutLink) : OutLink :=
  { l.cancelTimer with
    timers := l.cancelTimer.timers ++ [.waiting]
    started := l.started + 1 }

def startWrite (l : OutLink) : OutLink :=
  { l with
    writes := l.writes ++ [⟨l.networkWriteBuffer.length, none⟩]
    started := l.started + 1 }

def requestWrite (l : OutLink) : OutLink :=
  let l := l.assertThat .requestWrite l.writeProcessing
  if l.stopWriteImmediate then l.endWrite
  else
    let l := l.fillNetworkBuffer
    if l.networkWriteBuffer = [] then
      if l.stopAfterAllWrite then l.endWrite else l.waitIdle
    else l.startWrite

def requestWriteProcessing (l : OutLink) (r : WriteResult) : OutLink :=
  let l := if r.error then { l with writeProcessing := false } else l
  let l := if r.transferred = 0 then { l with writeProcessing := false } else l
  let l :=
    if r.transferred > l.networkWriteBuffer.length then
      { l.assertThat .requestWriteProcessing false with writeProcessing := false }
    else l
  if !l.writeProcessing then l.cancelSocket.checkReadyClose
  else
    { l with networkWriteBuffer := l.networkWriteBuffer.drop r.transferred }.requestWrite

/-! ## Connecting -/

/-- Both loops start as soon as there is a connection. -/
def startLoops (l : OutLink) : OutLink :=
  let l := { l with readProcessing := true, connected := true }.requestRead
  { l with writeProcessing := true }.requestWrite

def requestConnect (l : OutLink) : OutLink :=
  match l.resolvedPoints with
  | [] => l
  | ep :: _ => { l with socketOpen := true, connects := l.connects ++ [ep] }

def requestConnectProcessing (l : OutLink) (error : Bool) : OutLink :=
  if error then { l with resolvedPoints := l.resolvedPoints.tail }.requestConnect
  else l.startLoops

/-- `none` is a resolver error. -/
def resolverProcessing (l : OutLink) (results : Option (List Endpoint)) : OutLink :=
  match results with
  | none => l.checkReadyClose
  | some points =>
    { l with resolvedPoints := l.resolvedPoints ++ points }.requestConnect

def run (l : OutLink) (cnt : ConnectID) : OutLink :=
  let l := { l with hoster := some cnt }
  if l.socketOpen then l.startLoops
  else { l with resolves := l.resolves ++ [(l.host, l.service)] }

/-! ## Calls of the hoster -/

def sendData (l : OutLink) (chunkId : UInt32) (data : Bytes) : OutLink :=
  if chunkId < l.nextWriteChunkId then l
  else if l.stopWriteChunkId ≠ kUndefinedChunkID ∧ l.stopWriteChunkId ≤ chunkId then
    l.assertThat .sendData false
  else if l.writeChunks.contains chunkId then l
  else
    let l' := { l with writeChunks := l.writeChunks.insert chunkId data }
    if chunkId ≠ l.nextWriteChunkId then l' else l'.cancelTimer

def stop (l : OutLink) (stopChunk : UInt32) : OutLink :=
  if stopChunk ≤ l.nextWriteChunkId then
    { l with
      stopWriteChunkId := l.nextWriteChunkId
      stopAfterAllWrite := true
      writeChunks := .empty }.cancelTimer
  else
    let l := l.assertThat .stop (l.nextWriteChunkId < stopChunk)
    { l with
      stopWriteChunkId := stopChunk
      writeChunks := l.writeChunks.filterKeys fun id => ¬ stopChunk ≤ id }

end OutLink

/-! ## Events -/

/-- What asio can do next with a link: complete an operation in flight or run
the handler of a completed one.  The number names the operation. -/
inductive AsioEvent
  | resolved (i : Nat) (results : Option (List Endpoint))
  | connected (i : Nat) (error : Bool)
  | readDone (i : Nat) (r : ReadResult)
  | readHandler (i : Nat)
  | writeDone (i : Nat) (r : WriteResult)
  | writeHandler (i : Nat)
  | timerExpire (i : Nat)
  | timerHandler (i : Nat)
  | closeCheck
  deriving DecidableEq

/-- An event of a link seen alone: asio, or a call of the trunk. -/
inductive LinkEvent
  | asio (e : AsioEvent)
  | sendData (chunkId : UInt32) (data : Bytes)
  | stop (stopChunk : UInt32)
  deriving DecidableEq

namespace OutLink

/-- One asio event, with the call it makes on the hoster.  asio never reports
more bytes than the operation's buffer holds. -/
def asioStep (l : OutLink) : AsioEvent → Option (OutLink × Option HosterCall)
  | .resolved i results =>
    match l.resolves[i]? with
    | some _ => some ({ l with resolves := l.resolves.eraseIdx i }.resolverProcessing results, none)
    | none => none
  | .connected i error =>
    match l.connects[i]? with
    | some _ =>
      some ({ l with connects := l.connects.eraseIdx i }.requestConnectProcessing error, none)
    | none => none
  | .readDone i r =>
    match l.reads[i]? with
    | some none =>
      if r.data.length ≤ kChunkSize then some ({ l with reads := l.reads.set i (some r) }, none)
      else none
    | _ => none
  | .readHandler i =>
    match l.reads[i]? with
    | some (some r) => some ({ l with reads := l.reads.eraseIdx i }.requestReadProcessing r)
    | _ => none
  | .writeDone i r =>
    match l.writes[i]? with
    | some ⟨size, none⟩ =>
      if r.transferred ≤ size then
        some ({ l with
          writes := l.writes.set i ⟨size, some r⟩
          written := l.written ++ l.networkWriteBuffer.take r.transferred }, none)
      else none
    | _ => none
  | .writeHandler i =>
    match l.writes[i]? with
    | some ⟨_, some r⟩ =>
      some ({ l with writes := l.writes.eraseIdx i }.requestWriteProcessing r, none)
    | _ => none
  | .timerExpire i =>
    match l.timers[i]? with
    | some .waiting => some ({ l with timers := l.timers.set i .expired }, none)
    | _ => none
  | .timerHandler i =>
    match l.timers[i]? with
    | some .waiting => none
    | some _ => some ({ l with timers := l.timers.eraseIdx i }.requestWrite, none)
    | none => none
  | .closeCheck =>
    if l.posts = 0 then none
    else some { l with posts := l.posts - 1 }.checkReadyCloseProcessing

/-- One event of a link seen alone. -/
def step (l : OutLink) : LinkEvent → Option OutLink
  | .asio e => (l.asioStep e).map Prod.fst
  | .sendData chunkId data => some (l.sendData chunkId data)
  | .stop stopChunk => some (l.stop stopChunk)

/-- A link right after the hoster called `Run`. -/
def Fresh (l : OutLink) : Prop :=
  ∃ cnt, l = createAccepted.run cnt ∨ ∃ address port, l = (createAddress address port).run cnt

end OutLink
