import ByteStacker.LockOrder

/-!
# The locks of the trunk and of the links

The handlers run in several threads, and what they share stands behind five kinds of locks:
`out_links_lock_`, `packet_data_cache_lock_` and `connect_cache_lock_` of a trunk side,
`clients_link_lock_` of the server, and `write_chunks_lock_` of each link, the only recursive
one.  For every function of the source this file has what it does to them: where it takes
and gives back a lock, where it touches what the lock guards, and what it calls meanwhile.
All else the code decides on is left open.

The order is simple.  A thread takes one lock of the trunk side at a time, and under it the
lock of a link or of `clients_link_`; a link calls the trunk with no lock held.  This is why
`CheckReadyClose` posts its work instead of doing it: it is called under `write_chunks_lock_`,
and sometimes under `out_links_lock_`, which `CloseConnect` would take.
-/

/-- The locks of one side of the trunk; links are numbered. -/
inductive Lock
  | outLinks
  | packetDataCache
  | connectCache
  | clientsLink
  | writeChunks (k : Nat)
  deriving DecidableEq

def lockOrder : LockOrder Lock where
  rank
    | .outLinks | .packetDataCache | .connectCache => 0
    | .clientsLink | .writeChunks _ => 1
  recursive
    | .writeChunks _ => true
    | _ => false

abbrev Locking := LockProgram Lock

namespace Locking

open LockProgram

/-! ## The link, as far as it does not call the trunk -/

def fillNetworkBuffer (k : Nat) : Locking :=
  .hold (.writeChunks k) (block [.touch (.writeChunks k), .loop (.touch (.writeChunks k))])

def cancelReadWrite (k : Nat) : Locking := .hold (.writeChunks k) (.touch (.writeChunks k))

/-- The read is only asked for. -/
def requestRead : Locking := .skip

/-- The connection is only asked for. -/
def requestConnect : Locking := .skip

/-- `CheckReadyCloseProcessing` is only posted. -/
def checkReadyClose : Locking := .skip

/-- The lock is held up to the `unlock` before the bytes are written. -/
def requestWrite (k : Nat) : Locking :=
  .hold (.writeChunks k) (block
    [.touch (.writeChunks k),
     .either (block [cancelReadWrite k, checkReadyClose])
      (block
        [fillNetworkBuffer k,
         .either .skip (block
          [.touch (.writeChunks k),
           .either (block [cancelReadWrite k, checkReadyClose]) .skip])])])

def requestWriteProcessing (k : Nat) : Locking := .either checkReadyClose (requestWrite k)

def requestConnectProcessing (k : Nat) : Locking :=
  .either requestConnect (block [requestRead, requestWrite k])

def resolverProcessing : Locking := .either checkReadyClose requestConnect

def run (k : Nat) : Locking := .either (block [requestRead, requestWrite k]) .skip

/-- `OutLink::SendData`. -/
def outLinkSendData (k : Nat) : Locking := .hold (.writeChunks k) (.touch (.writeChunks k))

def stop (k : Nat) : Locking :=
  .hold (.writeChunks k) (block [.touch (.writeChunks k), .loop (.touch (.writeChunks k))])

/-! ## The trunk -/

def getClientLink : Locking := .hold .clientsLink (.loop (.touch .clientsLink))

def addClientLink : Locking :=
  .hold .clientsLink (block [.loop (.touch .clientsLink), .touch .clientsLink])

/-- The server looks up where to send; the client just sends. -/
def sendPacket (server : Bool) : Locking := if server then getClientLink else .skip

def getNextPacketIndex : Locking := .hold .outLinks (.loop (.touch .outLinks))

/-- The packet is cached with the lock held and sent without. -/
def sendCmdData (server : Bool) : Locking :=
  .either .skip (block
    [getNextPacketIndex,
     .either .skip (block
      [.hold .packetDataCache (.touch .packetDataCache), sendPacket server])])

/-- `TrunkLink::SendData`. -/
def sendData (server : Bool) : Locking := sendCmdData server

def sendDisconnectInformation (server : Bool) : Locking := sendCmdData server

def removeOutLink : Locking := .hold .outLinks (.touch .outLinks)

def closeConnect (server : Bool) : Locking :=
  block [sendDisconnectInformation server, removeOutLink]

def getStat : Locking := .hold .outLinks (.touch .outLinks)

/-- To be called with the lock held. -/
def getOutLinkWOLock : Locking := .loop (.touch .outLinks)

def getOutLink : Locking := .hold .outLinks getOutLinkWOLock

/-- To be called with the lock held. -/
def intAddOutLinkWOLock : Locking := block [.touch .outLinks, .any run]

/-- A link that was silent for too long is stopped, the others get their live packet, all with
the lock held. -/
def sendLivePacket (server : Bool) : Locking :=
  .either .skip (.hold .outLinks (.loop (block
    [.touch .outLinks, .either (.any stop) (sendPacket server)])))

def trunkLinkOnCacheResend (server : Bool) : Locking :=
  .hold .packetDataCache (block
    [.touch .packetDataCache,
     .loop (block [.touch .packetDataCache, .either .skip (sendPacket server)])])

/-- `OnCacheResend`, which the client extends by its own cache. -/
def onCacheResend (server : Bool) : Locking :=
  if server then trunkLinkOnCacheResend true
  else block
    [trunkLinkOnCacheResend false,
     .hold .connectCache (block
      [.touch .connectCache,
       .loop (block [.touch .connectCache, .either .skip (sendPacket false)])])]

def processDataToOutlink (server : Bool) : Locking :=
  block [getOutLink, .either .skip (block [sendPacket server, .any outLinkSendData])]

def processAckData : Locking := .skip

def processReleaseConnect : Locking := block [getOutLink, .either .skip (.any stop)]

def processLive : Locking := .hold .outLinks (.loop (.touch .outLinks))

/-- The server's handler; the client has none.  The fabric takes no lock. -/
def processConnectData (server : Bool) : Locking :=
  if server then block
    [sendPacket true,
     .hold .outLinks (block [getOutLinkWOLock, .either .skip intAddOutLinkWOLock])]
  else .skip

/-- The client's handler; the server has none. -/
def processAckConnectData (server : Bool) : Locking :=
  if server then .skip else .hold .connectCache (.loop (.touch .connectCache))

def processTrunkData (server : Bool) : Locking :=
  choice
    [processConnectData server, processAckConnectData server, processDataToOutlink server,
     processAckData, processReleaseConnect, processLive]

/-- The handler of a datagram from the trunk. -/
def receiveTrunkData (server : Bool) : Locking :=
  if server then .either .skip (block [addClientLink, processTrunkData true])
  else .either .skip (processTrunkData false)

/-- The handler of the update timer. -/
def updateProcessing (server : Bool) : Locking :=
  .either .skip (block [sendLivePacket server, onCacheResend server])

def sendConnectInformation : Locking :=
  block [.hold .connectCache (.touch .connectCache), sendPacket false]

/-- The packet is sent after the `unlock`. -/
def addConnect : Locking :=
  .either (.hold .outLinks getOutLinkWOLock)
    (block
      [.hold .outLinks (block [getOutLinkWOLock, intAddOutLinkWOLock]), sendConnectInformation])

/-! ## The link's calls of the trunk -/

def requestReadProcessing (server : Bool) (k : Nat) : Locking :=
  block
    [.either .skip (sendData server),
     .either (block [cancelReadWrite k, checkReadyClose]) requestRead]

def checkReadyCloseProcessing (server : Bool) : Locking := .either .skip (closeConnect server)

/-! ## Threads -/

/-- What a thread of this side may run: the handlers asio calls, the accept loop's
`AddConnect` on the client, and `GetStat` on the server. -/
inductive Handler : Bool → Locking → Prop
  | update (server : Bool) : Handler server (updateProcessing server)
  | received (server : Bool) : Handler server (receiveTrunkData server)
  | resolved (server : Bool) : Handler server resolverProcessing
  | connected (server : Bool) (k : Nat) : Handler server (requestConnectProcessing k)
  | readSome (server : Bool) (k : Nat) : Handler server (requestReadProcessing server k)
  | writeIdle (server : Bool) (k : Nat) : Handler server (requestWrite k)
  | writtenSome (server : Bool) (k : Nat) : Handler server (requestWriteProcessing k)
  | readyClose (server : Bool) : Handler server (checkReadyCloseProcessing server)
  | accepted : Handler false addConnect
  | statistics : Handler true getStat

open LockOrder

variable {held : List Lock} {k : Nat} {server : Bool}

/-- Filling the buffer asks for the lock of the chunks, which its caller may hold already. -/
theorem respects_fillNetworkBuffer (h : lockOrder.Admits held (.writeChunks k)) :
    lockOrder.Respects (fillNetworkBuffer k) held := by
  simp [fillNetworkBuffer, Respects, respects_block, h]

/-- So does a cancel. -/
theorem respects_cancelReadWrite (h : lockOrder.Admits held (.writeChunks k)) :
    lockOrder.Respects (cancelReadWrite k) held := by
  simp [cancelReadWrite, Respects, h]

/-- Under the lock of the link only this lock is taken, again. -/
theorem respects_requestWrite (h : lockOrder.Admits held (.writeChunks k)) :
    lockOrder.Respects (requestWrite k) held := by
  have hagain : lockOrder.Admits (.writeChunks k :: held) (.writeChunks k) := admits_again rfl
  have hfill := respects_fillNetworkBuffer hagain
  have hcancel := respects_cancelReadWrite hagain
  simp [requestWrite, checkReadyClose, Respects, respects_block, h, hfill, hcancel]

/-- And a stop, which may come with the registrations locked. -/
theorem respects_stop (h : lockOrder.Admits held (.writeChunks k)) :
    lockOrder.Respects (stop k) held := by
  simp [stop, Respects, respects_block, h]

/-- A packet may be sent with any lock held that comes before the client links. -/
theorem respects_sendPacket (h : lockOrder.Admits held .clientsLink) :
    lockOrder.Respects (sendPacket server) held := by
  cases server with
  | false => trivial
  | true => exact ⟨h, List.mem_cons_self⟩

/-- Under a lock of the trunk side the ones of a link and of the clients are admitted. -/
theorem admits_under {l m : Lock} (hl : lockOrder.rank l = 0) (hm : lockOrder.rank m = 1) :
    lockOrder.Admits [l] m :=
  admits_above (by omega) fun _ h => absurd h List.not_mem_nil

/-- The registrations and the cache are locked one after the other. -/
theorem respects_sendCmdData : lockOrder.Respects (sendCmdData server) [] := by
  have hsend : lockOrder.Respects (sendPacket server) [] := respects_sendPacket (admits_nil _)
  simp [sendCmdData, getNextPacketIndex, Respects, respects_block, admits_nil, hsend]

/-- So they are when a connection is closed. -/
theorem respects_closeConnect : lockOrder.Respects (closeConnect server) [] := by
  have hsend : lockOrder.Respects (sendCmdData server) [] := respects_sendCmdData
  simp [closeConnect, sendDisconnectInformation, removeOutLink, Respects, respects_block,
    admits_nil, hsend]

/-- A link is registered and started under the lock of the registrations. -/
theorem respects_intAddOutLinkWOLock : lockOrder.Respects intAddOutLinkWOLock [.outLinks] := by
  have hwrite : ∀ k, lockOrder.Respects (requestWrite k) [.outLinks] :=
    fun k => respects_requestWrite (admits_under rfl rfl)
  simp [intAddOutLinkWOLock, run, requestRead, Respects, respects_block, hwrite]

/-- Links are stopped and packets sent while the registrations are locked. -/
theorem respects_sendLivePacket : lockOrder.Respects (sendLivePacket server) [] := by
  have hstop : ∀ k, lockOrder.Respects (stop k) [.outLinks] :=
    fun k => respects_stop (admits_under rfl rfl)
  have hsend : lockOrder.Respects (sendPacket server) [.outLinks] :=
    respects_sendPacket (admits_under rfl rfl)
  simp [sendLivePacket, Respects, respects_block, admits_nil, hstop, hsend]

/-- Packets are sent while the cache is locked. -/
theorem respects_trunkLinkOnCacheResend :
    lockOrder.Respects (trunkLinkOnCacheResend server) [] := by
  have hsend : lockOrder.Respects (sendPacket server) [.packetDataCache] :=
    respects_sendPacket (admits_under rfl rfl)
  simp [trunkLinkOnCacheResend, Respects, respects_block, admits_nil, hsend]

/-- The client's cache is locked after the one of the common part is given back. -/
theorem respects_onCacheResend : lockOrder.Respects (onCacheResend server) [] := by
  cases server with
  | true => exact respects_trunkLinkOnCacheResend
  | false =>
      have htrunk : lockOrder.Respects (trunkLinkOnCacheResend false) [] :=
        respects_trunkLinkOnCacheResend
      have hsend : lockOrder.Respects (sendPacket false) [.connectCache] :=
        respects_sendPacket (admits_under rfl rfl)
      simp [onCacheResend, Respects, respects_block, admits_nil, htrunk, hsend]

/-- The new link runs while the registrations are locked. -/
theorem respects_processConnectData : lockOrder.Respects (processConnectData server) [] := by
  cases server with
  | false => trivial
  | true =>
      have hsend : lockOrder.Respects (sendPacket true) [] :=
        respects_sendPacket (admits_nil _)
      have hadd := respects_intAddOutLinkWOLock
      simp [processConnectData, getOutLinkWOLock, Respects, respects_block, admits_nil, hsend,
        hadd]

/-- **Every handler of a trunk packet keeps to the order.** -/
theorem respects_processTrunkData : lockOrder.Respects (processTrunkData server) [] := by
  have hconnect : lockOrder.Respects (processConnectData server) [] :=
    respects_processConnectData
  have hack : lockOrder.Respects (processAckConnectData server) [] := by
    cases server with
    | false => exact ⟨admits_nil _, List.mem_cons_self⟩
    | true => trivial
  have hsend : lockOrder.Respects (sendPacket server) [] := respects_sendPacket (admits_nil _)
  have hstop : ∀ k, lockOrder.Respects (stop k) [] := fun k => respects_stop (admits_nil _)
  simp [processTrunkData, processDataToOutlink, processAckData, processReleaseConnect,
    processLive, getOutLink, getOutLinkWOLock, outLinkSendData, Respects, respects_block,
    respects_choice, admits_nil, hconnect, hack, hsend, hstop]

/-- The route is written before the handler runs. -/
theorem respects_receiveTrunkData : lockOrder.Respects (receiveTrunkData server) [] := by
  have hprocess : lockOrder.Respects (processTrunkData server) [] := respects_processTrunkData
  cases server with
  | false => exact ⟨trivial, hprocess⟩
  | true =>
      simp [receiveTrunkData, addClientLink, Respects, respects_block, admits_nil, hprocess]

/-- The accepted link runs while the registrations are locked. -/
theorem respects_addConnect : lockOrder.Respects addConnect [] := by
  have hadd := respects_intAddOutLinkWOLock
  have hsend : lockOrder.Respects (sendPacket false) [] := respects_sendPacket (admits_nil _)
  simp [addConnect, getOutLinkWOLock, sendConnectInformation, Respects, respects_block,
    admits_nil, hadd, hsend]

/-- A block is handed on with no lock held, a read error takes the lock of the chunks. -/
theorem respects_requestReadProcessing :
    lockOrder.Respects (requestReadProcessing server k) [] := by
  have hsend : lockOrder.Respects (sendCmdData server) [] := respects_sendCmdData
  have hcancel := respects_cancelReadWrite (k := k) (admits_nil _)
  simp [requestReadProcessing, sendData, checkReadyClose, requestRead, Respects, respects_block,
    hsend, hcancel]

/-- **Every handler keeps to the order** and touches guarded data under its lock only. -/
theorem respects_handler {p : Locking} (hp : Handler server p) : lockOrder.Respects p [] := by
  have hwrite : ∀ k, lockOrder.Respects (requestWrite k) [] :=
    fun k => respects_requestWrite (admits_nil _)
  cases hp with
  | update => exact ⟨trivial, respects_sendLivePacket, respects_onCacheResend, trivial⟩
  | received => exact respects_receiveTrunkData
  | resolved => exact ⟨trivial, trivial⟩
  | connected _ k => exact ⟨trivial, trivial, hwrite k, trivial⟩
  | readSome => exact respects_requestReadProcessing
  | writeIdle _ k => exact hwrite k
  | writtenSome _ k => exact ⟨trivial, hwrite k⟩
  | readyClose => exact ⟨trivial, respects_closeConnect⟩
  | accepted => exact respects_addConnect
  | statistics => exact ⟨admits_nil _, List.mem_cons_self⟩

variable {ι : Type*} [Fintype ι] [DecidableEq ι] {s : Threads ι Lock}

/-- **The handlers never deadlock.**  Whatever the threads of a side have run and however
their actions were interleaved, they can all finish the handlers they are in. -/
theorem handlers_come_to_rest (hreach : Threads.Reach lockOrder (Handler server) s) :
    ∃ (acts : List ι) (s' : Threads ι Lock),
      Transition.run (Threads.step lockOrder) s (acts.map .act) = some s' ∧
        ∀ i, s'.rest i = [] :=
  Threads.comes_to_rest (fun _ hp => respects_handler hp) hreach

/-- **One thread at a time.**  Two threads are never about to touch what the same lock
guards: the registrations, a cache, the client links, or the chunks of a link. -/
theorem handlers_exclude (hreach : Threads.Reach lockOrder (Handler server) s) {i j : ι}
    {l : Lock} {xs ys : List (LockAction Lock)} (hi : s.rest i = .touch l :: xs)
    (hj : s.rest j = .touch l :: ys) : i = j :=
  Threads.guarded (fun _ hp => respects_handler hp) hreach hi hj

/-! ### A statistics call while a live packet waits -/

/-- The one run of `GetStat`. -/
theorem runs_getStat :
    Runs getStat [.acquire .outLinks, .touch .outLinks, .release .outLinks] := by
  have hbody := Runs.touch Lock.outLinks
  have hhold := Runs.hold (l := Lock.outLinks) hbody
  exact hhold

/-- A live packet for the one registered link. -/
theorem runs_receiveLive :
    Runs (receiveTrunkData true)
      [.acquire .clientsLink, .touch .clientsLink, .touch .clientsLink, .release .clientsLink,
       .acquire .outLinks, .touch .outLinks, .release .outLinks] := by
  have hfound := Runs.turn (Runs.touch Lock.clientsLink) .done
  have hclient := Runs.hold (l := Lock.clientsLink)
    (.seq hfound (.seq (.touch Lock.clientsLink) .skip))
  have hlive := Runs.hold (l := Lock.outLinks) (.turn (Runs.touch Lock.outLinks) .done)
  have hprocess : Runs (processTrunkData true) _ :=
    .right (.right (.right (.right (.right (.left hlive)))))
  have hboth : Runs (block [addClientLink, processTrunkData true]) _ :=
    .seq hclient (.seq hprocess .skip)
  exact .right hboth

/-- Thread 0 is in `GetStat` and has the lock of the registrations, which thread 1 wants. -/
def statAndLive : List (ThreadEvent (Fin 2) Lock) :=
  [.start 0 [.acquire .outLinks, .touch .outLinks, .release .outLinks], .act 0,
   .start 1
    [.acquire .clientsLink, .touch .clientsLink, .touch .clientsLink, .release .clientsLink,
     .acquire .outLinks, .touch .outLinks, .release .outLinks],
   .act 1, .act 1, .act 1, .act 1]

/-- Both threads run handlers of the server. -/
theorem statAndLive_starts : ∀ e ∈ statAndLive, Threads.Starts (Handler true) e := by
  simp only [statAndLive, List.forall_mem_cons, List.not_mem_nil, false_implies, implies_true,
    and_true]
  exact ⟨⟨getStat, .statistics, runs_getStat⟩, trivial,
    ⟨receiveTrunkData true, .received true, runs_receiveLive⟩, trivial, trivial, trivial, trivial⟩

theorem handlers_come_to_rest_stat :
    ∃ s, Transition.run (Threads.step lockOrder) ({} : Threads (Fin 2) Lock) statAndLive = some s ∧
      s.step lockOrder (.act 1) = none ∧
      ∃ (acts : List (Fin 2)) (s' : Threads (Fin 2) Lock),
        Transition.run (Threads.step lockOrder) s (acts.map .act) = some s' ∧
          ∀ i, s'.rest i = [] := by
  obtain ⟨s, hrun⟩ : ∃ s, Transition.run (Threads.step lockOrder)
      ({} : Threads (Fin 2) Lock) statAndLive = some s := ⟨_, rfl⟩
  have hwait : s.step lockOrder (.act 1) = none := by
    cases hrun
    rfl
  have hreach : Threads.Reach lockOrder (Handler true) s :=
    .of_run (.start rfl) (Transition.always_of_mem statAndLive_starts) hrun
  exact ⟨s, hrun, hwait, handlers_come_to_rest hreach⟩

theorem handlers_exclude_stat :
    ∃ s, Transition.run (Threads.step lockOrder) ({} : Threads (Fin 2) Lock) statAndLive = some s ∧
      s.rest 0 = [.touch .outLinks, .release .outLinks] ∧
      ∀ i ys, s.rest i = .touch .outLinks :: ys → 0 = i := by
  obtain ⟨s, hrun⟩ : ∃ s, Transition.run (Threads.step lockOrder)
      ({} : Threads (Fin 2) Lock) statAndLive = some s := ⟨_, rfl⟩
  have htouch : s.rest 0 = [.touch .outLinks, .release .outLinks] := by
    cases hrun
    rfl
  have hreach : Threads.Reach lockOrder (Handler true) s :=
    .of_run (.start rfl) (Transition.always_of_mem statAndLive_starts) hrun
  exact ⟨s, hrun, htouch, fun i ys hi => handlers_exclude hreach htouch hi⟩

end Locking
