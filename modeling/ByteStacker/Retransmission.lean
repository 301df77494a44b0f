import ByteStacker.ResendQueue
import ByteStacker.SideRuns

/-!
# The retransmission schedule

The data cache of a trunk side and the connect cache of the client are resend
queues.  Their loops are written separately and compare the times differently:
the one repeats what has `curt > NextSend`, the other skips what has
`NextSend > curt`.

The jobs of a run are the packets it has cached, each with the ticks since then;
`noteData` and `noteConnects` enter them event by event, from the events and not
from the caches.  `retransmission_schedule` says that the caches hold exactly the
jobs that are still cached, in the order in which they came, and that what is
sent of data and of requests for a connection is what the schedule wants.
-/

open ByteFields

/-! ## Telling the packets apart -/

/-- The command of a datagram. -/
def commandAt (data : Bytes) : Option TrunkCommand := (wordAt data 16).bind TrunkCommand.ofCode

/-- A packet of `SendCmdData`. -/
def carriesData (data : Bytes) : Bool :=
  commandAt data = some .dataOut || commandAt data = some .dataIn ||
    commandAt data = some .releaseConnect

/-- A packet of `SendConnectInformation`. -/
def requestsConnect (data : Bytes) : Bool := commandAt data = some .createConnect

/-- The command stands behind the connection id. -/
theorem commandAt_packet (cnt : ConnectID) (cmd : TrunkCommand) (rest : Bytes) :
    commandAt (cnt.data ++ (le32 cmd.code ++ rest)) = some cmd := by
  rw [commandAt, wordAt_append cnt.data cmd.code rest cnt.size_eq.symm]
  exact TrunkCommand.ofCode_code cmd

/-- A data packet carries the command that it was made with. -/
theorem commandAt_dataPacket (cnt : ConnectID) (data : Bytes) (cmd : TrunkCommand)
    (pktIndex : UInt32) : commandAt (dataPacket cnt data cmd pktIndex).datagram = some cmd := by
  rw [datagram_dataPacket]
  exact commandAt_packet cnt cmd _

/-- An acknowledgement of data carries the command of its side. -/
theorem commandAt_ackDataPacket (serverSide : Bool) (cnt : ConnectID) (packetIndex : UInt32) :
    commandAt (ackDataPacket serverSide cnt packetIndex).datagram =
      some (if serverSide then .ackDataOut else .ackDataIn) := by
  have hpacket := commandAt_packet cnt (if serverSide then .ackDataOut else .ackDataIn) []
  rwa [List.append_nil, ← datagram_ackDataPacket serverSide cnt packetIndex] at hpacket

theorem commandAt_livePacket (cnt : ConnectID) :
    commandAt (livePacket cnt).datagram = some .live := by
  have hpacket := commandAt_packet cnt .live []
  rwa [List.append_nil, ← datagram_newPacket] at hpacket

theorem commandAt_connectPacket (cnt : ConnectID) (point : PointID) (timeout : UInt32) :
    commandAt (connectPacket cnt point timeout).datagram = some .createConnect := by
  rw [datagram_connectPacket]
  exact commandAt_packet cnt .createConnect _

/-- A chunk and a Release count as data packets. -/
theorem carriesData_call (serverSide : Bool) (pktIndex : UInt32) (call : HosterCall) :
    carriesData (call.packet serverSide pktIndex).datagram = true := by
  cases call with
  | sendData cnt data =>
      simp only [carriesData, HosterCall.packet, commandAt_dataPacket]
      cases serverSide <;> rfl
  | closeConnect cnt => simp [carriesData, HosterCall.packet, commandAt_dataPacket]

/-- What carries data requests no connection. -/
theorem requestsConnect_of_data {data : Bytes} (h : carriesData data = true) :
    requestsConnect data = false := by
  by_contra hcontra
  have hcmd : commandAt data = some .createConnect := by simpa [requestsConnect] using hcontra
  simp [carriesData, hcmd] at h

/-! ## The two queues -/

/-- The rule of `TrunkLink::OnCacheResend`. -/
def dataRule : ResendRule where
  period := milliseconds kResendTimeout
  lifetime := milliseconds kDeadlineTimeout
  late := fun nextSend curt => curt > nextSend
  not_early := fun _ _ h => Nat.le_of_lt (of_decide_eq_true h)

/-- The rule of `TrunkClient::OnCacheResend`. -/
def connectRule : ResendRule where
  period := milliseconds kResendTimeout
  lifetime := milliseconds kDeadlineTimeout
  late := fun nextSend curt => ¬ nextSend > curt
  not_early := fun _ _ h => Nat.not_lt.mp (of_decide_eq_true h)

def PacketDataCache.entry (item : PacketDataCache) : ResendEntry PacketInfo where
  info := item.info
  deadline := item.deadline
  nextSend := item.nextSend

def PacketConnectCache.entry (item : PacketConnectCache) : ResendEntry PacketInfo where
  info := item.info
  deadline := item.deadline
  nextSend := item.nextSend

/-- `TrunkLink::OnCacheResend` is a pass over its cache. -/
theorem TrunkLink.onCacheResend_pass (t : TrunkLink) (curt : Time) :
    dataRule.pass curt (t.packetDataCache.map PacketDataCache.entry) =
      ((t.onCacheResend curt).1.packetDataCache.map PacketDataCache.entry,
        (t.onCacheResend curt).2) := by
  refine dataRule.pass_map PacketDataCache.entry
    (g := fun item => if curt > item.nextSend then
      { item with nextSend := curt + milliseconds kResendTimeout } else item) ?_ _
  intro item
  by_cases hlate : curt > item.nextSend <;> simp [PacketDataCache.entry, dataRule, hlate]

/-- `TrunkClient::OnCacheResend` is a pass over its cache. -/
theorem TrunkClient.resendConnects_pass (c : TrunkClient) (curt : Time) :
    connectRule.pass curt (c.connectCache.map PacketConnectCache.entry) =
      ((c.resendConnects curt).1.connectCache.map PacketConnectCache.entry,
        ((c.connectCache.filter fun item => ¬ curt > item.deadline).filter fun item =>
          ¬ item.nextSend > curt).map PacketConnectCache.info) := by
  refine connectRule.pass_map PacketConnectCache.entry
    (g := fun item => if item.nextSend > curt then item
      else { item with nextSend := curt + milliseconds kResendTimeout }) ?_ _
  intro item
  by_cases hlate : item.nextSend > curt
  · simp [PacketConnectCache.entry, connectRule, hlate, Nat.not_le.mpr hlate]
  · simp [PacketConnectCache.entry, connectRule, hlate, Nat.not_lt.mp hlate]

/-! ## The data packets of a trunk side -/

namespace TrunkLink

variable {t t' : TrunkLink} {e : TrunkCall} {pkts : List PacketInfo}
  {js : List (Job PacketInfo)}

/-- The packets `SendCmdData` makes in an event. -/
def made (t : TrunkLink) (e : TrunkCall) : List PacketInfo :=
  match t.cmdCall e with
  | none => []
  | some _ => ((t.call e).map Prod.snd).getD []

/-- A tick is seen by every job; a packet that is made is a new job. -/
def noteData (t : TrunkLink) (e : TrunkCall) (js : List (Job PacketInfo)) :
    List (Job PacketInfo) :=
  (match e with
    | .op (.resend curt) => js.map (Job.tick dataRule curt)
    | _ => js) ++ (t.made e).map fun pkt => { info := pkt, cachedAt := e.time }

/-- The data packets of a run. -/
def dataJobs (t : TrunkLink) (es : List TrunkCall) : List (Job PacketInfo) :=
  Transition.record callStep noteData t [] es

/-- What is to be sent in an event: what is made, and in a tick what is due. -/
def scheduled (t : TrunkLink) (e : TrunkCall) (js : List (Job PacketInfo)) : List PacketInfo :=
  match e with
  | .op (.resend curt) => dataRule.due curt js
  | _ => t.made e

/-- **What an event does to the data cache**, and what it sends. -/
inductive SendResult (t : TrunkLink) : TrunkCall → TrunkLink → List PacketInfo → Prop
  | resent (curt : Time) :
      SendResult t (.op (.resend curt)) (t.onCacheResend curt).1 (t.onCacheResend curt).2
  | made {e : TrunkCall} {call : HosterCall} {t' : TrunkLink} {pkts : List PacketInfo}
      (hcmd : t.cmdCall e = some call)
      (hcache : t'.packetDataCache = t.packetDataCache ++ pkts.map fun pkt => .start pkt e.time)
      (hpkts : ∀ pkt ∈ pkts, ∃ pktIndex, pkt = call.packet t.serverSide pktIndex) :
      SendResult t e t' pkts
  | other {e : TrunkCall} {t' : TrunkLink} {pkts : List PacketInfo} (hcmd : t.cmdCall e = none)
      (htick : ∀ curt, e ≠ .op (.resend curt))
      (hcache : t'.packetDataCache = t.packetDataCache)
      (hpkts : ∀ pkt ∈ pkts, (∃ cnt packetIndex, pkt = ackDataPacket t.serverSide cnt packetIndex) ∨
        ∃ cnt, pkt = livePacket cnt) :
      SendResult t e t' pkts

/-- **Every event sends what it made or what is due.** -/
theorem call_sends (hcall : t.call e = some (t', pkts)) : SendResult t e t' pkts := by
  cases hcmd : t.cmdCall e with
  | some call =>
      obtain ⟨objects, _, hresult⟩ := call_result hcmd hcall
      cases hresult with
      | refused counter _ => exact .made hcmd (by simp) (by simp)
      | dropped _ _ _ hbook => exact .made hcmd (by simp [hbook.packetDataCache]) (by simp)
      | made _ _ _ hbook =>
          refine .made hcmd (by simp [hbook.packetDataCache]) ?_
          intro pkt hpkt
          exact ⟨_, List.mem_singleton.mp hpkt⟩
  | none =>
      cases e with
      | sendData cnt data now => cases hcmd
      | closeConnect cnt now => cases hcmd
      | op op =>
          cases op with
          | resend curt =>
              cases hcall
              exact .resent curt
          | add cnt point now =>
              simp only [call, apply] at hcall
              split at hcall
              · cases hcall
              · cases hcall
                exact .other hcmd (by simp) rfl (by simp)
          | asio k e now =>
              obtain ⟨reg, link, call, hreg, hlink, heq⟩ := asioStep_eq hcall
              have hsame : call = none := by simpa [cmdCall, hreg, hlink] using hcmd
              subst hsame
              cases heq
              exact .other hcmd (by simp) rfl (by simp)
          | live curt =>
              have hlive : t.sendLivePacket curt = (t', pkts) := Option.some.inj hcall
              have hcache := (sendLivePacket_frame t curt).2.1
              have hsent := sent_live t curt
              rw [hlive] at hcache hsent
              refine .other hcmd (by simp) hcache fun pkt hpkt => Or.inr ?_
              obtain ⟨item, _, heq⟩ := hsent pkt hpkt
              exact ⟨item.connectId, heq.symm⟩
          | handle call now =>
              have hhandle : t.handle now call = (t', pkts) := Option.some.inj hcall
              have hcache := (handle_frame t now call).2.1
              have hsent := sent_handle t now call
              rw [hhandle] at hcache hsent
              refine .other hcmd (by simp) hcache fun pkt hpkt => Or.inl ?_
              obtain ⟨cnt, packetIndex, heq, _⟩ := hsent pkt hpkt
              exact ⟨cnt, packetIndex, heq⟩
          | getStat =>
              cases hcall
              exact .other hcmd (by simp) rfl (by simp)

/-- An acknowledgement or a live packet carries no data and requests nothing. -/
theorem other_packet {pkt : PacketInfo}
    (h : (∃ cnt packetIndex, pkt = ackDataPacket t.serverSide cnt packetIndex) ∨
      ∃ cnt, pkt = livePacket cnt) :
    carriesData pkt.datagram = false ∧ requestsConnect pkt.datagram = false := by
  rcases h with ⟨cnt, packetIndex, rfl⟩ | ⟨cnt, rfl⟩
  · simp only [carriesData, requestsConnect, commandAt_ackDataPacket]
    cases t.serverSide <;> exact ⟨rfl, rfl⟩
  · simp [carriesData, requestsConnect, commandAt_livePacket]

/-- The data cache is on schedule and holds packets of `SendCmdData`. -/
structure DataOnSchedule (t : TrunkLink) (js : List (Job PacketInfo)) : Prop where
  queue : OnSchedule dataRule (t.packetDataCache.map PacketDataCache.entry) js
  data : ∀ j ∈ js, carriesData j.info.datagram = true

/-- **What an event sends of the data packets** is what the schedule wants. -/
theorem DataOnSchedule.sends (h : DataOnSchedule t js) (hcall : t.call e = some (t', pkts)) :
    pkts.filter (fun pkt => carriesData pkt.datagram) = t.scheduled e js ∧
      ∀ pkt ∈ pkts, requestsConnect pkt.datagram = false := by
  cases call_sends hcall with
  | resent curt =>
      have hsent : (t.onCacheResend curt).2 = dataRule.due curt js := by
        rw [← (h.queue.tick curt).2, onCacheResend_pass]
      have hdata : ∀ pkt ∈ (t.onCacheResend curt).2, carriesData pkt.datagram = true := by
        intro pkt hpkt
        rw [hsent] at hpkt
        obtain ⟨j, hj, rfl⟩ := List.mem_map.mp hpkt
        exact h.data j (List.mem_of_mem_filter hj)
      exact ⟨(List.filter_eq_self.mpr hdata).trans hsent,
        fun pkt hpkt => requestsConnect_of_data (hdata pkt hpkt)⟩
  | @made _ call _ _ hcmd _ hpkts =>
      have hdata : ∀ pkt ∈ pkts, carriesData pkt.datagram = true := by
        intro pkt hpkt
        obtain ⟨pktIndex, rfl⟩ := hpkts pkt hpkt
        exact carriesData_call t.serverSide pktIndex call
      have hscheduled : t.scheduled e js = pkts := by
        unfold scheduled
        split
        · cases hcmd
        · simp [TrunkLink.made, hcmd, hcall]
      exact ⟨(List.filter_eq_self.mpr hdata).trans hscheduled.symm,
        fun pkt hpkt => requestsConnect_of_data (hdata pkt hpkt)⟩
  | other hcmd htick _ hpkts =>
      refine ⟨?_, fun pkt hpkt => (other_packet (hpkts pkt hpkt)).2⟩
      have hscheduled : t.scheduled e js = [] := by
        unfold scheduled
        split
        · exact absurd rfl (htick _)
        · simp [TrunkLink.made, hcmd]
      rw [hscheduled, List.filter_eq_nil_iff]
      exact fun pkt hpkt => by simp [(other_packet (hpkts pkt hpkt)).1]

/-- Every event keeps the data cache on schedule. -/
theorem DataOnSchedule.call (h : DataOnSchedule t js) (hcall : t.call e = some (t', pkts)) :
    DataOnSchedule t' (t.noteData e js) := by
  cases call_sends hcall with
  | resent curt =>
      have hnote : t.noteData (.op (.resend curt)) js = js.map (Job.tick dataRule curt) := by
        simp [noteData, TrunkLink.made, cmdCall]
      rw [hnote]
      refine ⟨?_, ?_⟩
      · have hqueue := (h.queue.tick curt).1
        rwa [onCacheResend_pass] at hqueue
      · intro j hj
        obtain ⟨own, hown, rfl⟩ := List.mem_map.mp hj
        exact h.data own hown
  | @made _ call _ _ hcmd hcache hpkts =>
      have hnote : t.noteData e js = js ++ pkts.map fun pkt => ⟨pkt, e.time, [], [], false⟩ := by
        unfold noteData
        split
        · cases hcmd
        · simp [TrunkLink.made, hcmd, hcall]
      rw [hnote]
      refine ⟨?_, ?_⟩
      · have hqueue := h.queue.start pkts e.time
        rw [hcache, List.map_append, List.map_map]
        exact hqueue
      · intro j hj
        rcases List.mem_append.mp hj with hj | hj
        · exact h.data j hj
        · obtain ⟨pkt, hpkt, rfl⟩ := List.mem_map.mp hj
          obtain ⟨pktIndex, rfl⟩ := hpkts pkt hpkt
          exact carriesData_call t.serverSide pktIndex call
  | other hcmd htick hcache _ =>
      have hnote : t.noteData e js = js := by
        unfold noteData
        split
        · exact absurd rfl (htick _)
        · simp [TrunkLink.made, hcmd]
      rw [hnote]
      exact ⟨hcache ▸ h.queue, h.data⟩

/-- **The data cache is on schedule in every run.** -/
theorem dataOnSchedule_run {serverSide : Bool} {now : Time} {es : List TrunkCall}
    (hrun : Transition.run callStep (create serverSide now) es = some t) :
    DataOnSchedule t (dataJobs (create serverSide now) es) := by
  refine Transition.record_invariant ?_ ⟨.nil, by simp⟩ hrun
  intro s js e s' h hstep
  obtain ⟨⟨s', pkts⟩, hcall, rfl⟩ := Option.map_eq_some_iff.mp hstep
  exact h.call hcall

end TrunkLink

/-! ## The requests of a client -/

namespace TrunkClient

open TrunkLink (DataOnSchedule)

variable {c c' : TrunkClient} {e : ClientEvent} {sent : List Bytes} {js : List (Job PacketInfo)}

/-- The request `AddConnect` makes. -/
def requested (c : TrunkClient) (cnt : ConnectID) (point : PointID) : List PacketInfo :=
  if c.base.getOutLink cnt = none then [connectPacket cnt point (UInt32.ofNat kResendTimeout)]
  else []

/-- A request is a new job, a tick is seen by every job, and an acknowledgement
answers the requests of its connection. -/
def noteConnects (c : TrunkClient) (e : ClientEvent) (js : List (Job PacketInfo)) :
    List (Job PacketInfo) :=
  match e with
  | .addConnect cnt point _ cached =>
    js ++ (c.requested cnt point).map fun pkt => { info := pkt, cachedAt := cached }
  | .receive data _ =>
    match processTrunkData false (data.take kPacketBufferSize) with
    | some (some (.processAckConnectData cnt)) => js.map (Job.answer fun pkt => pkt.ctxId = cnt)
    | _ => js
  | .tick _ _ connects => js.map (Job.tick connectRule connects)
  | _ => js

/-- The requests of a run. -/
def connectJobs (c : TrunkClient) (es : List ClientEvent) : List (Job PacketInfo) :=
  Transition.record step noteConnects c [] es

/-- The requests to be sent in an event: what is made, and in a tick what is due. -/
def scheduled (c : TrunkClient) (e : ClientEvent) (js : List (Job PacketInfo)) : List PacketInfo :=
  match e with
  | .addConnect cnt point _ _ => c.requested cnt point
  | .tick _ _ connects => connectRule.due connects js
  | _ => []

/-- The connect cache is on schedule, and so is the data cache. -/
structure ConnectOnSchedule (c : TrunkClient) (js : List (Job PacketInfo)) : Prop where
  base : ∃ dataJobs, DataOnSchedule c.base dataJobs
  queue : OnSchedule connectRule (c.connectCache.map PacketConnectCache.entry) js
  requests : ∀ j ∈ js, requestsConnect j.info.datagram = true

/-- What an event leaves: the cache on schedule, and no other request sent. -/
structure Served (c : TrunkClient) (e : ClientEvent) (js : List (Job PacketInfo))
    (r : TrunkClient × List Bytes) : Prop where
  keeps : r.1.ConnectOnSchedule (c.noteConnects e js)
  sends : r.2.filter requestsConnect = (c.scheduled e js).map sendPacket

/-- No packet other than a request asks for a connection. -/
theorem filter_requests {pkts : List PacketInfo}
    (h : ∀ pkt ∈ pkts, requestsConnect pkt.datagram = false) :
    (pkts.map sendPacket).filter requestsConnect = [] := by
  rw [List.filter_eq_nil_iff]
  intro data hdata
  obtain ⟨pkt, hpkt, rfl⟩ := List.mem_map.mp hdata
  simp [sendPacket, h pkt hpkt]

/-- An operation of the common part requests nothing. -/
theorem ConnectOnSchedule.setBase (h : c.ConnectOnSchedule js) (call : TrunkCall)
    {r : TrunkLink × List PacketInfo} (hcall : c.base.call call = some r)
    (hnote : c.noteConnects e js = js) (hnone : c.scheduled e js = []) :
    Served c e js (c.setBase r) := by
  obtain ⟨dataJobs, hbase⟩ := h.base
  refine ⟨?_, ?_⟩
  · rw [hnote]
    exact ⟨⟨_, hbase.call hcall⟩, h.queue, h.requests⟩
  · rw [hnone]
    exact filter_requests (hbase.sends hcall).2

/-- A new connection adds its request to the schedule. -/
theorem ConnectOnSchedule.addConnect (h : c.ConnectOnSchedule js) (cnt : ConnectID)
    (point : PointID) (registered cached : Time) :
    Served c (.addConnect cnt point registered cached) js
      (c.addConnect cnt point registered cached) := by
  unfold TrunkClient.addConnect
  cases hlink : c.base.getOutLink cnt with
  | some k =>
      have hnone : c.requested cnt point = [] := by simp [requested, hlink]
      refine ⟨?_, ?_⟩
      · simpa [noteConnects, hnone] using h
      · simp [scheduled, hnone]
  | none =>
      have hone : c.requested cnt point =
          [connectPacket cnt point (UInt32.ofNat kResendTimeout)] := by simp [requested, hlink]
      obtain ⟨dataJobs, hbase⟩ := h.base
      have hadd : c.base.call (.op (.add cnt none registered)) =
          some (c.base.intAddOutLink cnt OutLink.createAccepted registered, []) := by
        simp [TrunkLink.call, TrunkLink.apply, hlink, newLink]
      have hrequest : requestsConnect
          (connectPacket cnt point (UInt32.ofNat kResendTimeout)).datagram = true := by
        simp [requestsConnect, commandAt_connectPacket]
      refine ⟨⟨⟨_, hbase.call hadd⟩, ?_, ?_⟩, ?_⟩
      · have hqueue := h.queue.start (c.requested cnt point) cached
        rw [hone] at hqueue
        simp only [noteConnects, hone, sendConnectInformation, List.map_append]
        exact hqueue
      · intro j hj
        simp only [noteConnects, hone, List.mem_append, List.map_cons, List.map_nil,
          List.mem_singleton] at hj
        rcases hj with hj | rfl
        · exact h.requests j hj
        · exact hrequest
      · simp [scheduled, hone, sendConnectInformation, sendPacket, hrequest]

/-- An acknowledgement takes its requests off the schedule. -/
theorem ConnectOnSchedule.receive (h : c.ConnectOnSchedule js) (data : Bytes) (now : Time) :
    Served c (.receive data now) js (c.receiveTrunkData data now) := by
  unfold receiveTrunkData
  cases hread : processTrunkData false (data.take kPacketBufferSize) with
  | none => exact ⟨by simpa [noteConnects, hread] using h, rfl⟩
  | some answer =>
      cases answer with
      | none => exact ⟨by simpa [noteConnects, hread] using h, rfl⟩
      | some call =>
          by_cases hack : ∃ cnt, call = .processAckConnectData cnt
          · obtain ⟨cnt, rfl⟩ := hack
            refine ⟨?_, rfl⟩
            have hqueue := h.queue.answer fun pkt => pkt.ctxId = cnt
            have hcache : (c.connectCache.filter fun item => item.info.ctxId ≠ cnt).map
                PacketConnectCache.entry = (c.connectCache.map PacketConnectCache.entry).filter
                  fun item => ! decide (item.info.ctxId = cnt) := by
              rw [List.filter_map]
              refine congrArg _ (List.filter_congr fun item _ => ?_)
              by_cases hid : item.info.ctxId = cnt <;> simp [PacketConnectCache.entry, hid]
            simp only [noteConnects, hread]
            refine ⟨h.base, hcache ▸ hqueue, ?_⟩
            intro j hj
            obtain ⟨own, hown, rfl⟩ := List.mem_map.mp hj
            exact h.requests own hown
          · have hother : ∀ cnt, call ≠ .processAckConnectData cnt := by simpa using hack
            have hbase : c.handle now call = c.setBase (c.base.handle now call) :=
              handle_base hother
            simp only [hbase]
            refine h.setBase (.op (.handle call now)) rfl ?_ rfl
            cases call with
            | processAckConnectData cnt => exact absurd rfl (hother cnt)
            | processConnectData cnt pointId timeout => simp [noteConnects, hread]
            | processDataToOutlink cnt packetIndex data => simp [noteConnects, hread]
            | processAckData cnt packetIndex => simp [noteConnects, hread]
            | processReleaseConnect cnt packetId => simp [noteConnects, hread]
            | processLive cnt => simp [noteConnects, hread]

/-- A tick sends the requests that are due. -/
theorem ConnectOnSchedule.tick (h : c.ConnectOnSchedule js) (live resend connects : Time) :
    Served c (.tick live resend connects) js (c.tick live resend connects) := by
  obtain ⟨dataJobs, hbase⟩ := h.base
  have hlive : c.base.call (.op (.live live)) =
      some ((c.base.sendLivePacket live).1, (c.base.sendLivePacket live).2) := rfl
  have hafter := hbase.call hlive
  have hresend : (c.base.sendLivePacket live).1.call (.op (.resend resend)) =
      some (((c.base.sendLivePacket live).1.onCacheResend resend).1,
        ((c.base.sendLivePacket live).1.onCacheResend resend).2) := rfl
  generalize hm : { c with base := ((c.base.sendLivePacket live).1.onCacheResend resend).1 } = m
  have hpass := m.resendConnects_pass connects
  have hqueue : OnSchedule connectRule (m.connectCache.map PacketConnectCache.entry) js := by
    rw [← hm]
    exact h.queue
  obtain ⟨hticked, hdue⟩ := hqueue.tick connects
  rw [hpass] at hticked hdue
  have heq : c.tick live resend connects = ((m.resendConnects connects).1,
      (c.base.sendLivePacket live).2.map sendPacket ++
        ((c.base.sendLivePacket live).1.onCacheResend resend).2.map sendPacket ++
        (connectRule.due connects js).map sendPacket) := by
    rw [← hm] at hdue ⊢
    refine Prod.ext rfl ?_
    rw [← hdue, List.map_map]
    rfl
  have hkept : ∃ dataJobs, DataOnSchedule m.base dataJobs := by
    rw [← hm]
    exact ⟨_, hafter.call hresend⟩
  rw [heq]
  refine ⟨⟨hkept, hticked, ?_⟩, ?_⟩
  · intro j hj
    obtain ⟨own, hown, rfl⟩ := List.mem_map.mp hj
    exact h.requests own hown
  · have hrequests : ∀ data ∈ (connectRule.due connects js).map sendPacket,
        requestsConnect data = true := by
      intro data hdata
      obtain ⟨pkt, hpkt, rfl⟩ := List.mem_map.mp hdata
      obtain ⟨j, hj, rfl⟩ := List.mem_map.mp hpkt
      exact h.requests j (List.mem_of_mem_filter hj)
    rw [List.filter_append, List.filter_append, filter_requests (hbase.sends hlive).2,
      filter_requests (hafter.sends hresend).2, List.filter_eq_self.mpr hrequests]
    rfl

/-- **One event of a client** keeps its connect cache on schedule. -/
theorem ConnectOnSchedule.event (h : c.ConnectOnSchedule js)
    {r : TrunkClient × List Bytes} (hevent : c.event e = some r) : Served c e js r := by
  cases e with
  | addConnect cnt point registered cached =>
      cases hevent
      exact h.addConnect cnt point registered cached
  | receive data now =>
      cases hevent
      exact h.receive data now
  | tick live resend connects =>
      cases hevent
      exact h.tick live resend connects
  | sendData cnt data now =>
      cases hevent
      exact h.setBase (.sendData cnt data now) rfl rfl rfl
  | closeConnect cnt now =>
      cases hevent
      exact h.setBase (.closeConnect cnt now) rfl rfl rfl
  | link cnt e now =>
      simp only [TrunkClient.event] at hevent
      split at hevent
      · cases hevent
      · rename_i k hk
        obtain ⟨r', hstep, rfl⟩ := Option.map_eq_some_iff.mp hevent
        exact h.setBase (.op (.asio k e now)) hstep rfl rfl

/-- **The connect cache is on schedule in every run.** -/
theorem connectOnSchedule_run {now : Time} {es : List ClientEvent}
    (hrun : Transition.run step (create now) es = some c) :
    c.ConnectOnSchedule (connectJobs (create now) es) := by
  refine Transition.record_invariant ?_
    ⟨⟨[], OnSchedule.nil, by simp⟩, OnSchedule.nil, by simp⟩ hrun
  intro s js e s' h hstep
  obtain ⟨⟨s', sent⟩, hevent, rfl⟩ := Option.map_eq_some_iff.mp hstep
  exact (h.event hevent).keeps

end TrunkClient

/-! ## The schedule -/

/-- **A cache that repeats its packets on schedule**, with the numbers of the source. -/
structure Repeats (rule : ResendRule) (queue : List (ResendEntry PacketInfo))
    (js : List (Job PacketInfo)) : Prop where
  onSchedule : OnSchedule rule queue js
  inTime : ∀ j ∈ js, ∀ time ∈ j.transmissions, time ≤ j.cachedAt + milliseconds kDeadlineTimeout
  sevenTimes : ∀ j ∈ js, j.transmissions.length ≤ 7

/-- With the periods of the source the schedule has the numbers of the source. -/
theorem OnSchedule.repeats {rule : ResendRule} {queue : List (ResendEntry PacketInfo)}
    {js : List (Job PacketInfo)} (h : OnSchedule rule queue js)
    (hperiod : rule.period = milliseconds kResendTimeout)
    (hlifetime : rule.lifetime = milliseconds kDeadlineTimeout) : Repeats rule queue js where
  onSchedule := h
  inTime := fun j hj => hlifetime ▸ (h.paced j hj).inTime
  sevenTimes := fun j hj => by
    have hbound := (h.paced j hj).bound
    rw [hperiod, hlifetime] at hbound
    simp only [milliseconds, kResendTimeout, kDeadlineTimeout] at hbound
    rw [Job.transmissions, List.length_cons]
    omega

/-- **The retransmission schedule.**  After any run of a trunk side the data cache
holds the packets made since, in their order, but for those a tick has found past
their deadline; each was sent at most seven times and never after its deadline; and
the data packets an event sends are those it makes and, in a tick, those whose last
transmission is more than `kResendTimeout` ago.  The same holds of the requests of
a client, with the acknowledged ones gone from the cache and a distance of at least
`kResendTimeout`. -/
theorem retransmission_schedule :
    (∀ serverSide now es t,
      Transition.run TrunkLink.callStep (TrunkLink.create serverSide now) es = some t →
      Repeats dataRule (t.packetDataCache.map PacketDataCache.entry)
        (TrunkLink.dataJobs (.create serverSide now) es) ∧
      ∀ e t' pkts, t.call e = some (t', pkts) →
        pkts.filter (fun pkt => carriesData pkt.datagram) =
          t.scheduled e (TrunkLink.dataJobs (.create serverSide now) es)) ∧
    ∀ now es c, Transition.run TrunkClient.step (TrunkClient.create now) es = some c →
      Repeats connectRule (c.connectCache.map PacketConnectCache.entry)
        (TrunkClient.connectJobs (.create now) es) ∧
      ∀ e c' sent, c.event e = some (c', sent) →
        sent.filter requestsConnect =
          (c.scheduled e (TrunkClient.connectJobs (.create now) es)).map
            TrunkClient.sendPacket := by
  refine ⟨?_, ?_⟩
  · intro serverSide now es t hrun
    have h := TrunkLink.dataOnSchedule_run hrun
    exact ⟨h.queue.repeats rfl rfl, fun e t' pkts hcall => (h.sends hcall).1⟩
  · intro now es c hrun
    have h := TrunkClient.connectOnSchedule_run hrun
    exact ⟨h.queue.repeats rfl rfl, fun e c' sent hevent => (h.event hevent).sends⟩

/-- A data packet is repeated a nanosecond after its timeout, a request right at it;
once it is acknowledged a client has nothing to request. -/
theorem retransmission_schedule_acknowledged :
    (∃ t, Transition.run TrunkLink.callStep (.create true 0)
        [.op (.add (.ofByte 1) none 0), .sendData (.ofByte 1) [65] 0, .op (.resend 300000000),
          .op (.resend 300000001)] = some t ∧
      Repeats dataRule (t.packetDataCache.map PacketDataCache.entry)
        [⟨dataPacket (.ofByte 1) [65] .dataIn 0, 0, [300000000, 300000001], [300000001], false⟩]) ∧
    ∃ c, Transition.run TrunkClient.step (.create 0)
        [.addConnect (.ofByte 1) 7 0 0, .tick 0 0 300000000,
          .receive (ackCreatePacket (.ofByte 1)).datagram 300000000] = some c ∧
      ∀ live resend connects c' sent, c.event (.tick live resend connects) = some (c', sent) →
        sent.filter requestsConnect = [] := by
  refine ⟨⟨_, rfl, ?_⟩, ⟨_, rfl, ?_⟩⟩
  · have hrun : Transition.run TrunkLink.callStep (.create true 0)
        [.op (.add (.ofByte 1) none 0), .sendData (.ofByte 1) [65] 0, .op (.resend 300000000),
          .op (.resend 300000001)] = some _ := rfl
    exact (retransmission_schedule.1 true 0 _ _ hrun).1
  · intro live resend connects c' sent hevent
    have hrun : Transition.run TrunkClient.step (.create 0)
        [.addConnect (.ofByte 1) 7 0 0, .tick 0 0 300000000,
          .receive (ackCreatePacket (.ofByte 1)).datagram 300000000] = some _ := rfl
    have h := (retransmission_schedule.2 0 _ _ hrun).2 _ c' sent hevent
    exact h
