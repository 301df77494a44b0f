import ByteStacker.Arguments
import ByteStacker.OutLinkDial
import ByteStacker.Provenance

/-!
# Where a connection is made to

The client names a point in `CreateConnect`, the server looks it up in its fabric and
dials what it finds there.  Nothing else creates a link of the server, and only
`AddConnect` asks for one, so every socket the server opens for a connection goes to the
address configured for the point the connection came in at.

* `Plain` — no packet of the common part is a `CreateConnect`;
* `Dials` — the link resolves the address it was created with and no other;
* `Destined` — every request in the client's cache or in flight was asked for by
  `AddConnect`, and every link of the server was created for such a request;
* `right_destination` puts this together with the arguments of the server.
-/

/-! ## What a link dials -/

/-- The link was created for the address and resolves no other. -/
structure OutLink.Dials (target : AddressPortPoint) (l : OutLink) : Prop where
  host : l.host = target.address
  service : l.service = toString target.port.toNat
  resolves : ∀ query ∈ l.resolves, query = (target.address, toString target.port.toNat)

/-- What a link dials is a matter of its dial. -/
theorem OutLink.Dials.congr {l m : OutLink} {target : AddressPortPoint} (h : l.Dials target)
    (hdial : m.dial = l.dial) : m.Dials target where
  host := (congrArg Dial.host hdial).trans h.host
  service := (congrArg Dial.service hdial).trans h.service
  resolves := by
    have hsame : m.resolves = l.resolves := congrArg Dial.resolves hdial
    rw [hsame]
    exact h.resolves

/-- Asio events start no further resolve. -/
theorem OutLink.Dials.asioStep {l l' : OutLink} {target : AddressPortPoint} (h : l.Dials target)
    {e : AsioEvent} {call : Option HosterCall} (hstep : l.asioStep e = some (l', call)) :
    l'.Dials target := by
  have hdial := dial_asioStep hstep
  have hafter : (l.dial.after e).host = l.host ∧ (l.dial.after e).service = l.service ∧
      (l.dial.after e).resolves ⊆ l.resolves := by
    cases e with
    | resolved i results =>
        cases results with
        | none => exact ⟨rfl, rfl, List.eraseIdx_subset⟩
        | some points => exact ⟨rfl, rfl, List.eraseIdx_subset⟩
    | connected i error =>
        cases error with
        | true => exact ⟨rfl, rfl, List.Subset.refl _⟩
        | false => exact ⟨rfl, rfl, List.Subset.refl _⟩
    | _ => exact ⟨rfl, rfl, List.Subset.refl _⟩
  obtain ⟨hhost, hservice, hresolves⟩ := hafter
  rw [← hdial] at hhost hservice hresolves
  exact ⟨hhost.trans h.host, hservice.trans h.service, fun query hquery =>
    h.resolves query (hresolves hquery)⟩

/-- A new link dials the point that it was made for. -/
theorem dials_new (cnt : ConnectID) (target : AddressPortPoint) :
    ((newLink (some target)).run cnt).Dials target :=
  ⟨rfl, rfl, fun query hquery => by
    simpa [newLink, OutLink.run, OutLink.createAddress] using hquery⟩

/-- **Every event of a registration keeps its target.** -/
theorem RegEvent.dials {op : TrunkOp} {reg reg' : Registration} (h : RegEvent op reg reg')
    {target : AddressPortPoint} (hdials : reg.link.Dials target) : reg'.link.Dials target := by
  induction h with
  | same => exact hdials
  | quiet hstep => exact hdials.asioStep hstep
  | read hstep _ => exact hdials.asioStep hstep
  | closed hstep _ => exact hdials.asioStep hstep
  | dropped hstep _ => exact hdials.asioStep hstep
  | handed _ _ => exact hdials.congr (OutLink.dial_sendData _ _ _)
  | released _ => exact hdials.congr (OutLink.dial_stop _ _)
  | dead _ ih => exact (ih hdials).congr (OutLink.dial_stop _ _)

/-! ## The common part makes no request -/

namespace TrunkLink

variable {t t' : TrunkLink} {op : TrunkOp} {sent : List PacketInfo}

/-- A packet of the side that is no `CreateConnect`. -/
def Plain (serverSide : Bool) (pkt : PacketInfo) : Prop :=
  ∃ call, Emitted serverSide pkt call ∧
    ∀ cnt pointId timeout, call ≠ .processConnectData cnt pointId timeout

/-- No packet the side has cached is a request. -/
def CachePlain (t : TrunkLink) : Prop :=
  ∀ item ∈ t.packetDataCache, Plain t.serverSide item.info

/-- What a link hands to its hoster is no request for a connection. -/
theorem plain_call (serverSide : Bool) (index : UInt32) {call : HosterCall}
    (hsize : call.payload.length ≤ kMaxChunkSize) :
    Plain serverSide (call.packet serverSide index) := by
  cases call with
  | sendData cnt data => exact ⟨_, .data serverSide cnt index data hsize, by simp⟩
  | closeConnect cnt => exact ⟨_, .release serverSide cnt index, by simp⟩

/-- Ticks and handlers send live packets, what is cached, and acknowledgements. -/
theorem plain_quiet (hcache : t.CachePlain) (hcmd : t.cmdCall (.op op) = none)
    (happly : t.apply op = some (t', sent)) : ∀ pkt ∈ sent, Plain t.serverSide pkt := by
  intro pkt hpkt
  cases op with
  | add cnt point now =>
      simp only [apply] at happly
      split at happly
      · cases happly
      · cases happly
        cases hpkt
  | asio k e now =>
      obtain ⟨reg, link, call, hreg, hlink, heq⟩ := asioStep_eq happly
      have hnone : call = none := by simpa [cmdCall, hreg, hlink] using hcmd
      subst hnone
      cases heq
      cases hpkt
  | live curt =>
      have hsent : (t.sendLivePacket curt).2 = sent := congrArg Prod.snd (Option.some.inj happly)
      obtain ⟨item, _, rfl⟩ := sent_live t curt pkt (hsent ▸ hpkt)
      exact ⟨_, .live t.serverSide item.connectId, by simp⟩
  | resend curt =>
      cases happly
      obtain ⟨item, hitem, rfl⟩ := List.mem_map.mp hpkt
      exact hcache item (List.mem_of_mem_filter (List.mem_of_mem_filter hitem))
  | handle call now =>
      have hsent : (t.handle now call).2 = sent := congrArg Prod.snd (Option.some.inj happly)
      obtain ⟨cnt, packetIndex, rfl, _⟩ := sent_handle t now call pkt (hsent ▸ hpkt)
      exact ⟨_, .ackData t.serverSide cnt packetIndex, by simp⟩
  | getStat =>
      cases happly
      cases hpkt

/-- **The common part makes no request**, whatever it does. -/
theorem plain_apply (hcache : t.CachePlain) (happly : t.apply op = some (t', sent)) :
    t'.CachePlain ∧ ∀ pkt ∈ sent, Plain t.serverSide pkt := by
  have hside := apply_serverSide happly
  have hcall : t.call (.op op) = some (t', sent) := happly
  cases hcmd : t.cmdCall (.op op) with
  | none =>
      refine ⟨?_, plain_quiet hcache hcmd happly⟩
      unfold CachePlain
      rw [hside]
      cases call_quiet hcmd hcall with
      | added _ => exact hcache
      | kept _ _ hcached _ _ _ =>
          intro item' hitem'
          obtain ⟨item, hitem, hinfo⟩ := hcached item' hitem'
          exact hinfo ▸ hcache item hitem
  | some call =>
      obtain ⟨objects, _, hresult⟩ := call_result hcmd hcall
      unfold CachePlain
      rw [hside]
      cases hresult with
      | refused counter _ => exact ⟨hcache, by simp⟩
      | dropped _ _ _ hbook =>
          rw [hbook.packetDataCache]
          exact ⟨hcache, by simp⟩
      | @made _ item _ hsize _ hbook =>
          have hnew := plain_call t.serverSide item.nextIndexToTrunk hsize
          rw [hbook.packetDataCache]
          refine ⟨fun cached hcached => ?_, fun pkt hpkt => List.mem_singleton.mp hpkt ▸ hnew⟩
          rcases List.mem_append.mp hcached with hold | hlast
          · exact hcache cached hold
          · rw [List.mem_singleton.mp hlast]
            exact hnew

/-- So neither the cache nor what is sent gets a request from the links. -/
theorem Acts.plain {ops : List TrunkOp} (hacts : Acts t ops t' sent) (hcache : t.CachePlain) :
    t'.CachePlain ∧ ∀ pkt ∈ sent, Plain t.serverSide pkt := by
  induction hacts with
  | nil => exact ⟨hcache, by simp⟩
  | cons happly _ ih =>
      obtain ⟨hnext, hsent⟩ := plain_apply hcache happly
      obtain ⟨hlast, hrest⟩ := ih hnext
      rw [apply_serverSide happly] at hrest
      exact ⟨hlast, fun pkt hpkt => (List.mem_append.mp hpkt).elim (hsent pkt) (hrest pkt)⟩

end TrunkLink

/-! ## Requests and destinations -/

namespace System

variable {s s' : System} {e : SystemEvent} {asked : ConnectID → PointID → Prop}
  {fabric : PointID → Option AddressPortPoint}

/-- The points are set once, by the command line: no handler changes them. -/
theorem linkFabric_handle (server : TrunkServer) (now : Time) (call : HandlerCall) :
    (server.handle now call).1.linkFabric = server.linkFabric := by
  by_cases hcreate : ∃ cnt pointId timeout, call = .processConnectData cnt pointId timeout
  · obtain ⟨cnt, pointId, timeout, rfl⟩ := hcreate
    change (server.processConnectData cnt pointId now).1.linkFabric = _
    unfold TrunkServer.processConnectData
    simp only
    split
    · rfl
    · split
      · rfl
      · rfl
  · rw [TrunkServer.handle_base (by simpa using hcreate)]

theorem linkFabric_receive (server : TrunkServer) (index : Nat) (sender : Endpoint) (data : Bytes)
    (now : Time) :
    (server.receiveTrunkData index sender data now).1.linkFabric = server.linkFabric := by
  unfold TrunkServer.receiveTrunkData
  simp only
  split
  · rfl
  · split
    · exact linkFabric_handle _ now _
    · rfl

/-- Nothing changes the fabric. -/
theorem linkFabric_step (hstep : s.step e = some s') :
    s'.server.linkFabric = s.server.linkFabric := by
  cases e with
  | serverAsio k ev now =>
      obtain ⟨r, hr, rfl⟩ := Option.map_eq_some_iff.mp hstep
      obtain ⟨r', _, rfl⟩ := Option.map_eq_some_iff.mp hr
      rfl
  | clientAsio k ev now =>
      obtain ⟨r, _, rfl⟩ := Option.map_eq_some_iff.mp hstep
      rfl
  | toServer n index sender now =>
      simp only [step] at hstep
      split at hstep
      · cases hstep
      · split at hstep
        · cases hstep
          exact linkFabric_receive s.server index sender _ now
        · cases hstep
  | toClient n now =>
      simp only [step] at hstep
      split at hstep
      · cases hstep
      · cases hstep
        rfl
  | addConnect cnt point registered cached =>
      cases hstep
      rfl
  | clientTick live resend connects =>
      cases hstep
      rfl
  | serverTick live resend =>
      cases hstep
      rfl
  | getStat =>
      cases hstep
      rfl

/-- The link goes where the fabric sends a connection that was asked for. -/
def Sent (asked : ConnectID → PointID → Prop) (fabric : PointID → Option AddressPortPoint)
    (reg : Registration) : Prop :=
  ∃ cnt point target, reg.link.hoster = some cnt ∧ asked cnt point ∧
    fabric point = some target ∧ reg.link.Dials target

/-- A packet of the client that, if it is a request, was asked for. -/
def Requested (asked : ConnectID → PointID → Prop) (pkt : PacketInfo) : Prop :=
  ∃ call, Emitted false pkt call ∧
    ∀ cnt point timeout, call = .processConnectData cnt point timeout → asked cnt point

/-- **Every request was asked for, and every link of the server was requested.** -/
structure Destined (asked : ConnectID → PointID → Prop)
    (fabric : PointID → Option AddressPortPoint) (s : System) : Prop where
  inv : s.Inv
  linkFabric : s.server.linkFabric = fabric
  cache : s.client.base.CachePlain
  connects : ∀ item ∈ s.client.connectCache, Requested asked item.info
  up : ∀ d ∈ s.up, ∃ pkt, d = pkt.datagram ∧ Requested asked pkt
  links : ∀ reg ∈ s.server.base.objects, Sent asked fabric reg

/-- **Every event of a registration keeps what it was sent for.** -/
theorem Sent.event {op : TrunkOp} {reg reg' : Registration} (hinv : reg.Inv)
    (h : RegEvent op reg reg') (hsent : Sent asked fabric reg) : Sent asked fabric reg' := by
  obtain ⟨cnt, point, target, hcnt, hasked, htarget, hdials⟩ := hsent
  exact ⟨cnt, point, target, (h.grows hinv).hoster.trans hcnt, hasked, htarget, h.dials hdials⟩

/-- The server adds a link for a request it has received, at the point of the request. -/
theorem serverOps_add {cnt : ConnectID} {point : Option AddressPortPoint} {now : Time}
    (h : .add cnt point now ∈ s.serverOps e) : ∃ pointId timeout target,
      s.serverCall e = some (.processConnectData cnt pointId timeout) ∧
        point = some target ∧ s.server.linkFabric pointId = some target := by
  cases e with
  | toServer n index sender now' =>
      simp only [serverOps] at h
      split at h
      · next cnt' pointId timeout hcall =>
          split at h
          · next target htarget =>
              cases List.mem_singleton.mp h
              refine ⟨pointId, timeout, target, hcall, rfl, ?_⟩
              unfold acceptedPoint at htarget
              split at htarget
              · cases htarget
              · exact htarget
          · cases h
      · next call _ _ =>
          cases List.mem_singleton.mp h
      · cases h
  | _ => simp [serverOps] at h

/-- A request that arrives asks for a point that the client was asked for. -/
theorem Destined.request (h : Destined asked fabric s) {cnt : ConnectID} {pointId : PointID}
    {timeout : UInt32} (hcall : s.serverCall e = some (.processConnectData cnt pointId timeout)) :
    asked cnt pointId := by
  cases e with
  | toServer n index sender now =>
      obtain ⟨d, hd, hread⟩ := Option.bind_eq_some_iff.mp hcall
      obtain ⟨pkt, rfl, call, hemitted, hasked⟩ := h.up d (List.mem_of_getElem? hd)
      have hdecoded := processTrunkData_emitted hemitted
      rw [List.take_of_length_le (emitted_length hemitted), show true = !false from rfl,
        hdecoded, Option.join_some] at hread
      split at hread
      · cases hread
      · cases hread
        exact hasked cnt pointId timeout rfl
  | _ => cases hcall

/-- **Every event keeps the destinations.** -/
theorem Destined.step (h : Destined asked fabric s)
    (hadd : ∀ cnt point registered cached, e = .addConnect cnt point registered cached →
      asked cnt point) (hstep : s.step e = some s') : Destined asked fabric s' := by
  obtain ⟨clientSent, serverSent, heffect⟩ := step_effect hstep
  obtain ⟨hcache, hplain⟩ := heffect.client.plain h.cache
  rw [h.inv.clientSide] at hplain
  have hconnects : ∀ item ∈ s'.client.connectCache, Requested asked item.info := by
    intro item' hitem'
    rcases heffect.connects item' hitem' with ⟨item, hitem, hinfo⟩ | hnew
    · exact hinfo ▸ h.connects item hitem
    · cases e with
      | addConnect cnt point registered cached =>
          rw [← Option.some.inj hnew]
          refine ⟨_, .createConnect cnt point _, ?_⟩
          intro cnt' point' timeout heq
          cases heq
          exact hadd _ _ registered cached rfl
      | _ => cases hnew
  refine ⟨h.inv.step hstep, (linkFabric_step hstep).trans h.linkFabric, hcache, hconnects, ?_, ?_⟩
  · obtain ⟨new, hup, hnew⟩ := heffect.up
    intro d hd
    rw [hup] at hd
    rcases List.mem_append.mp hd with hd | hd
    · exact h.up d hd
    · rcases hnew d hd with ⟨pkt, hpkt, hdata⟩ | ⟨item, hitem, hdata⟩
      · obtain ⟨call, hemitted, hother⟩ := hplain pkt hpkt
        exact ⟨pkt, hdata, call, hemitted, fun cnt point timeout heq =>
          absurd heq (hother cnt point timeout)⟩
      · exact ⟨item.info, hdata, hconnects item hitem⟩
  · refine (heffect.server.invariant
      (I := fun t => t.Inv ∧ ∀ reg ∈ t.objects, Sent asked fabric reg)
      (Q := fun op => op ∈ s.serverOps e) (fun _ hop => hop) ⟨h.inv.linked.far, h.links⟩ ?_).2
    intro t t' op sent hI hop happly
    obtain ⟨hinv, hlinks⟩ := hI
    refine ⟨hinv.apply happly, fun reg' hreg' => ?_⟩
    obtain ⟨k, hk, hget⟩ := List.getElem_of_mem hreg'
    rcases (TrunkLink.evolves_apply hinv happly).back (hget ▸ List.getElem?_eq_getElem hk) with
      ⟨reg, hreg, hevent⟩ | ⟨cnt, point, now, rfl, rfl⟩
    · have hmem := List.mem_of_getElem? hreg
      exact Sent.event (hinv.sound reg hmem) hevent (hlinks reg hmem)
    · obtain ⟨pointId, timeout, target, hcall, rfl, htarget⟩ := serverOps_add hop
      exact ⟨cnt, pointId, target, (run_newLink cnt (some target)).1, h.request hcall,
        h.linkFabric ▸ htarget, dials_new cnt target⟩

/-- Nothing is asked for when the two sides start. -/
theorem destined_launch (clientTime serverTime : Time) (trunkSockets : Nat) :
    Destined asked fabric (launch clientTime serverTime trunkSockets fabric) where
  inv := inv_start ⟨clientTime, serverTime, trunkSockets, fabric, rfl⟩
  linkFabric := rfl
  cache := fun _ hitem => absurd hitem List.not_mem_nil
  connects := fun _ hitem => absurd hitem List.not_mem_nil
  up := fun _ hd => absurd hd List.not_mem_nil
  links := fun _ hreg => absurd hreg List.not_mem_nil

end System

/-- **The right destination.**  Whatever the network does, every link the server ever
creates belongs to a connection accepted by the client, and it goes to the address that
the last argument of the server for the point of that connection names: it resolves this
host and service and no other. -/
theorem right_destination {makeAddressV4 : Text → Option Bytes} {argv : List Text}
    {cfg : Configuration AddressPortPoint} {clientTime serverTime : Time} {es : List SystemEvent}
    {s : System}
    (hserve : byteStackerOut makeAddressV4 argv = .serve cfg)
    (hrun : Transition.run System.step
      (.launch clientTime serverTime cfg.trunk.length cfg.linkFabric) es = some s) :
    ∀ reg ∈ s.server.base.objects, ∃ cnt point target registered cached,
      .addConnect cnt point registered cached ∈ es ∧ reg.link.hoster = some cnt ∧
        (pointsNamed kExternalPrefix parseExternal makeAddressV4 argv).reverse.lookup point =
          some target ∧
        reg.link.Dials target := by
  have hreach : Transition.Reach System.step (fun _ e => e ∈ es)
      (· = .launch clientTime serverTime cfg.trunk.length cfg.linkFabric) s :=
    Transition.Reach.of_run (.start rfl) (Transition.always_of_mem fun _ he => he) hrun
  have hdestined := hreach.invariant
    (I := System.Destined
      (fun cnt point => ∃ registered cached, .addConnect cnt point registered cached ∈ es)
      cfg.linkFabric)
    (fun _ hstart => hstart ▸ System.destined_launch clientTime serverTime cfg.trunk.length)
    fun _ e _ _ h he hstep => h.step
      (fun _ _ registered cached heq => ⟨registered, cached, heq ▸ he⟩) hstep
  intro reg hreg
  obtain ⟨cnt, point, target, hcnt, ⟨registered, cached, hadd⟩, htarget, hdials⟩ :=
    hdestined.links reg hreg
  refine ⟨cnt, point, target, registered, cached, hadd, hcnt, ?_, hdials⟩
  rw [← (names_of_serve hserve).points]
  exact htarget

/-- One connection, from the point 7. -/
theorem right_destination_one :
    ∃ cfg s, byteStackerOut loopback
        ["--external7=localhost:80".toList, "--trunk=127.0.0.1:9".toList] = .serve cfg ∧
      Transition.run System.step (.launch 0 0 cfg.trunk.length cfg.linkFabric)
        [.addConnect (.ofByte 1) 7 0 0, .toServer 0 0 ⟨[127, 0, 0, 1], 9000⟩ 0] = some s ∧
      s.server.base.objects.length = 1 ∧
      ∀ reg ∈ s.server.base.objects, reg.link.Dials ⟨"localhost", 80⟩ := by
  have hserve : byteStackerOut loopback
      ["--external7=localhost:80".toList, "--trunk=127.0.0.1:9".toList] =
        .serve ⟨⟨[(7, ⟨"localhost", 80⟩)], by simp⟩, [⟨[127, 0, 0, 1], 9⟩]⟩ := rfl
  have hrun : Transition.run System.step
      (.launch 0 0 1 (Configuration.linkFabric
        ⟨⟨[(7, ⟨"localhost", 80⟩)], by simp⟩, [⟨[127, 0, 0, 1], 9⟩]⟩))
      [.addConnect (.ofByte 1) 7 0 0, .toServer 0 0 ⟨[127, 0, 0, 1], 9000⟩ 0] = some _ := rfl
  refine ⟨_, _, hserve, hrun, by decide +kernel, fun reg hreg => ?_⟩
  obtain ⟨cnt, point, target, registered, cached, hadd, _, hnamed, hdials⟩ :=
    right_destination hserve hrun reg hreg
  obtain ⟨rfl, rfl, rfl, rfl⟩ : cnt = .ofByte 1 ∧ point = 7 ∧ registered = 0 ∧ cached = 0 := by
    simpa using hadd
  have htarget : (pointsNamed kExternalPrefix parseExternal loopback
      ["--external7=localhost:80".toList, "--trunk=127.0.0.1:9".toList]).reverse.lookup 7 =
        some ⟨"localhost", 80⟩ := rfl
  rw [← Option.some.inj (htarget.symm.trans hnamed)] at hdials
  exact hdials
