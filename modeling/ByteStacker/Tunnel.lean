import ByteStacker.AtMostOnce
import ByteStacker.Destination
import ByteStacker.GracefulEnd
import ByteStacker.Passage
import ByteStacker.Statistics

/-!
# The tunnel is a passage

Client, server and network together are, for each connection, the machine of
`Passage`: the chunks, packets, caches and timers in between cannot be told from a
queue of bytes in each direction.

* `streams_asio` and `streams_calm` — which operations of a side read and write;
* `Carries` — what is in the queue of the machine is what one side has read and the
  other has not written yet;
* `passage_simulation` — every event of the system is followed by the machine;
* `refines_passage` is the run.
-/

/-! ## The streams of a side -/

/-- What a link shows of its connection and its two streams. -/
def Registration.flow (reg : Registration) : Option ConnectID × Bytes × Bytes :=
  (reg.link.hoster, reg.link.readLog, reg.link.written)

/-- A new link has read and written nothing. -/
theorem flow_new (cnt : ConnectID) (point : Option AddressPortPoint) :
    Registration.flow { link := (newLink point).run cnt } = (some cnt, [], []) := by
  obtain ⟨hhoster, _, hread⟩ := run_newLink cnt point
  have hwritten : ((newLink point).run cnt).written = [] := by
    cases point with
    | none =>
        exact congrArg Prod.snd
          (OutLink.outside_startLoops { OutLink.createAccepted with hoster := some cnt })
    | some target => rfl
  simp only [Registration.flow, hhoster, hread, hwritten]

/-- Only asio events move the streams of a link. -/
theorem RegEvent.flow {op : TrunkOp} {reg reg' : Registration} (h : RegEvent op reg reg')
    (hop : ∀ k e now, op ≠ .asio k e now) : reg'.flow = reg.flow := by
  induction h with
  | same => rfl
  | quiet _ => exact absurd rfl (hop _ _ _)
  | read _ _ => exact absurd rfl (hop _ _ _)
  | closed _ _ => exact absurd rfl (hop _ _ _)
  | dropped _ _ => exact absurd rfl (hop _ _ _)
  | @handed reg _ packetIndex data _ _ _ =>
      have hlife := (reg.link.sameLife_sendData packetIndex data).1
      have hwritten := congrArg Prod.snd (reg.link.outside_sendData packetIndex data)
      exact Prod.ext hlife.hoster (Prod.ext hlife.readLog hwritten)
  | @released reg _ packetId _ _ =>
      have hlife := (reg.link.sameLife_stop packetId).1
      have hwritten := congrArg Prod.snd (reg.link.outside_stop packetId)
      exact Prod.ext hlife.hoster (Prod.ext hlife.readLog hwritten)
  | @dead reg reg' curt _ ih =>
      have hlife := (reg'.link.sameLife_stop 0).1
      have hwritten := congrArg Prod.snd (reg'.link.outside_stop 0)
      have hstop : (reg'.stop .deadLink).flow = reg'.flow :=
        Prod.ext hlife.hoster (Prod.ext hlife.readLog hwritten)
      exact hstop.trans (ih hop)

namespace TrunkLink

variable {t t' : TrunkLink} {op : TrunkOp} {c : ConnectID} {sent : List PacketInfo}

/-- What the side has read for a connection. -/
def readOf (t : TrunkLink) (c : ConnectID) : Bytes :=
  (t.linksOf c).flatMap fun reg => reg.link.readLog

/-- What the side has written for a connection. -/
def writtenOf (t : TrunkLink) (c : ConnectID) : Bytes :=
  (t.linksOf c).flatMap fun reg => reg.link.written

/-- The streams are read off the flows of the links. -/
theorem streams_of_flows (fresh : List (Option ConnectID × Bytes × Bytes))
    (hflows : t'.objects.map Registration.flow = t.objects.map Registration.flow ++ fresh)
    (hfresh : ∀ f ∈ fresh, f.2 = ([], [])) (c : ConnectID) :
    t'.readOf c = t.readOf c ∧ t'.writtenOf c = t.writtenOf c := by
  have hread : ∀ u : TrunkLink, u.readOf c =
      ((u.objects.map Registration.flow).filter fun f => f.1 = some c).flatMap fun f => f.2.1 := by
    intro u
    rw [readOf, linksOf, List.filter_map, List.flatMap_map]
    rfl
  have hwritten : ∀ u : TrunkLink, u.writtenOf c =
      ((u.objects.map Registration.flow).filter fun f => f.1 = some c).flatMap fun f => f.2.2 := by
    intro u
    rw [writtenOf, linksOf, List.filter_map, List.flatMap_map]
    rfl
  have hnoread : (fresh.filter fun f => f.1 = some c).flatMap (fun f => f.2.1) = [] :=
    List.flatMap_eq_nil_iff.mpr fun f hf => by rw [hfresh f (List.mem_of_mem_filter hf)]
  have hnowrite : (fresh.filter fun f => f.1 = some c).flatMap (fun f => f.2.2) = [] :=
    List.flatMap_eq_nil_iff.mpr fun f hf => by rw [hfresh f (List.mem_of_mem_filter hf)]
  rw [hread, hread, hwritten, hwritten, hflows, List.filter_append, List.flatMap_append,
    List.flatMap_append, hnoread, hnowrite, List.append_nil, List.append_nil]
  exact ⟨rfl, rfl⟩

/-- Operations without asio events move no stream. -/
theorem streams_calm (h : t.Inv) (happly : t.apply op = some (t', sent))
    (hop : ∀ k e now, op ≠ .asio k e now) (c : ConnectID) :
    t'.readOf c = t.readOf c ∧ t'.writtenOf c = t.writtenOf c := by
  cases hadd : op.added with
  | some cnt =>
      cases op with
      | add cnt point now =>
          simp only [apply] at happly
          split at happly
          · cases happly
          · cases happly
            refine streams_of_flows [(some cnt, [], [])] ?_ (by simp) c
            simp [intAddOutLink, flow_new]
      | _ => cases hadd
  | none =>
      have hlength : t'.objects.length = t.objects.length := by
        have hhosters := congrArg List.length (hosters_apply happly)
        simpa [hosters, hadd] using hhosters
      refine streams_of_flows [] ?_ (by simp) c
      rw [List.append_nil]
      refine List.ext_getElem? fun k => ?_
      rw [List.getElem?_map, List.getElem?_map]
      cases hreg : t.objects[k]? with
      | none =>
          have hout := List.getElem?_eq_none_iff.mp hreg
          rw [List.getElem?_eq_none_iff.mpr (hlength ▸ hout)]
      | some reg =>
          obtain ⟨reg', hreg', hevent⟩ := (evolves_apply h happly).kept k reg hreg
          rw [hreg', Option.map_some, Option.map_some, hevent.flow hop]

/-- **Operations other than asio events leave the streams as they are.** -/
theorem streams_acts {ops : List TrunkOp} (hacts : Acts t ops t' sent) (h : t.Inv)
    (hops : ∀ op ∈ ops, ∀ k e now, op ≠ .asio k e now) (c : ConnectID) :
    t'.readOf c = t.readOf c ∧ t'.writtenOf c = t.writtenOf c := by
  refine (hacts.invariant
    (I := fun u => u.Inv ∧ u.readOf c = t.readOf c ∧ u.writtenOf c = t.writtenOf c)
    (Q := fun op => ∀ k e now, op ≠ .asio k e now) hops ⟨h, rfl, rfl⟩ ?_).2
  intro u u' op sent hI hop happly
  obtain ⟨hu, hread, hwritten⟩ := hI
  obtain ⟨hread', hwritten'⟩ := streams_calm hu happly hop c
  exact ⟨hu.apply happly, hread'.trans hread, hwritten'.trans hwritten⟩

/-- Replacing a link object concerns the links of its connection only. -/
theorem linksOf_set {k : Nat} {reg reg' : Registration} (hreg : t.objects[k]? = some reg)
    (hset : t'.objects = t.objects.set k reg') (hhoster : reg'.link.hoster = reg.link.hoster)
    (c : ConnectID) : (reg.link.hoster ≠ some c → t'.linksOf c = t.linksOf c) ∧
      (reg.link.hoster = some c → (t.linksOf c).length ≤ 1 →
        t.linksOf c = [reg] ∧ t'.linksOf c = [reg']) := by
  obtain ⟨hk, hget⟩ := List.getElem?_eq_some_iff.mp hreg
  have hobjects : t.objects = t.objects.take k ++ reg :: t.objects.drop (k + 1) := by
    rw [← hget, List.getElem_cons_drop, List.take_append_drop]
  have hobjects' : t'.objects = t.objects.take k ++ reg' :: t.objects.drop (k + 1) := by
    rw [hset, List.set_eq_take_append_cons_drop, if_pos hk]
  refine ⟨fun hne => ?_, fun hcnt hone => ?_⟩
  · rw [linksOf, linksOf, hobjects', List.filter_append, List.filter_cons, hhoster]
    conv => rhs; rw [hobjects]
    simp [hne]
  · have hlinks : t.linksOf c = (t.objects.take k).filter (fun reg => reg.link.hoster = some c) ++
        reg :: (t.objects.drop (k + 1)).filter (fun reg => reg.link.hoster = some c) := by
      conv => lhs; rw [linksOf, hobjects]
      simp [hcnt]
    rw [hlinks, List.length_append, List.length_cons] at hone
    have hfront := List.eq_nil_of_length_eq_zero (by omega :
      ((t.objects.take k).filter fun reg => reg.link.hoster = some c).length = 0)
    have hback := List.eq_nil_of_length_eq_zero (by omega :
      ((t.objects.drop (k + 1)).filter fun reg => reg.link.hoster = some c).length = 0)
    refine ⟨by rw [hlinks, hfront, hback]; rfl, ?_⟩
    rw [linksOf, hobjects', List.filter_append, List.filter_cons, hfront, hback, hhoster]
    simp [hcnt]

/-- What an asio event of a side is for a connection: the block it reads from the
socket, or the block the socket takes. -/
def streamEvents (c : ConnectID) (put take : Direction) (t : TrunkLink) (k : Nat) (e : AsioEvent) :
    List (PassageEvent PointID AddressPortPoint UInt8) :=
  match t.objects[k]? with
  | none => []
  | some reg =>
    if reg.link.hoster = some c then
      match e with
      | .writeDone _ r => [.take take (reg.link.networkWriteBuffer.take r.transferred)]
      | _ =>
        match reg.link.asioStep e with
        | some (_, some (.sendData _ data)) => [.put put data]
        | _ => []
    else []

/-- **What an asio event does to the streams of a connection.** -/
inductive StreamMove (c : ConnectID) (put take : Direction) (t t' : TrunkLink) :
    List (PassageEvent PointID AddressPortPoint UInt8) → Prop
  | none (hread : t'.readOf c = t.readOf c) (hwritten : t'.writtenOf c = t.writtenOf c) :
      StreamMove c put take t t' []
  | put {data : Bytes} (hlink : t.linksOf c ≠ []) (hread : t'.readOf c = t.readOf c ++ data)
      (hwritten : t'.writtenOf c = t.writtenOf c) : StreamMove c put take t t' [.put put data]
  | take {data : Bytes} (hlink : t.linksOf c ≠ []) (hread : t'.readOf c = t.readOf c)
      (hwritten : t'.writtenOf c = t.writtenOf c ++ data) :
      StreamMove c put take t t' [.take take data]

/-- **An asio event moves the streams as its passage events say.** -/
theorem streams_asio (h : t.Inv) {k : Nat} {e : AsioEvent} {now : Time}
    (hone : (t.linksOf c).length ≤ 1) (hstep : t.asioStep k e now = some (t', sent))
    (put take : Direction) : StreamMove c put take t t' (t.streamEvents c put take k e) := by
  obtain ⟨reg, reg', call, hreg, hlink, hset⟩ := asio_object h hstep
  have hinv := h.sound reg (List.mem_of_getElem? hreg)
  have hhoster := (hinv.linkStep hlink).hoster
  obtain ⟨hother, hown⟩ := linksOf_set hreg hset hhoster c
  by_cases hcnt : reg.link.hoster = some c
  · obtain ⟨hbefore, hafter⟩ := hown hcnt hone
    have hread : t'.readOf c = t.readOf c ++ call.elim [] HosterCall.payload := by
      have hlog := OutLink.asioStep_readLog (by rw [hcnt]; rfl) hlink
      simpa [readOf, hbefore, hafter] using hlog
    have hwritten : t'.writtenOf c = t.writtenOf c ++ reg.link.writtenIn e := by
      simpa [writtenOf, hbefore, hafter] using OutLink.written_asioStep hlink
    have hlinks : t.linksOf c ≠ [] := by simp [hbefore]
    unfold streamEvents
    simp only [hreg, if_pos hcnt]
    by_cases hwrite : ∃ i r, e = .writeDone i r
    · obtain ⟨i, r, rfl⟩ := hwrite
      have hquiet : call = none := by
        generalize reg'.link = after at hlink
        cases OutLink.asioStep_outcome hlink
        rfl
      subst hquiet
      exact .take hlinks (by simpa using hread) hwritten
    · have hnone : reg.link.writtenIn e = [] := by
        cases e with
        | writeDone i r => exact absurd ⟨i, r, rfl⟩ hwrite
        | _ => rfl
      rw [hnone, List.append_nil] at hwritten
      cases e with
      | writeDone i r => exact absurd ⟨i, r, rfl⟩ hwrite
      | _ =>
          simp only [hlink]
          cases call with
          | none => exact .none (by simpa using hread) hwritten
          | some call =>
              cases call with
              | sendData cnt data => exact .put hlinks hread hwritten
              | closeConnect cnt => exact .none (by simpa [HosterCall.payload] using hread) hwritten
  · have hnone : t.streamEvents c put take k e = [] := by simp [streamEvents, hreg, hcnt]
    have hsame := hother hcnt
    rw [hnone]
    exact .none (by rw [readOf, readOf, hsame]) (by rw [writtenOf, writtenOf, hsame])

end TrunkLink

/-- What a side has written is the beginning of what the other has read. -/
theorem Linked.flow {a b : TrunkLink} {c : ConnectID} (h : Linked a b)
    (hnear : (a.linksOf c).length ≤ 1) (hfar : (b.linksOf c).length ≤ 1)
    (hcount : ∀ r ∈ a.linksOf c, r.allocated < 4294967294) :
    b.writtenOf c <+: a.readOf c := by
  match hlist : b.linksOf c with
  | [] => simp [TrunkLink.writtenOf, hlist]
  | [reg] =>
      have hwritten : b.writtenOf c = reg.link.written := by simp [TrunkLink.writtenOf, hlist]
      rw [hwritten]
      have hreg : reg ∈ b.linksOf c := hlist ▸ List.mem_singleton_self reg
      rcases h.stream hnear hcount hreg with hnone | ⟨r, hr, hbegins⟩
      · rw [hnone]
        exact List.nil_prefix
      · match hnearList : a.linksOf c with
        | [] => simp [hnearList] at hr
        | [own] =>
            rw [hnearList] at hr
            simpa [TrunkLink.readOf, hnearList, List.mem_singleton.mp hr] using hbegins
        | _ :: _ :: _ => simp [hnearList] at hnear
  | _ :: _ :: _ => simp [hlist] at hfar

/-! ## The refinement -/

namespace System

variable {s s' : System} {e : SystemEvent} {c : ConnectID}
  {fabric : PointID → Option AddressPortPoint}
  {p p' : Passage PointID AddressPortPoint UInt8}

/-- What an event of the system is for a connection. -/
def passageEvents (c : ConnectID) (s : System) (e : SystemEvent) :
    List (PassageEvent PointID AddressPortPoint UInt8) :=
  match e with
  | .addConnect cnt point _ _ => if cnt = c then [.accept point] else []
  | .clientAsio k ev _ => s.client.base.streamEvents c .up .down k ev
  | .serverAsio k ev _ => s.server.base.streamEvents c .down .up k ev
  | .toServer _ _ _ _ =>
    match s.serverCall e with
    | some (.processConnectData cnt pointId _) =>
      if cnt = c then (s.acceptedPoint cnt pointId).toList.map .dial else []
    | _ => []
  | _ => []

/-- No link of the connection has used up its packet indices. -/
def Indexed (c : ConnectID) (s : System) : Prop :=
  (∀ r ∈ s.client.base.linksOf c, r.allocated < 4294967294) ∧
    ∀ r ∈ s.server.base.linksOf c, r.allocated < 4294967294

instance (c : ConnectID) (s : System) : Decidable (Indexed c s) :=
  inferInstanceAs (Decidable (_ ∧ _))

/-- The id is generated once and never asked for late, and its links do not use up their
packet indices. -/
def Regular (c : ConnectID) (s : System) (e : SystemEvent) : Prop :=
  GeneratesOnce c s e ∧ NoLateCreate c s e ∧ ∀ s' ∈ s.step e, Indexed c s'

instance (c : ConnectID) (s : System) (e : SystemEvent) : Decidable (Regular c s e) :=
  inferInstanceAs (Decidable (_ ∧ _ ∧ _))

/-- **The system carries what is in the passage.** -/
structure Carries (c : ConnectID) (fabric : PointID → Option AddressPortPoint)
    (p : Passage PointID AddressPortPoint UInt8) (s : System) : Prop where
  destined : Destined (fun cnt point => cnt = c → p.accepted = some point) fabric s
  clientLinks : (s.client.base.linksOf c).length = p.accepted.toList.length
  serverLinks : (s.server.base.linksOf c).length = p.dialled.toList.length
  route : ∀ target, p.dialled = some target → p.accepted.bind fabric = some target
  up : s.client.base.readOf c = s.server.base.writtenOf c ++ p.queue .up
  down : s.server.base.readOf c = s.client.base.writtenOf c ++ p.queue .down

/-- An option is a list of one element at most. -/
theorem length_toList_le {α : Type*} (o : Option α) : o.toList.length ≤ 1 := by
  cases o with
  | none => exact Nat.zero_le 1
  | some a => exact Nat.le_refl 1

/-- More requests asked for keep every link destined. -/
theorem Destined.mono {asked asked' : ConnectID → PointID → Prop} (h : Destined asked fabric s)
    (hmore : ∀ cnt point, asked cnt point → asked' cnt point) : Destined asked' fabric s where
  inv := h.inv
  linkFabric := h.linkFabric
  cache := h.cache
  connects := by
    intro item hitem
    obtain ⟨call, hemitted, hasked⟩ := h.connects item hitem
    exact ⟨call, hemitted, fun cnt point timeout heq => hmore _ _ (hasked cnt point timeout heq)⟩
  up := by
    intro d hd
    obtain ⟨pkt, hdata, call, hemitted, hasked⟩ := h.up d hd
    exact ⟨pkt, hdata, call, hemitted, fun cnt point timeout heq =>
      hmore _ _ (hasked cnt point timeout heq)⟩
  links := by
    intro reg hreg
    obtain ⟨cnt, point, target, hcnt, hasked, hrest⟩ := h.links reg hreg
    exact ⟨cnt, point, target, hcnt, hmore _ _ hasked, hrest⟩

/-- The two ends of the passage are the links of the connection. -/
theorem Carries.ends (h : Carries c fabric p s) :
    (p.accepted.isSome = true ↔ s.client.base.linksOf c ≠ []) ∧
      (p.dialled.isSome = true ↔ s.server.base.linksOf c ≠ []) := by
  have hiff : ∀ {α : Type} {o : Option α} {xs : List Registration},
      xs.length = o.toList.length → (o.isSome = true ↔ xs ≠ []) := by
    intro α o xs hlength
    cases o with
    | none => simp [List.eq_nil_of_length_eq_zero hlength]
    | some a => simp [List.ne_nil_of_length_eq_add_one hlength]
  exact ⟨hiff h.clientLinks, hiff h.serverLinks⟩

/-- The relation after an event, but for the streams. -/
theorem Carries.after (h : Carries c fabric p s) (hstep : s.step e = some s')
    (hkeep : ∀ point, p.accepted = some point → p'.accepted = some point)
    (hadd : ∀ point registered cached, e = .addConnect c point registered cached →
      p'.accepted = some point)
    (haccepted : p'.accepted.toList.length =
      p.accepted.toList.length + (s.clientCreates e).toList.count c)
    (hdialled : p'.dialled.toList.length =
      p.dialled.toList.length + (s.serverCreates e).toList.count c)
    (hroute : ∀ target, p'.dialled = some target → p'.accepted.bind fabric = some target)
    (hup : s'.client.base.readOf c = s'.server.base.writtenOf c ++ p'.queue .up)
    (hdown : s'.server.base.readOf c = s'.client.base.writtenOf c ++ p'.queue .down) :
    Carries c fabric p' s' where
  destined := by
    have hmore : Destined (fun cnt point => cnt = c → p'.accepted = some point) fabric s :=
      h.destined.mono fun cnt point hasked hcnt => hkeep point (hasked hcnt)
    refine hmore.step (fun cnt point registered cached heq hcnt => ?_) hstep
    exact hadd point registered cached (hcnt ▸ heq)
  clientLinks := by
    rw [length_client_linksOf h.destined.inv hstep, h.clientLinks, haccepted]
  serverLinks := by
    rw [length_server_linksOf h.destined.inv hstep, h.serverLinks, hdialled]
  route := hroute
  up := hup
  down := hdown

/-- The machine follows an asio event of the side `near`. -/
theorem followed (fabric : PointID → Option AddressPortPoint) {near near' far : TrunkLink}
    {put take : Direction}
    {events : List (PassageEvent PointID AddressPortPoint UInt8)} (hne : put ≠ take)
    (hmove : TrunkLink.StreamMove c put take near near' events)
    (hends : near.linksOf c ≠ [] → p.source put = true ∧ p.sink take = true)
    (hput : near.readOf c = far.writtenOf c ++ p.queue put)
    (htake : far.readOf c = near.writtenOf c ++ p.queue take)
    (hbegins : near'.writtenOf c <+: far.readOf c) :
    ∃ p', Transition.run (Passage.step fabric) p events = some p' ∧ p'.accepted = p.accepted ∧
      p'.dialled = p.dialled ∧ near'.readOf c = far.writtenOf c ++ p'.queue put ∧
      far.readOf c = near'.writtenOf c ++ p'.queue take := by
  cases hmove with
  | none hread hwritten =>
      exact ⟨p, rfl, rfl, rfl, hread.trans hput, by rw [hwritten, htake]⟩
  | @put data hlink hread hwritten =>
      refine ⟨{ p with queue := Function.update p.queue put (p.queue put ++ data) }, ?_, rfl, rfl,
        ?_, ?_⟩
      · simp [Transition.run, Passage.step, (hends hlink).1]
      · simp [hread, hput]
      · simp [hwritten, htake, Function.update_of_ne hne.symm]
  | @take data hlink hread hwritten =>
      rw [hwritten, htake] at hbegins
      obtain ⟨rest, hrest⟩ := (List.prefix_append_right_inj _).mp hbegins
      refine ⟨{ p with queue := Function.update p.queue take ((p.queue take).drop data.length) },
        ?_, rfl, rfl, ?_, ?_⟩
      · simp [Transition.run, Passage.step, (hends hlink).2, ← hrest]
      · simp [hread, hput, Function.update_of_ne hne]
      · simp [hwritten, htake, ← hrest]

/-- Without an asio event of the client its streams stay as they are. -/
theorem client_calm (h : s.Inv) (hstep : s.step e = some s')
    (hasio : ∀ k ev now, e ≠ .clientAsio k ev now) (c : ConnectID) :
    s'.client.base.readOf c = s.client.base.readOf c ∧
      s'.client.base.writtenOf c = s.client.base.writtenOf c := by
  obtain ⟨clientSent, serverSent, heffect⟩ := step_effect hstep
  refine TrunkLink.streams_acts heffect.client h.linked.near (fun op hop k ev now heq => ?_) c
  exact hasio k ev now (clientOps_asio (heq ▸ hop))

/-- No event but the server's own sockets moves its streams. -/
theorem server_calm (h : s.Inv) (hstep : s.step e = some s')
    (hasio : ∀ k ev now, e ≠ .serverAsio k ev now) (c : ConnectID) :
    s'.server.base.readOf c = s.server.base.readOf c ∧
      s'.server.base.writtenOf c = s.server.base.writtenOf c := by
  obtain ⟨clientSent, serverSent, heffect⟩ := step_effect hstep
  refine TrunkLink.streams_acts heffect.server h.linked.far (fun op hop k ev now heq => ?_) c
  exact hasio k ev now (serverOps_asio (heq ▸ hop))

/-- An event that moves no stream is followed by what it does to the two ends. -/
theorem Carries.calm (h : Carries c fabric p s) (hstep : s.step e = some s')
    (hclient : ∀ k ev now, e ≠ .clientAsio k ev now)
    (hserver : ∀ k ev now, e ≠ .serverAsio k ev now) (hqueue : p'.queue = p.queue)
    (hkeep : ∀ point, p.accepted = some point → p'.accepted = some point)
    (hadd : ∀ point registered cached, e = .addConnect c point registered cached →
      p'.accepted = some point)
    (haccepted : p'.accepted.toList.length =
      p.accepted.toList.length + (s.clientCreates e).toList.count c)
    (hdialled : p'.dialled.toList.length =
      p.dialled.toList.length + (s.serverCreates e).toList.count c)
    (hroute : ∀ target, p'.dialled = some target → p'.accepted.bind fabric = some target) :
    Carries c fabric p' s' := by
  obtain ⟨hclientRead, hclientWritten⟩ := client_calm h.destined.inv hstep hclient c
  obtain ⟨hserverRead, hserverWritten⟩ := server_calm h.destined.inv hstep hserver c
  refine h.after hstep hkeep hadd haccepted hdialled hroute ?_ ?_
  · rw [hclientRead, hserverWritten, hqueue, h.up]
  · rw [hserverRead, hclientWritten, hqueue, h.down]

/-- Nothing happens to the passage. -/
theorem Carries.idle (h : Carries c fabric p s) (hstep : s.step e = some s')
    (hclient : ∀ k ev now, e ≠ .clientAsio k ev now)
    (hserver : ∀ k ev now, e ≠ .serverAsio k ev now)
    (hadd : ∀ point registered cached, e ≠ .addConnect c point registered cached)
    (hclientCreates : (s.clientCreates e).toList.count c = 0)
    (hserverCreates : (s.serverCreates e).toList.count c = 0) : Carries c fabric p s' :=
  h.calm hstep hclient hserver rfl (fun _ hpoint => hpoint)
    (fun point registered cached heq => absurd heq (hadd point registered cached))
    (by rw [hclientCreates, Nat.add_zero]) (by rw [hserverCreates, Nat.add_zero]) h.route

/-- A generated id is registered. -/
theorem Carries.accept (h : Carries c fabric p s) {point : PointID} {registered cached : Time}
    (hnone : s.client.base.linksOf c = [])
    (hstep : s.step (.addConnect c point registered cached) = some s') :
    p.accepted = none ∧ Carries c fabric { p with accepted := some point } s' := by
  have haccepted : p.accepted = none := by
    rw [← Option.not_isSome_iff_eq_none]
    exact fun hsome => h.ends.1.mp hsome hnone
  have hnew : s.client.base.getOutLink c = none := by
    cases hk : s.client.base.getOutLink c with
    | none => rfl
    | some k =>
        obtain ⟨reg, hreg, hcnt, _⟩ := h.destined.inv.linked.near.served hk
        have hmem := TrunkLink.mem_linksOf.mpr ⟨List.mem_of_getElem? hreg, hcnt⟩
        rw [hnone] at hmem
        cases hmem
  have hdialled : p.dialled = none := by
    cases hd : p.dialled with
    | none => rfl
    | some target =>
        have hroute := h.route target hd
        rw [haccepted] at hroute
        cases hroute
  refine ⟨haccepted, h.calm hstep (by simp) (by simp) rfl ?_ ?_ ?_ ?_ ?_⟩
  · intro point' hpoint'
    rw [haccepted] at hpoint'
    cases hpoint'
  · intro point' registered' cached' heq
    cases heq
    rfl
  · simp [haccepted, clientCreates, hnew]
  · rfl
  · intro target htarget
    rw [show ({ p with accepted := some point } : Passage _ _ _).dialled = p.dialled from rfl,
      hdialled] at htarget
    cases htarget

/-- A request that is accepted opens the other end where the point leads to. -/
theorem Carries.dial (h : Carries c fabric p s) {pointId : PointID} {timeout : UInt32}
    {target : AddressPortPoint} (hnone : s.server.base.linksOf c = [])
    (hcall : s.serverCall e = some (.processConnectData c pointId timeout))
    (htarget : s.acceptedPoint c pointId = some target) (hstep : s.step e = some s') :
    p.dialled = none ∧ p.accepted.bind fabric = some target ∧
      Carries c fabric { p with dialled := some target } s' := by
  have hdialled : p.dialled = none := by
    rw [← Option.not_isSome_iff_eq_none]
    exact fun hsome => h.ends.2.mp hsome hnone
  have hfabric : fabric pointId = some target := by
    unfold acceptedPoint at htarget
    split at htarget
    · cases htarget
    · exact h.destined.linkFabric ▸ htarget
  have hroute : p.accepted.bind fabric = some target := by
    rw [h.destined.request hcall rfl]
    exact hfabric
  have hcreates : s.serverCreates e = some c := by simp [serverCreates, hcall, htarget]
  have hother : ∀ {e'}, e = e' → s.serverCall e' ≠ none := by
    intro e' heq hno
    rw [← heq, hcall] at hno
    cases hno
  refine ⟨hdialled, hroute, h.calm hstep (fun k ev now heq => hother heq rfl)
    (fun k ev now heq => hother heq rfl) rfl (fun _ hpoint => hpoint)
    (fun point registered cached heq => absurd rfl (hother heq)) ?_ ?_ ?_⟩
  · cases e with
    | addConnect cnt point registered cached => exact absurd rfl (hother rfl)
    | _ => rfl
  · simp [hdialled, hcreates]
  · intro target' htarget'
    cases htarget'
    exact hroute

/-- An asio event of a link moves the streams of its connection. -/
theorem Carries.asio (h : Carries c fabric p s) (hindexed : Indexed c s')
    (hstep : s.step e = some s') {k : Nat} {ev : AsioEvent} {now : Time}
    (he : e = .clientAsio k ev now ∨ e = .serverAsio k ev now) :
    ∃ p', Transition.run (Passage.step fabric) p (passageEvents c s e) = some p' ∧
      Carries c fabric p' s' := by
  have hinv := h.destined.inv
  have hlinked := hinv.linked
  have hafter := (hinv.step hstep).linked
  obtain ⟨hclientEnd, hserverEnd⟩ := h.ends
  have hclientOne : (s.client.base.linksOf c).length ≤ 1 := h.clientLinks ▸ length_toList_le _
  have hserverOne : (s.server.base.linksOf c).length ≤ 1 := h.serverLinks ▸ length_toList_le _
  have hnoClient : s.clientCreates e = none := by rcases he with rfl | rfl <;> rfl
  have hnoServer : s.serverCreates e = none := by rcases he with rfl | rfl <;> rfl
  have hclientOne' : (s'.client.base.linksOf c).length ≤ 1 := by
    rw [length_client_linksOf hinv hstep, hnoClient]
    simpa using hclientOne
  have hserverOne' : (s'.server.base.linksOf c).length ≤ 1 := by
    rw [length_server_linksOf hinv hstep, hnoServer]
    simpa using hserverOne
  have hnoAdd : ∀ point registered cached, e ≠ .addConnect c point registered cached := by
    rcases he with rfl | rfl <;> simp
  -- what the two sides have after the event, given that the machine has followed it
  have hcarries : ∀ {p' : Passage PointID AddressPortPoint UInt8}, p'.accepted = p.accepted →
      p'.dialled = p.dialled →
      s'.client.base.readOf c = s'.server.base.writtenOf c ++ p'.queue .up →
      s'.server.base.readOf c = s'.client.base.writtenOf c ++ p'.queue .down →
      Carries c fabric p' s' := by
    intro p' haccepted hdialled hup hdown
    refine h.after hstep (fun point hpoint => haccepted.trans hpoint)
      (fun point registered cached heq => absurd heq (hnoAdd point registered cached)) ?_ ?_ ?_
      hup hdown
    · simp [haccepted, hnoClient]
    · simp [hdialled, hnoServer]
    · rw [haccepted, hdialled]
      exact h.route
  obtain ⟨clientSent, serverSent, heffect⟩ := step_effect hstep
  rcases he with rfl | rfl
  · obtain ⟨hread, hwritten⟩ := server_calm hinv hstep (by simp) c
    have hbegins := hafter.symm.flow hserverOne' hclientOne' hindexed.2
    rw [hread] at hbegins
    cases heffect.client with
    | cons happly hrest =>
        cases hrest with
        | nil =>
            have hmove := TrunkLink.streams_asio (c := c) hlinked.near hclientOne happly .up .down
            obtain ⟨p', hrun, haccepted, hdialled, hup, hdown⟩ := followed fabric (by simp) hmove
              (fun hlink => ⟨hclientEnd.mpr hlink, hclientEnd.mpr hlink⟩) h.up h.down hbegins
            exact ⟨p', hrun, hcarries haccepted hdialled (hwritten ▸ hup) (hread ▸ hdown)⟩
  · obtain ⟨hread, hwritten⟩ := client_calm hinv hstep (by simp) c
    have hbegins := hafter.flow hclientOne' hserverOne' hindexed.1
    rw [hread] at hbegins
    cases heffect.server with
    | cons happly hrest =>
        cases hrest with
        | nil =>
            have hmove := TrunkLink.streams_asio (c := c) hlinked.far hserverOne happly .down .up
            obtain ⟨p', hrun, haccepted, hdialled, hdown, hup⟩ := followed fabric (by simp) hmove
              (fun hlink => ⟨hserverEnd.mpr hlink, hserverEnd.mpr hlink⟩) h.down h.up hbegins
            exact ⟨p', hrun, hcarries haccepted hdialled (hread ▸ hup) (hwritten ▸ hdown)⟩

/-- A datagram is for the passage what the server creates for it. -/
theorem passageEvents_toServer (n index : Nat) (sender : Endpoint) (now : Time) :
    (∃ pointId timeout target, s.serverCall (.toServer n index sender now) =
        some (.processConnectData c pointId timeout) ∧ s.acceptedPoint c pointId = some target ∧
      s.serverCreates (.toServer n index sender now) = some c ∧
      passageEvents c s (.toServer n index sender now) = [.dial target]) ∨
    (s.serverCreates (.toServer n index sender now)).toList.count c = 0 ∧
      passageEvents c s (.toServer n index sender now) = [] := by
  simp only [passageEvents, serverCreates]
  cases s.serverCall (.toServer n index sender now) with
  | none => exact Or.inr ⟨rfl, rfl⟩
  | some call =>
      cases call with
      | processConnectData cnt pointId timeout =>
          simp only
          cases htarget : s.acceptedPoint cnt pointId with
          | none => exact Or.inr ⟨rfl, by simp⟩
          | some target =>
              by_cases hcnt : cnt = c
              · subst hcnt
                exact Or.inl ⟨pointId, timeout, target, rfl, htarget, rfl, by simp⟩
              · exact Or.inr ⟨by simp [hcnt], by simp [hcnt]⟩
      | _ => exact Or.inr ⟨rfl, rfl⟩

/-- **Every event is followed by the machine.** -/
theorem passage_simulation (c : ConnectID) (fabric : PointID → Option AddressPortPoint) :
    Transition.Simulation step (Regular c) (Passage.step fabric) (passageEvents c)
      (Carries c fabric) where
  step := by
    intro p s e s' h hregular hstep
    obtain ⟨hgen, hlate, hindexed⟩ := hregular
    cases e with
    | addConnect cnt point registered cached =>
        by_cases hcnt : cnt = c
        · subst hcnt
          obtain ⟨hnone, hcarries⟩ := h.accept (hgen rfl) hstep
          exact ⟨_, by simp [passageEvents, Transition.run, Passage.step, hnone], hcarries⟩
        · refine ⟨p, by simp [passageEvents, hcnt, Transition.run], ?_⟩
          refine h.idle hstep (by simp) (by simp) (by simp [hcnt]) ?_ rfl
          simp only [clientCreates]
          split
          · simp [hcnt]
          · rfl
    | clientAsio k ev now => exact h.asio (hindexed s' hstep) hstep (Or.inl rfl)
    | serverAsio k ev now => exact h.asio (hindexed s' hstep) hstep (Or.inr rfl)
    | toServer n index sender now =>
        rcases passageEvents_toServer (s := s) (c := c) n index sender now with
          ⟨pointId, timeout, target, hcall, htarget, hcreates, hevents⟩ | ⟨hcount, hevents⟩
        · obtain ⟨hdialled, hroute, hcarries⟩ := h.dial (hlate hcreates) hcall htarget hstep
          rw [hevents]
          exact ⟨_, by simp [Transition.run, Passage.step, hdialled, hroute], hcarries⟩
        · rw [hevents]
          exact ⟨p, rfl, h.idle hstep (by simp) (by simp) (by simp) rfl hcount⟩
    | clientTick live resend connects =>
        exact ⟨p, rfl, h.idle hstep (by simp) (by simp) (by simp) rfl rfl⟩
    | serverTick live resend =>
        exact ⟨p, rfl, h.idle hstep (by simp) (by simp) (by simp) rfl rfl⟩
    | toClient n now => exact ⟨p, rfl, h.idle hstep (by simp) (by simp) (by simp) rfl rfl⟩
    | getStat => exact ⟨p, rfl, h.idle hstep (by simp) (by simp) (by simp) rfl rfl⟩

/-- The launched system carries the empty passage. -/
theorem carries_launch (c : ConnectID) (clientTime serverTime : Time) (trunkSockets : Nat)
    (fabric : PointID → Option AddressPortPoint) :
    Carries c fabric {} (launch clientTime serverTime trunkSockets fabric) where
  destined := destined_launch clientTime serverTime trunkSockets
  clientLinks := rfl
  serverLinks := rfl
  route := fun _ htarget => by cases htarget
  up := rfl
  down := rfl

/-- **The tunnel is a passage.**  In every run in which the id of a connection is generated
once, no request for it is accepted late and no packet index runs out, what happens to the
sockets of the connection is a run of the machine: the server dials the target of the point
the client accepted it at, and in both directions each block a socket takes is what comes
next out of a queue of the bytes read at the other end. -/
theorem refines_passage {clientTime serverTime : Time} {trunkSockets : Nat}
    {es : List SystemEvent}
    (hregular : Transition.Always step (fun s e _ => Regular c s e)
      (launch clientTime serverTime trunkSockets fabric) es)
    (hrun : Transition.run step (launch clientTime serverTime trunkSockets fabric) es = some s) :
    ∃ trace p, trace = Transition.collect step (passageEvents c)
        (launch clientTime serverTime trunkSockets fabric) es ∧
      Transition.run (Passage.step fabric) {} trace = some p ∧ Carries c fabric p s ∧
      ∀ dir, Passage.takenOut dir trace <+: Passage.putIn dir trace := by
  obtain ⟨p, hp, hcarries⟩ := (passage_simulation c fabric).run
    (carries_launch c clientTime serverTime trunkSockets fabric) hregular hrun
  refine ⟨_, p, rfl, hp, hcarries, fun dir => ?_⟩
  have hfifo := Passage.fifo hp dir
  exact ⟨p.queue dir, hfifo.symm⟩

/-- Two blocks go through the passage, although their packets arrive in the wrong order and
one of them twice. -/
theorem refines_passage_swapped :
    ∃ s trace p, Transition.run step loopback upstreamSwapped = some s ∧
      trace = [.accept 7, .dial ⟨"localhost", 80⟩, .put .up [65], .put .up [66, 67],
        .take .up [65, 66, 67]] ∧
      Transition.run (Passage.step fun _ => some ⟨"localhost", 80⟩) {} trace = some p ∧
      Carries (.ofByte 1) (fun _ => some ⟨"localhost", 80⟩) p s := by
  have hregular : Transition.Always step (fun s e _ => Regular (.ofByte 1) s e)
      (launch 0 0 1 fun _ => some ⟨"localhost", 80⟩) upstreamSwapped := by decide +kernel
  have htrace : Transition.collect step (passageEvents (.ofByte 1))
      (launch 0 0 1 fun _ => some ⟨"localhost", 80⟩) upstreamSwapped =
        [.accept 7, .dial ⟨"localhost", 80⟩, .put .up [65], .put .up [66, 67],
          .take .up [65, 66, 67]] := by
    decide +kernel
  obtain ⟨s, hrun⟩ : ∃ s, Transition.run step
      (launch 0 0 1 fun _ => some ⟨"localhost", 80⟩) upstreamSwapped = some s :=
    Option.isSome_iff_exists.mp (by decide +kernel)
  obtain ⟨trace, p, rfl, hp, hcarries, _⟩ := refines_passage hregular hrun
  exact ⟨s, _, p, hrun, htrace, hp, hcarries⟩

end System
