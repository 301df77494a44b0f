import ByteStacker.TrunkCalls

/-!
# The packets of one registration

From `IntAddOutLinkWOLock` to `RemoveOutLink` a connection has an index counter,
and every call of `SendData` or `CloseConnect` for it takes one index, except for
chunks that are too long.  `heard` lists these calls; the closing one is the last.

* `one_release_last` — as long as the counter keeps clear of `kBadPacketIndex`,
  the packets created are those of the calls heard, numbered from zero, so that
  one Release comes last; afterwards nothing more is created.
* `made_iff_count` — the counter gives out `kBadPacketIndex` as the index number
  2³²-2, and the chunk that gets it is dropped.
-/

namespace TrunkLink

open Transition

variable {t t' : TrunkLink} {cnt : ConnectID}

/-- The calls `SendCmdData` numbers for one registration: chunks that are not too
long, and the first close. -/
def heard : List HosterCall → List HosterCall
  | [] => []
  | .sendData cnt data :: rest =>
    if data.length > kMaxChunkSize then heard rest else .sendData cnt data :: heard rest
  | .closeConnect cnt :: _ => [.closeConnect cnt]

/-- The packets of the calls, numbered from `n` on. -/
def numbered (serverSide : Bool) (n : Nat) (calls : List HosterCall) : List PacketInfo :=
  (calls.zipIdx n).map fun call => call.1.packet serverSide (UInt32.ofNat call.2)

/-- The connection is not registered anew. -/
def NoAdd (cnt : ConnectID) (e : TrunkCall) : Prop :=
  ∀ point now, e ≠ .op (.add cnt point now)

/-! ## One event -/

/-- Events without a call leave the counters alone, unless they register. -/
theorem nextIndex_quiet {e : TrunkCall} {pkts : List PacketInfo} (hcmd : t.cmdCall e = none)
    (hadd : NoAdd cnt e) (hcall : t.call e = some (t', pkts)) :
    t'.nextIndex cnt = t.nextIndex cnt := by
  cases call_quiet hcmd hcall with
  | kept _ hkeys _ _ _ _ => exact nextIndex_of_keys hkeys
  | @added other point now _ =>
      have hne : ¬ other = cnt := fun heq => hadd point now (by rw [heq])
      simp [nextIndex, findOutLink, intAddOutLink, hne]

/-- **What an event does for another connection**: nothing. -/
theorem nextIndex_other {e : TrunkCall} {pkts : List PacketInfo}
    (hother : callsOf cnt t e = []) (hadd : NoAdd cnt e)
    (hcall : t.call e = some (t', pkts)) :
    t'.nextIndex cnt = t.nextIndex cnt ∧ createdOf cnt t e = [] := by
  cases hcmd : t.cmdCall e with
  | none => exact ⟨nextIndex_quiet hcmd hadd hcall, by simp [createdOf, hcmd]⟩
  | some call =>
      have hne : call.cnt ≠ cnt := by simpa [callsOf, hcmd] using hother
      obtain ⟨objects, _, hresult⟩ := call_result hcmd hcall
      have hcreated : createdOf cnt t e = pkts.filter fun pkt => pkt.ctxId = cnt := by
        simp [createdOf, hcmd, hcall]
      rw [hcreated]
      cases hresult with
      | refused counter _ => exact ⟨rfl, rfl⟩
      | dropped _ _ _ hbook =>
          refine ⟨?_, rfl⟩
          rw [nextIndex, findOutLink, hbook.outLinks, find_entries_ne hne]
          rfl
      | made _ _ _ hbook =>
          refine ⟨?_, by simp [HosterCall.packet_ctxId, hne]⟩
          rw [nextIndex, findOutLink, hbook.outLinks, find_entries_ne hne]
          rfl

/-- **What a call does for its connection**, registered with the index `index`. -/
inductive OwnOutcome (t : TrunkLink) (call : HosterCall) (index : UInt32) :
    TrunkLink → List PacketInfo → Prop
  | tooLong {t' : TrunkLink} (hsize : call.payload.length > kMaxChunkSize)
      (hindex : t'.nextIndex call.cnt = some index) : OwnOutcome t call index t' []
  | dropped {t' : TrunkLink} (hsize : call.payload.length ≤ kMaxChunkSize)
      (hbad : index = kBadPacketIndex) (hindex : t'.nextIndex call.cnt = indexAfter index call) :
      OwnOutcome t call index t' []
  | made {t' : TrunkLink} (now : Time) (hsize : call.payload.length ≤ kMaxChunkSize)
      (hgood : index ≠ kBadPacketIndex) (hindex : t'.nextIndex call.cnt = indexAfter index call)
      (hcache : t'.packetDataCache =
        t.packetDataCache ++ [.start (call.packet t.serverSide index) now]) :
      OwnOutcome t call index t' [call.packet t.serverSide index]

/-- **A call of a registered connection has one of these outcomes.** -/
theorem call_own {e : TrunkCall} {call : HosterCall} {index : UInt32} {pkts : List PacketInfo}
    (hcmd : t.cmdCall e = some call) (hindex : t.nextIndex call.cnt = some index)
    (hcall : t.call e = some (t', pkts)) : OwnOutcome t call index t' pkts := by
  obtain ⟨item, hitem, rfl⟩ := Option.map_eq_some_iff.mp hindex
  obtain ⟨objects, _, hresult⟩ := call_result hcmd hcall
  cases hresult with
  | refused counter hwhy =>
      rcases hwhy with hnone | hlong
      · exact absurd (hitem.symm.trans hnone) (by simp)
      · exact .tooLong hlong hindex
  | dropped hfind hsize hbad hbook =>
      obtain rfl := Option.some.inj (hitem.symm.trans hfind)
      exact .dropped hsize hbad (nextIndex_entries hitem hbook.outLinks)
  | made hfind hsize hgood hbook =>
      obtain rfl := Option.some.inj (hitem.symm.trans hfind)
      exact .made e.time hsize hgood (nextIndex_entries hitem hbook.outLinks) hbook.packetDataCache

/-- **A connection that is not registered stays so, and nothing is created for it.** -/
theorem nextIndex_unknown {e : TrunkCall} {pkts : List PacketInfo}
    (hnone : t.nextIndex cnt = none) (hadd : NoAdd cnt e) (hcall : t.call e = some (t', pkts)) :
    t'.nextIndex cnt = none ∧ createdOf cnt t e = [] := by
  by_cases hother : callsOf cnt t e = []
  · obtain ⟨hindex, hcreated⟩ := nextIndex_other hother hadd hcall
    exact ⟨hindex.trans hnone, hcreated⟩
  · obtain ⟨call, hcmd, rfl⟩ : ∃ call, t.cmdCall e = some call ∧ call.cnt = cnt := by
      cases hcmd : t.cmdCall e with
      | none => simp [callsOf, hcmd] at hother
      | some call => exact ⟨call, rfl, by simpa [callsOf, hcmd] using hother⟩
    have hfind : t.findOutLink call.cnt = none := by simpa [nextIndex] using hnone
    obtain ⟨objects, _, hresult⟩ := call_result hcmd hcall
    cases hresult with
    | refused counter _ => exact ⟨hnone, by simp [createdOf, hcmd, hcall]⟩
    | dropped hsome _ _ _ => exact absurd (hfind.symm.trans hsome) (by simp)
    | made hsome _ _ _ => exact absurd (hfind.symm.trans hsome) (by simp)

/-! ## A run -/

/-- A new registration counts from zero. -/
theorem nextIndex_added (hnew : t.getOutLink cnt = none) (link : OutLink) (now : Time) :
    (t.intAddOutLink cnt link now).nextIndex cnt = some (UInt32.ofNat 0) := by
  have hfind : (t.outLinks.find? fun item => item.connectId = cnt) = none := by
    simpa [getOutLink, findOutLink] using hnew
  simp [nextIndex, findOutLink, intAddOutLink, hfind]

/-- A step is a call that happens. -/
theorem callStep_call {e : TrunkCall} (h : t.callStep e = some t') :
    ∃ pkts, t.call e = some (t', pkts) := by
  obtain ⟨⟨m, pkts⟩, hcall, rfl⟩ := Option.map_eq_some_iff.mp h
  exact ⟨pkts, hcall⟩

/-- An event either makes no call for the connection or exactly one. -/
theorem callsOf_cases (cnt : ConnectID) (t : TrunkLink) (e : TrunkCall) :
    callsOf cnt t e = [] ∨
      ∃ call, t.cmdCall e = some call ∧ call.cnt = cnt ∧ callsOf cnt t e = [call] := by
  cases hcmd : t.cmdCall e with
  | none => exact Or.inl (by simp [callsOf, hcmd])
  | some call =>
      by_cases hcnt : call.cnt = cnt
      · exact Or.inr ⟨call, rfl, hcnt, by simp [callsOf, hcmd, hcnt]⟩
      · exact Or.inl (by simp [callsOf, hcmd, hcnt])

/-- Nothing is created for a connection that is not registered. -/
theorem created_unknown {es : List TrunkCall} (hnone : t.nextIndex cnt = none)
    (hadd : ∀ e ∈ es, NoAdd cnt e) (hrun : run callStep t es = some t') :
    collect callStep (createdOf cnt) t es = [] := by
  induction es generalizing t with
  | nil => rfl
  | cons e es ih =>
      obtain ⟨m, hm, hrest⟩ := run_cons.mp hrun
      obtain ⟨pkts, hcall⟩ := callStep_call hm
      obtain ⟨hnone', hcreated⟩ := nextIndex_unknown hnone (hadd e List.mem_cons_self) hcall
      rw [collect_cons hm, hcreated, List.nil_append]
      exact ih hnone' (fun f hf => hadd f (List.mem_cons_of_mem e hf)) hrest

/-- Below the sentinel an index number is no sentinel. -/
theorem index_good {n : Nat} (hn : n < 4294967294) : UInt32.ofNat n ≠ kBadPacketIndex :=
  allocated_lt (by omega)

/-- **What is created**: the calls heard, numbered on from the counter. -/
theorem created_numbered {es : List TrunkCall} {n : Nat}
    (hindex : t.nextIndex cnt = some (UInt32.ofNat n)) (hadd : ∀ e ∈ es, NoAdd cnt e)
    (hrun : run callStep t es = some t')
    (hroom : n + (heard (collect callStep (callsOf cnt) t es)).length ≤ 4294967294) :
    collect callStep (createdOf cnt) t es =
      numbered t.serverSide n (heard (collect callStep (callsOf cnt) t es)) := by
  induction es generalizing t n with
  | nil => rfl
  | cons e es ih =>
      obtain ⟨m, hm, hrest⟩ := run_cons.mp hrun
      obtain ⟨pkts, hcall⟩ := callStep_call hm
      have hside := call_serverSide hcall
      have htail : ∀ f ∈ es, NoAdd cnt f := fun f hf => hadd f (List.mem_cons_of_mem e hf)
      rw [collect_cons hm, collect_cons hm] at *
      rcases callsOf_cases cnt t e with hother | ⟨call, hcmd, rfl, hone⟩
      · obtain ⟨hsame, hcreated⟩ := nextIndex_other hother (hadd e List.mem_cons_self) hcall
        rw [hother, List.nil_append] at hroom ⊢
        rw [hcreated, List.nil_append, ← hside]
        exact ih (hsame.trans hindex) htail hrest hroom
      · have hcreated : createdOf call.cnt t e = pkts.filter fun pkt => pkt.ctxId = call.cnt := by
          simp [createdOf, hcmd, hcall]
        rw [hone] at hroom ⊢
        rw [hcreated]
        cases call_own hcmd hindex hcall with
        | tooLong hsize hindex' =>
            cases call with
            | closeConnect cnt => exact absurd hsize (by simp [HosterCall.payload])
            | sendData cnt data =>
                have hlong : data.length > kMaxChunkSize := hsize
                simp only [List.singleton_append, heard, if_pos hlong, List.filter_nil,
                  List.nil_append] at hroom ⊢
                rw [← hside]
                exact ih hindex' htail hrest hroom
        | dropped hsize hbad hindex' =>
            -- the counter would have to be at the sentinel already
            have hlt : n < 4294967294 := by
              cases call with
              | closeConnect cnt =>
                  simp only [List.singleton_append, heard, List.length_singleton] at hroom
                  omega
              | sendData cnt data =>
                  have hfit : ¬ data.length > kMaxChunkSize := Nat.not_lt.mpr hsize
                  simp only [List.singleton_append, heard, if_neg hfit, List.length_cons] at hroom
                  omega
            exact absurd hbad (index_good hlt)
        | made now hsize hgood hindex' _ =>
            have hmine : [call.packet t.serverSide (UInt32.ofNat n)].filter
                (fun pkt => pkt.ctxId = call.cnt) =
                [call.packet t.serverSide (UInt32.ofNat n)] := by
              simp [HosterCall.packet_ctxId]
            rw [hmine]
            cases call with
            | closeConnect cnt =>
                simp only [List.singleton_append, heard]
                rw [created_unknown hindex' htail hrest]
                simp [numbered]
            | sendData cnt data =>
                have hfit : ¬ data.length > kMaxChunkSize := Nat.not_lt.mpr hsize
                simp only [List.singleton_append, heard, if_neg hfit, List.length_cons] at hroom ⊢
                have hnext : m.nextIndex cnt = some (UInt32.ofNat (n + 1)) := by
                  rw [show cnt = (HosterCall.sendData cnt data).cnt from rfl, hindex']
                  simp [indexAfter]
                rw [ih hnext htail hrest (by omega), hside]
                simp [numbered]

/-! ## One Release, last -/

/-- The chunks `SendCmdData` accepts before the first close. -/
def chunks : List HosterCall → List Bytes
  | [] => []
  | .sendData _ data :: rest =>
    if data.length > kMaxChunkSize then chunks rest else data :: chunks rest
  | .closeConnect _ :: _ => []

/-- The data packets of the chunks, numbered from zero. -/
def dataPackets (serverSide : Bool) (cnt : ConnectID) (datas : List Bytes) : List PacketInfo :=
  datas.zipIdx.map fun data =>
    dataPacket cnt data.1 (dataCommand serverSide) (UInt32.ofNat data.2)

/-- The calls heard are the chunks, and the close if there is one. -/
theorem heard_eq {calls : List HosterCall} (hcnt : ∀ call ∈ calls, call.cnt = cnt) :
    heard calls = (chunks calls).map (HosterCall.sendData cnt) ++
      if .closeConnect cnt ∈ calls then [.closeConnect cnt] else [] := by
  induction calls with
  | nil => rfl
  | cons call rest ih =>
      have hrest := ih fun c hc => hcnt c (List.mem_cons_of_mem call hc)
      have hid := hcnt call List.mem_cons_self
      cases call with
      | sendData other data =>
          have hid : other = cnt := hid
          subst hid
          by_cases hlong : data.length > kMaxChunkSize
          · simpa [heard, chunks, hlong] using hrest
          · simpa [heard, chunks, hlong] using hrest
      | closeConnect other =>
          have hid : other = cnt := hid
          subst hid
          simp [heard, chunks]

/-- The calls of a connection carry its id. -/
theorem callsOf_cnt {es : List TrunkCall} :
    ∀ call ∈ collect callStep (callsOf cnt) t es, call.cnt = cnt := by
  induction es generalizing t with
  | nil => simp [collect]
  | cons e es ih =>
      intro call hcall
      rcases List.mem_append.mp hcall with hcall | hcall
      · simpa using (List.mem_filter.mp hcall).2
      · cases hm : t.callStep e with
        | none => simp [hm] at hcall
        | some m => exact ih call (by simpa [hm] using hcall)

/-- The numbered calls are the data packets followed by the Release. -/
theorem numbered_eq (serverSide : Bool) {calls : List HosterCall}
    (hcnt : ∀ call ∈ calls, call.cnt = cnt) :
    numbered serverSide 0 (heard calls) = dataPackets serverSide cnt (chunks calls) ++
      if .closeConnect cnt ∈ calls then
        [dataPacket cnt [] .releaseConnect (UInt32.ofNat (chunks calls).length)]
      else [] := by
  rw [heard_eq hcnt, numbered, List.zipIdx_append, List.map_append, List.zipIdx_map]
  congr 1
  · simp [dataPackets, HosterCall.packet]
  · by_cases hclose : HosterCall.closeConnect cnt ∈ calls
    · simp [hclose, HosterCall.packet]
    · simp [hclose]

/-- A close takes the connection out of the list. -/
theorem nextIndex_closed {es : List TrunkCall} (hadd : ∀ e ∈ es, NoAdd cnt e)
    (hrun : run callStep t es = some t')
    (hclosed : t.nextIndex cnt = none ∨
      .closeConnect cnt ∈ collect callStep (callsOf cnt) t es) : t'.nextIndex cnt = none := by
  induction es generalizing t with
  | nil =>
      cases hrun
      exact hclosed.resolve_right (by simp [collect])
  | cons e es ih =>
      obtain ⟨m, hm, hrest⟩ := run_cons.mp hrun
      obtain ⟨pkts, hcall⟩ := callStep_call hm
      refine ih (fun f hf => hadd f (List.mem_cons_of_mem e hf)) hrest ?_
      cases hindex : t.nextIndex cnt with
      | none => exact Or.inl (nextIndex_unknown hindex (hadd e List.mem_cons_self) hcall).1
      | some index =>
          have hmem := hclosed.resolve_left (by simp [hindex])
          rw [collect_cons hm] at hmem
          rcases List.mem_append.mp hmem with hmem | hmem
          · have hcmd : t.cmdCall e = some (.closeConnect cnt) := by
              simpa [callsOf] using (List.mem_filter.mp hmem).1
            refine Or.inl ?_
            cases call_own hcmd hindex hcall with
            | tooLong hsize _ => exact absurd hsize (by simp [HosterCall.payload])
            | dropped _ _ hindex' => exact hindex'
            | made _ _ _ hindex' _ => exact hindex'
          · exact Or.inr hmem

/-- **One Release, last.**  Let a connection be registered in `t` and let `es` be
any events after that up to its next registration.  If fewer than 2³²-2 indices
are given out, the packets created for it are its chunks in the order of the
calls, numbered from zero, and after the first close one Release whose index is
their number.  From then on calls for it create nothing and change neither the
caches nor the links, and no close ever takes a packet out of the cache. -/
theorem one_release_last {t start t' : TrunkLink} {cnt : ConnectID} {link : OutLink} {now : Time}
    {es : List TrunkCall} {calls : List HosterCall}
    (hnew : t.getOutLink cnt = none) (hstart : start = t.intAddOutLink cnt link now)
    (hadd : ∀ e ∈ es, NoAdd cnt e) (hrun : run callStep start es = some t')
    (hcalls : calls = collect callStep (callsOf cnt) start es)
    (hroom : (heard calls).length < 4294967294) :
    (collect callStep (createdOf cnt) start es =
      dataPackets t.serverSide cnt (chunks calls) ++
        if .closeConnect cnt ∈ calls then
          [dataPacket cnt [] .releaseConnect (UInt32.ofNat (chunks calls).length)]
        else []) ∧
    (.closeConnect cnt ∈ calls → t'.getOutLink cnt = none) ∧
    (∀ (s : TrunkLink) (data : Bytes) (now : Time), s.getOutLink cnt = none →
      s.closeConnect cnt now = (s, []) ∧
      s.sendData cnt data now =
        ({ s with inStreamCounter := s.inStreamCounter + UInt64.ofNat data.length }, [])) ∧
    (∀ (s : TrunkLink) (other : ConnectID) (now : Time),
      s.packetDataCache <+: (s.closeConnect other now).1.packetDataCache) := by
  subst hstart hcalls
  have hcnt : ∀ call ∈ collect callStep (callsOf cnt) (t.intAddOutLink cnt link now) es,
      call.cnt = cnt := callsOf_cnt
  have hindex := nextIndex_added hnew link now
  refine ⟨?_, fun hclose => ?_, fun s data now hnone => ?_, fun s other now => ?_⟩
  · rw [created_numbered hindex hadd hrun (by omega), numbered_eq _ hcnt]
    rfl
  · have hnone := nextIndex_closed hadd hrun (Or.inr hclose)
    simpa [nextIndex, getOutLink] using hnone
  · have hfind : s.findOutLink cnt = none := by simpa [getOutLink] using hnone
    refine ⟨?_, ?_⟩
    · simp only [closeConnect, sendDisconnectInformation, sendCmdData_unknown hfind,
        removeOutLink, filter_unknown hfind]
    · rw [sendData, sendCmdData_unknown (t := { s with
        inStreamCounter := s.inStreamCounter + UInt64.ofNat data.length }) hfind]
  · have hresult := hosterCall_result s now (.closeConnect other)
    change CmdResult s _ now (s.closeConnect other now).1 (s.closeConnect other now).2 at hresult
    generalize (s.closeConnect other now).1 = after at hresult ⊢
    generalize (s.closeConnect other now).2 = pkts at hresult
    cases hresult with
    | refused counter _ => exact List.prefix_rfl
    | dropped _ _ _ hbook => exact hbook.packetDataCache ▸ List.prefix_rfl
    | made _ _ _ hbook => exact hbook.packetDataCache ▸ List.prefix_append _ _

/-- One chunk and two closes. -/
theorem one_release_last_twice :
    ∃ t', run callStep ((create true 0).intAddOutLink (.ofByte 1) .createAccepted 0)
        [.sendData (.ofByte 1) [65] 0, .closeConnect (.ofByte 1) 0,
          .closeConnect (.ofByte 1) 0] = some t' ∧
      collect callStep (createdOf (.ofByte 1))
          ((create true 0).intAddOutLink (.ofByte 1) .createAccepted 0)
          [.sendData (.ofByte 1) [65] 0, .closeConnect (.ofByte 1) 0,
            .closeConnect (.ofByte 1) 0] =
        [dataPacket (.ofByte 1) [65] .dataIn 0, dataPacket (.ofByte 1) [] .releaseConnect 1] ∧
      t'.getOutLink (.ofByte 1) = none := by
  refine ⟨_, rfl, ?_⟩
  have hnew : (create true 0).getOutLink (.ofByte 1) = none := rfl
  have hrun : run callStep ((create true 0).intAddOutLink (.ofByte 1) .createAccepted 0)
      [.sendData (.ofByte 1) [65] 0, .closeConnect (.ofByte 1) 0,
        .closeConnect (.ofByte 1) 0] = some _ := rfl
  have h := one_release_last hnew rfl (by simp [NoAdd]) hrun rfl (by decide +kernel)
  exact ⟨h.1, h.2.1 (by decide +kernel)⟩

/-! ## The sentinel among the indices -/

/-- The event drops no call for the connection: if the connection is registered
and the chunk is not too long, a packet is cached and sent, its index is not the
one that stands for "unknown connection", and the index of a Release is not the
one that stands for "no stop". -/
def Made (cnt : ConnectID) (s : TrunkLink) (e : TrunkCall) (s' : TrunkLink) : Prop :=
  ∀ call, s.cmdCall e = some call → call.cnt = cnt → s.getOutLink cnt ≠ none →
    call.payload.length ≤ kMaxChunkSize →
    ∃ pkt now, s.call e = some (s', [pkt]) ∧
      s'.packetDataCache = s.packetDataCache ++ [.start pkt now] ∧ pkt.ctxId = cnt ∧
      pkt.packetId ≠ kBadPacketIndex ∧
      (call = .closeConnect cnt → pkt.packetId ≠ OutLink.kUndefinedChunkID)

/-- No call is dropped for a connection that is not registered. -/
theorem made_unknown {es : List TrunkCall} (hnone : t.nextIndex cnt = none)
    (hadd : ∀ e ∈ es, NoAdd cnt e) : Always callStep (Made cnt) t es := by
  induction es generalizing t with
  | nil => trivial
  | cons e es ih =>
      intro m hm
      obtain ⟨pkts, hcall⟩ := callStep_call hm
      have hnone' := (nextIndex_unknown hnone (hadd e List.mem_cons_self) hcall).1
      refine ⟨?_, ih hnone' fun f hf => hadd f (List.mem_cons_of_mem e hf)⟩
      intro call _ _ hreg _
      exact absurd (by simpa [nextIndex, getOutLink] using hnone) hreg

/-- Along a list, the first event and the rest. -/
theorem made_cons {e : TrunkCall} {es : List TrunkCall} {m : TrunkLink}
    (hm : t.callStep e = some m) :
    Always callStep (Made cnt) t (e :: es) ↔
      Made cnt t e m ∧ Always callStep (Made cnt) m es := by
  refine ⟨fun h => h m hm, fun h m' hm' => ?_⟩
  obtain rfl := Option.some.inj (hm.symm.trans hm')
  exact h

/-- An event without a call of the connection makes it no packet. -/
theorem made_other {e : TrunkCall} {m : TrunkLink} (hother : callsOf cnt t e = []) :
    Made cnt t e m := by
  intro call hcmd hcnt _ _
  simp [callsOf, hcmd, hcnt] at hother

/-- **A call is dropped exactly at the sentinel.** -/
theorem made_iff_index {e : TrunkCall} {call : HosterCall} {n : Nat} {pkts : List PacketInfo}
    (hn : n ≤ 4294967294) (hcmd : t.cmdCall e = some call)
    (hindex : t.nextIndex call.cnt = some (UInt32.ofNat n))
    (hsize : call.payload.length ≤ kMaxChunkSize) (hcall : t.call e = some (t', pkts)) :
    Made call.cnt t e t' ↔ n < 4294967294 := by
  have hreg : t.getOutLink call.cnt ≠ none := by
    intro hnone
    have hfind : t.findOutLink call.cnt = none := by simpa [getOutLink] using hnone
    simp [nextIndex, hfind] at hindex
  cases call_own hcmd hindex hcall with
  | tooLong hlong _ => exact absurd hsize (Nat.not_le.mpr hlong)
  | dropped _ hbad _ =>
      refine ⟨fun h => ?_, fun hlt => absurd hbad (index_good hlt)⟩
      obtain ⟨pkt, now, hsent, _⟩ := h call hcmd rfl hreg hsize
      simp [hcall] at hsent
  | made now _ hgood _ hcache =>
      have hlt : n < 4294967294 := by
        refine Nat.lt_of_le_of_ne hn fun heq => hgood ?_
        rw [heq]
        rfl
      refine ⟨fun _ => hlt, fun _ => ?_⟩
      intro call' hcmd' _ _ _
      obtain rfl := Option.some.inj (hcmd.symm.trans hcmd')
      refine ⟨_, now, hcall, hcache, call.packet_ctxId _ _, ?_, fun _ => ?_⟩
      · rwa [call.packet_packetId]
      · rw [call.packet_packetId]
        intro heq
        have hnat := congrArg UInt32.toNat heq
        rw [OutLink.index_toNat (by omega)] at hnat
        simp only [OutLink.kUndefinedChunkID, UInt32.reduceToNat] at hnat
        omega

/-- The counter behind a call that takes an index. -/
theorem nextIndex_heard {e : TrunkCall} {call : HosterCall} {index : UInt32}
    {pkts : List PacketInfo} (hcmd : t.cmdCall e = some call)
    (hindex : t.nextIndex call.cnt = some index) (hsize : call.payload.length ≤ kMaxChunkSize)
    (hcall : t.call e = some (t', pkts)) : t'.nextIndex call.cnt = indexAfter index call := by
  cases call_own hcmd hindex hcall with
  | tooLong hlong _ => exact absurd hsize (Nat.not_le.mpr hlong)
  | dropped _ _ hindex' => exact hindex'
  | made _ _ _ hindex' _ => exact hindex'

/-- **The calls heard are counted by the sentinel.**  With `n` indices given out
before, no call of the run is dropped exactly if the calls heard stay within the
indices below the sentinel. -/
theorem made_iff_room {es : List TrunkCall} {n : Nat} (hn : n ≤ 4294967294)
    (hindex : t.nextIndex cnt = some (UInt32.ofNat n)) (hadd : ∀ e ∈ es, NoAdd cnt e)
    (hrun : run callStep t es = some t') :
    Always callStep (Made cnt) t es ↔
      n + (heard (collect callStep (callsOf cnt) t es)).length ≤ 4294967294 := by
  induction es generalizing t n with
  | nil => simpa [collect, heard, Always] using hn
  | cons e es ih =>
      obtain ⟨m, hm, hrest⟩ := run_cons.mp hrun
      obtain ⟨pkts, hcall⟩ := callStep_call hm
      have htail : ∀ f ∈ es, NoAdd cnt f := fun f hf => hadd f (List.mem_cons_of_mem e hf)
      rw [made_cons hm, collect_cons hm]
      rcases callsOf_cases cnt t e with hother | ⟨call, hcmd, hid, hone⟩
      · have hsame := (nextIndex_other hother (hadd e List.mem_cons_self) hcall).1
        rw [hother, List.nil_append, ← ih hn (hsame.trans hindex) htail hrest]
        exact ⟨And.right, fun h => ⟨made_other hother, h⟩⟩
      · rw [hone]
        cases call with
        | closeConnect other =>
            obtain rfl : other = cnt := hid
            have hmade := made_iff_index hn hcmd hindex (Nat.zero_le _) hcall
            have hnone := nextIndex_heard hcmd hindex (Nat.zero_le _) hcall
            simp only [List.singleton_append, heard, List.length_singleton]
            exact ⟨fun h => hmade.mp h.1, fun hle => ⟨hmade.mpr hle, made_unknown hnone htail⟩⟩
        | sendData other data =>
            obtain rfl : other = cnt := hid
            by_cases hlong : data.length > kMaxChunkSize
            · have hsame : m.nextIndex other = some (UInt32.ofNat n) := by
                cases call_own hcmd hindex hcall with
                | tooLong _ hindex' => exact hindex'
                | dropped hsize _ _ => exact absurd hsize (Nat.not_le.mpr hlong)
                | made _ hsize _ _ _ => exact absurd hsize (Nat.not_le.mpr hlong)
              have hmade : Made other t e m := by
                intro call' hcmd' _ _ hsize
                obtain rfl := Option.some.inj (hcmd.symm.trans hcmd')
                exact absurd hlong (Nat.not_lt.mpr hsize)
              simp only [List.singleton_append, heard, if_pos hlong]
              rw [← ih hn hsame htail hrest]
              exact ⟨And.right, fun h => ⟨hmade, h⟩⟩
            · have hsize : data.length ≤ kMaxChunkSize := Nat.not_lt.mp hlong
              have hmade : Made other t e m ↔ n < 4294967294 :=
                made_iff_index hn hcmd hindex hsize hcall
              have hnext : m.nextIndex other = some (UInt32.ofNat (n + 1)) := by
                have hafter := nextIndex_heard hcmd hindex hsize hcall
                simpa [HosterCall.cnt, indexAfter] using hafter
              simp only [List.singleton_append, heard, if_neg hlong, List.length_cons]
              rw [← Nat.add_assoc, Nat.add_right_comm, hmade]
              refine ⟨fun h => (ih (by omega) hnext htail hrest).mp h.2, fun hle => ?_⟩
              have hlt : n < 4294967294 := by omega
              exact ⟨hlt, (ih hlt hnext htail hrest).mpr hle⟩

/-- **No chunk is dropped as long as at most 2³²-2 indices are given out**, and
only so long: along the events after the registration of a connection, up to its
next one, no chunk and no Release is dropped or takes an index that means
something else if and only if at most 2³²-2 calls are heard. -/
theorem made_iff_count {start : TrunkLink} {link : OutLink} {now : Time} {es : List TrunkCall}
    (hnew : t.getOutLink cnt = none) (hstart : start = t.intAddOutLink cnt link now)
    (hadd : ∀ e ∈ es, NoAdd cnt e) (hrun : run callStep start es = some t') :
    Always callStep (Made cnt) start es ↔
      (heard (collect callStep (callsOf cnt) start es)).length ≤ 4294967294 := by
  subst hstart
  have h := made_iff_room (Nat.zero_le _) (nextIndex_added hnew link now) hadd hrun
  rwa [Nat.zero_add] at h

/-- Chunks handed over one after the other are all heard. -/
theorem heard_replicate {data : Bytes} (hsize : data.length ≤ kMaxChunkSize) (k : Nat)
    (now : Time) (t : TrunkLink) :
    ∃ t', run callStep t (List.replicate k (.sendData cnt data now)) = some t' ∧
      (heard (collect callStep (callsOf cnt) t
        (List.replicate k (.sendData cnt data now)))).length = k := by
  induction k generalizing t with
  | zero => exact ⟨t, rfl, rfl⟩
  | succ k ih =>
      have hm : t.callStep (.sendData cnt data now) = some (t.sendData cnt data now).1 := rfl
      obtain ⟨t', hrun, hlength⟩ := ih (t.sendData cnt data now).1
      rw [List.replicate_succ]
      refine ⟨t', run_cons.mpr ⟨_, hm, hrun⟩, ?_⟩
      have hone : callsOf cnt t (.sendData cnt data now) = [.sendData cnt data] := by
        simp [callsOf, cmdCall, HosterCall.cnt]
      rw [collect_cons hm, hone, List.singleton_append, heard, if_neg (Nat.not_lt.mpr hsize),
        List.length_cons, hlength]

/-- The chunk number 2³²-1 gets the index that stands for "unknown connection"
and is dropped, although its connection is registered. -/
theorem chunk_dropped_at_sentinel :
    ∃ t', run callStep ((create true 0).intAddOutLink (.ofByte 1) .createAccepted 0)
        (List.replicate 4294967295 (.sendData (.ofByte 1) [65] 0)) = some t' ∧
      ¬ Always callStep (Made (.ofByte 1))
        ((create true 0).intAddOutLink (.ofByte 1) .createAccepted 0)
        (List.replicate 4294967295 (.sendData (.ofByte 1) [65] 0)) := by
  obtain ⟨t', hrun, hlength⟩ := @heard_replicate (.ofByte 1) [65] (by decide)
    4294967295 0 ((create true 0).intAddOutLink (.ofByte 1) .createAccepted 0)
  refine ⟨t', hrun, fun hmade => ?_⟩
  have hnew : (create true 0).getOutLink (.ofByte 1) = none := rfl
  have hindex := nextIndex_added hnew .createAccepted 0
  have hadd : ∀ e ∈ List.replicate 4294967295 (TrunkCall.sendData (.ofByte 1) [65] 0),
      NoAdd (.ofByte 1) e := by
    intro e he
    rw [List.eq_of_mem_replicate he]
    exact fun _ _ => by simp
  have hroom := (made_iff_room (Nat.zero_le _) hindex hadd hrun).mp hmade
  rw [hlength] at hroom
  omega

/-- A chunk and the Release of one registration, in this order. -/
theorem made_iff_count_twice :
    Always callStep (Made (.ofByte 1))
      ((create true 0).intAddOutLink (.ofByte 1) .createAccepted 0)
      [.sendData (.ofByte 1) [65] 0, .closeConnect (.ofByte 1) 0] := by
  have hnew : (create true 0).getOutLink (.ofByte 1) = none := rfl
  have hrun : run callStep ((create true 0).intAddOutLink (.ofByte 1) .createAccepted 0)
      [.sendData (.ofByte 1) [65] 0, .closeConnect (.ofByte 1) 0] = some _ := rfl
  exact (made_iff_count hnew rfl (by simp [NoAdd]) hrun).mpr (by decide +kernel)

end TrunkLink
