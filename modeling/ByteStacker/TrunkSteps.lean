import Mathlib.Data.List.Basic
import ByteStacker.Registrations
import ByteStacker.Wire

/-!
# What one operation does to a trunk side

`TrunkLink.Inv` is the bookkeeping of the registrations: ids are registered once,
an open link is registered, an entry counts the indices given out for its link.
Under it `asioStep_result` says what a link's calls do to the trunk,
`evolves_apply` that every operation changes link objects by the events of
`RegEvent` only, and `Inv.apply` that the bookkeeping survives it.
-/

/-! ## The list of registered connections -/

namespace TrunkLink

variable {t t' : TrunkLink} {cnt : ConnectID} {xs : List OutLinkInfo}

/-- Counting a packet keeps the ids and the links of the entries. -/
theorem map_connectId_countIndex (cnt : ConnectID) (xs : List OutLinkInfo) :
    (countIndex cnt xs).map OutLinkInfo.connectId = xs.map OutLinkInfo.connectId := by
  induction xs with
  | nil => rfl
  | cons x rest ih =>
      unfold countIndex
      split
      · rfl
      · simp [ih]

theorem map_link_countIndex (cnt : ConnectID) (xs : List OutLinkInfo) :
    (countIndex cnt xs).map OutLinkInfo.link = xs.map OutLinkInfo.link := by
  induction xs with
  | nil => rfl
  | cons x rest ih =>
      unfold countIndex
      split
      · rfl
      · simp [ih]

/-- Counting an index concerns the registration of the id only. -/
theorem mem_countIndex (hids : (xs.map OutLinkInfo.connectId).Nodup) {item' : OutLinkInfo}
    (h : item' ∈ countIndex cnt xs) :
    (item' ∈ xs ∧ item'.connectId ≠ cnt) ∨
      ∃ item ∈ xs, item.connectId = cnt ∧
        item' = { item with nextIndexToTrunk := item.nextIndexToTrunk + 1 } := by
  induction xs with
  | nil => simp [countIndex] at h
  | cons x rest ih =>
      obtain ⟨hx, hrest⟩ := List.nodup_cons.mp hids
      unfold countIndex at h
      split at h
      · rename_i heq
        rcases List.mem_cons.mp h with rfl | h
        · exact Or.inr ⟨x, List.mem_cons_self, heq, rfl⟩
        · refine Or.inl ⟨List.mem_cons_of_mem _ h, fun hid => hx ?_⟩
          exact heq.trans hid.symm ▸ List.mem_map_of_mem h
      · rename_i hne
        rcases List.mem_cons.mp h with rfl | h
        · exact Or.inl ⟨List.mem_cons_self, hne⟩
        · rcases ih hrest h with ⟨hmem, hid⟩ | ⟨item, hmem, hid, heq⟩
          · exact Or.inl ⟨List.mem_cons_of_mem _ hmem, hid⟩
          · exact Or.inr ⟨item, List.mem_cons_of_mem _ hmem, hid, heq⟩

/-- It changes no entry of another connection. -/
theorem filter_countIndex (cnt : ConnectID) (xs : List OutLinkInfo) :
    (countIndex cnt xs).filter (fun item => ¬ cnt = item.connectId) =
      xs.filter (fun item => ¬ cnt = item.connectId) := by
  induction xs with
  | nil => rfl
  | cons x rest ih =>
      unfold countIndex
      split
      · rename_i heq
        simp [heq]
      · simp only [List.filter_cons, ih]

/-- It raises the counter of its own entry. -/
theorem find_countIndex (cnt : ConnectID) (xs : List OutLinkInfo) :
    ((countIndex cnt xs).find? fun item => item.connectId = cnt) =
      (xs.find? fun item => item.connectId = cnt).map fun item =>
        { item with nextIndexToTrunk := item.nextIndexToTrunk + 1 } := by
  induction xs with
  | nil => rfl
  | cons x rest ih =>
      unfold countIndex
      split
      · rename_i heq
        simp [heq]
      · rename_i hne
        simpa [hne] using ih

theorem find_countIndex_ne {other : ConnectID} (hne : other ≠ cnt) (xs : List OutLinkInfo) :
    ((countIndex other xs).find? fun item => item.connectId = cnt) =
      xs.find? fun item => item.connectId = cnt := by
  induction xs with
  | nil => rfl
  | cons x rest ih =>
      unfold countIndex
      split
      · rename_i heq
        simp [heq, hne]
      · simp only [List.find?_cons, ih]

/-- With ids registered once, a registration is found by its id. -/
theorem find_of_mem (hids : (xs.map OutLinkInfo.connectId).Nodup) {item : OutLinkInfo}
    (h : item ∈ xs) : (xs.find? fun x => x.connectId = item.connectId) = some item := by
  induction xs with
  | nil => simp at h
  | cons x rest ih =>
      obtain ⟨hx, hrest⟩ := List.nodup_cons.mp hids
      rcases List.mem_cons.mp h with rfl | h
      · simp
      · have hne : x.connectId ≠ item.connectId := by
          intro heq
          exact hx (heq ▸ List.mem_map_of_mem h)
        simpa [hne] using ih hrest h

/-- A change in place is the new value in place. -/
theorem modify_eq_set {α : Type} {ys : List α} {k : Nat} {y : α} (f : α → α)
    (h : ys[k]? = some y) : ys.modify k f = ys.set k (f y) := by
  apply List.ext_getElem?
  intro j
  rw [List.getElem?_modify, List.getElem?_set]
  by_cases hj : k = j
  · subst hj
    obtain ⟨hk, hval⟩ := List.getElem?_eq_some_iff.mp h
    simp [hk, hval]
  · simp [hj]

/-! ## The bookkeeping -/

/-- The entry of a registered link. -/
structure Serves (item : OutLinkInfo) (reg : Registration) : Prop where
  hoster : reg.link.hoster = some item.connectId
  unclosed : reg.link.closeInvoked = false
  index : item.nextIndexToTrunk = UInt32.ofNat reg.allocated

/-- **Bookkeeping.**  Ids are registered once, every entry serves an open link,
every open link has an entry. -/
structure Inv (t : TrunkLink) : Prop where
  sound : ∀ reg ∈ t.objects, reg.Inv
  ids : (t.outLinks.map OutLinkInfo.connectId).Nodup
  entries : ∀ item ∈ t.outLinks, ∃ reg, t.objects[item.link]? = some reg ∧ Serves item reg
  alive : ∀ k reg, t.objects[k]? = some reg → reg.link.closeInvoked = false →
    ∃ item ∈ t.outLinks, item.link = k

/-- An open link is found by its id. -/
theorem Inv.found (h : t.Inv) {k : Nat} {reg : Registration} (hreg : t.objects[k]? = some reg)
    (hopen : reg.link.closeInvoked = false) (hcnt : reg.link.hoster = some cnt) :
    ∃ item ∈ t.outLinks, t.findOutLink cnt = some item ∧ item.link = k ∧ item.connectId = cnt ∧
      item.nextIndexToTrunk = UInt32.ofNat reg.allocated := by
  obtain ⟨item, hmem, hlink⟩ := h.alive k reg hreg hopen
  obtain ⟨reg', hreg', hserves⟩ := h.entries item hmem
  rw [hlink, hreg] at hreg'
  cases hreg'
  have hid : item.connectId = cnt := Option.some.inj (hserves.hoster.symm.trans hcnt)
  exact ⟨item, hmem, hid ▸ find_of_mem h.ids hmem, hlink, hid, hserves.index⟩

/-- What is found by an id is an open link of that id. -/
theorem Inv.served (h : t.Inv) {k : Nat} (hfind : t.getOutLink cnt = some k) :
    ∃ reg, t.objects[k]? = some reg ∧ reg.link.hoster = some cnt ∧
      reg.link.closeInvoked = false := by
  obtain ⟨item, hitem, hlink⟩ := Option.map_eq_some_iff.mp hfind
  have hmem := List.mem_of_find?_eq_some hitem
  have hid : item.connectId = cnt := by simpa using List.find?_some hitem
  obtain ⟨reg, hreg, hserves⟩ := h.entries item hmem
  exact ⟨reg, hlink ▸ hreg, hid ▸ hserves.hoster, hserves.unclosed⟩

/-- Two open links of one id are the same. -/
theorem Inv.unique (h : t.Inv) {j k : Nat} {x y : Registration} (hx : t.objects[j]? = some x)
    (hy : t.objects[k]? = some y) (hox : x.link.closeInvoked = false)
    (hoy : y.link.closeInvoked = false) (hcx : x.link.hoster = some cnt)
    (hcy : y.link.hoster = some cnt) : j = k := by
  obtain ⟨item, _, hfx, hlx, _⟩ := h.found hx hox hcx
  obtain ⟨item', _, hfy, hly, _⟩ := h.found hy hoy hcy
  rw [hfx] at hfy
  cases hfy
  exact hlx.symm.trans hly

/-! ## An asio event of a link -/

/-- `SendCmdData` for a registered connection, and a chunk that is not too long. -/
theorem sendCmdData_found {item : OutLinkInfo} {reg : Registration} {data : Bytes}
    (hfind : t.findOutLink cnt = some item) (hreg : t.objects[item.link]? = some reg)
    (hsize : data.length ≤ kMaxChunkSize) (cmd : TrunkCommand) (now : Time) :
    t.sendCmdData cnt data cmd now =
      if item.nextIndexToTrunk = kBadPacketIndex then
        ({ t with
            outLinks := countIndex cnt t.outLinks
            objects := t.objects.set item.link reg.allocate }, [])
      else
        ({ t with
            outLinks := countIndex cnt t.outLinks
            packetDataCache := t.packetDataCache ++
              [.start (dataPacket cnt data cmd item.nextIndexToTrunk) now]
            objects := t.objects.set item.link
              (reg.allocate.create cmd item.nextIndexToTrunk data) },
          [dataPacket cnt data cmd item.nextIndexToTrunk]) := by
  have hfit : ¬ data.length > kMaxChunkSize := by omega
  have hnext : t.getNextPacketIndex cnt = (item.nextIndexToTrunk, { t with
      outLinks := countIndex cnt t.outLinks
      objects := t.objects.set item.link reg.allocate }) := by
    simp only [getNextPacketIndex, hfind, modifyObject, modify_eq_set _ hreg]
  rw [sendCmdData, if_neg hfit, hnext]
  by_cases hbad : item.nextIndexToTrunk = kBadPacketIndex
  · simp only [if_pos hbad]
  · simp only [if_neg hbad]
    have hlink : ∀ cache, ({ t with
        outLinks := countIndex cnt t.outLinks
        packetDataCache := cache
        objects := t.objects.set item.link reg.allocate } : TrunkLink).getOutLink cnt =
          some item.link := by
      intro cache
      have hsame := find_countIndex cnt t.outLinks
      rw [show (t.outLinks.find? fun item => item.connectId = cnt) = some item from hfind] at hsame
      simp only [getOutLink, findOutLink, hsame, Option.map_some]
    have hk : item.link < t.objects.length := (List.getElem?_eq_some_iff.mp hreg).1
    have hreg' : (t.objects.set item.link reg.allocate)[item.link]? = some reg.allocate := by
      simp [hk]
    simp only [recordCreated, hlink, modifyObject, modify_eq_set _ hreg', List.set_set]

/-- The data command of a side creates a data packet. -/
theorem create_dataCommand (reg : Registration) (serverSide : Bool) (pktIndex : UInt32)
    (data : Bytes) : reg.create (dataCommand serverSide) pktIndex data =
      { reg with created := reg.created ++ [(pktIndex, data)] } := by
  cases serverSide <;> rfl

/-- The packet a side makes of a block read from a link. -/
def readPacket (t : TrunkLink) (cnt : ConnectID) (data : Bytes) (index : UInt32) : PacketInfo :=
  dataPacket cnt data (dataCommand t.serverSide) index

/-- **The ways an asio event of link `k` can change a trunk side.** -/
inductive AsioResult (t : TrunkLink) (k : Nat) (e : AsioEvent) (now : Time) :
    TrunkLink → List PacketInfo → Prop
  | quiet {reg : Registration} {link : OutLink} (hreg : t.objects[k]? = some reg)
      (hstep : reg.link.asioStep e = some (link, none)) :
      AsioResult t k e now { t with objects := t.objects.set k { reg with link := link } } []
  | read {reg : Registration} {link : OutLink} {cnt : ConnectID} {data : Bytes}
      (hreg : t.objects[k]? = some reg)
      (hstep : reg.link.asioStep e = some (link, some (.sendData cnt data)))
      (hsize : data.length ≤ kMaxChunkSize)
      (hgood : UInt32.ofNat reg.allocated ≠ kBadPacketIndex) :
      AsioResult t k e now
        { t with
          inStreamCounter := t.inStreamCounter + UInt64.ofNat data.length
          outLinks := countIndex cnt t.outLinks
          packetDataCache := t.packetDataCache ++
            [.start (t.readPacket cnt data (UInt32.ofNat reg.allocated)) now]
          objects := t.objects.set k { reg with
            link := link
            allocated := reg.allocated + 1
            created := reg.created ++ [(UInt32.ofNat reg.allocated, data)] } }
        [t.readPacket cnt data (UInt32.ofNat reg.allocated)]
  | readDropped {reg : Registration} {link : OutLink} {cnt : ConnectID} {data : Bytes}
      (hreg : t.objects[k]? = some reg)
      (hstep : reg.link.asioStep e = some (link, some (.sendData cnt data)))
      (hbad : UInt32.ofNat reg.allocated = kBadPacketIndex) :
      AsioResult t k e now
        { t with
          inStreamCounter := t.inStreamCounter + UInt64.ofNat data.length
          outLinks := countIndex cnt t.outLinks
          objects := t.objects.set k { reg with link := link, allocated := reg.allocated + 1 } } []
  | closed {reg : Registration} {link : OutLink} {cnt : ConnectID}
      (hreg : t.objects[k]? = some reg)
      (hstep : reg.link.asioStep e = some (link, some (.closeConnect cnt)))
      (hgood : UInt32.ofNat reg.allocated ≠ kBadPacketIndex) :
      AsioResult t k e now
        { t with
          outLinks := t.outLinks.filter fun item => ¬ cnt = item.connectId
          packetDataCache := t.packetDataCache ++
            [.start (dataPacket cnt [] .releaseConnect (UInt32.ofNat reg.allocated)) now]
          objects := t.objects.set k { reg with
            link := link
            allocated := reg.allocated + 1
            released := reg.released ++ [UInt32.ofNat reg.allocated] } }
        [dataPacket cnt [] .releaseConnect (UInt32.ofNat reg.allocated)]
  | closedDropped {reg : Registration} {link : OutLink} {cnt : ConnectID}
      (hreg : t.objects[k]? = some reg)
      (hstep : reg.link.asioStep e = some (link, some (.closeConnect cnt)))
      (hbad : UInt32.ofNat reg.allocated = kBadPacketIndex) :
      AsioResult t k e now
        { t with
          outLinks := t.outLinks.filter fun item => ¬ cnt = item.connectId
          objects := t.objects.set k { reg with link := link, allocated := reg.allocated + 1 } } []

/-- **What a link's event does to its trunk side.** -/
theorem asioStep_result (h : t.Inv) {k : Nat} {e : AsioEvent} {now : Time}
    {pkts : List PacketInfo} (hstep : t.asioStep k e now = some (t', pkts)) :
    AsioResult t k e now t' pkts := by
  unfold asioStep at hstep
  split at hstep
  · cases hstep
  · rename_i reg hreg
    split at hstep
    · cases hstep
    · rename_i link call hlink
      have hstep := Option.some.inj hstep
      have hmem : reg ∈ t.objects := List.mem_of_getElem? hreg
      have hl := (h.sound reg hmem).linkStep hlink
      have hk : k < t.objects.length := (List.getElem?_eq_some_iff.mp hreg).1
      -- the link object is replaced first, which keeps the entries
      have hset : t.modifyObject k (fun reg => { reg with link := link }) =
          { t with objects := t.objects.set k { reg with link := link } } := by
        rw [modifyObject, modify_eq_set _ hreg]
      rw [hset] at hstep
      cases hl.outcome with
      | quiet _ _ =>
          cases hstep
          exact .quiet hreg hlink
      | read cnt data hcnt hsize hopen _ _ =>
          obtain ⟨item, hitem, hfind, hlinkk, hid, hindex⟩ := h.found hreg hopen hcnt
          have hfit : data.length ≤ kMaxChunkSize := hsize
          have hreg' : (t.objects.set k { reg with link := link })[item.link]? =
              some { reg with link := link } := by
            simp [hlinkk, hk]
          have heq := sendCmdData_found
            (t := { t with
              objects := t.objects.set k { reg with link := link }
              inStreamCounter := t.inStreamCounter + UInt64.ofNat data.length })
            hfind hreg' hfit (dataCommand t.serverSide) now
          rw [create_dataCommand] at heq
          have hdata : (if t.serverSide then TrunkCommand.dataIn else .dataOut) =
              dataCommand t.serverSide := rfl
          simp only [hosterCall, sendData, hdata, heq, hindex] at hstep
          by_cases hbad : UInt32.ofNat reg.allocated = kBadPacketIndex
          · rw [if_pos hbad] at hstep
            cases hstep
            simp only [hlinkk, List.set_set]
            exact @AsioResult.readDropped t k e now reg link cnt data hreg hlink hbad
          · rw [if_neg hbad] at hstep
            cases hstep
            simp only [hlinkk, List.set_set]
            exact .read hreg hlink hfit hbad
      | closed cnt hcnt hopen _ _ =>
          obtain ⟨item, hitem, hfind, hlinkk, hid, hindex⟩ := h.found hreg hopen hcnt
          have hreg' : (t.objects.set k { reg with link := link })[item.link]? =
              some { reg with link := link } := by
            simp [hlinkk, hk]
          have heq := sendCmdData_found
            (t := { t with objects := t.objects.set k { reg with link := link } })
            hfind hreg' (show ([] : Bytes).length ≤ kMaxChunkSize from Nat.zero_le _)
            .releaseConnect now
          rw [hosterCall, closeConnect, sendDisconnectInformation, heq, hindex] at hstep
          by_cases hbad : UInt32.ofNat reg.allocated = kBadPacketIndex
          · rw [if_pos hbad] at hstep
            cases hstep
            simp only [removeOutLink, filter_countIndex, hlinkk, List.set_set]
            exact @AsioResult.closedDropped t k e now reg link cnt hreg hlink hbad
          · rw [if_neg hbad] at hstep
            cases hstep
            simp only [removeOutLink, filter_countIndex, hlinkk, List.set_set]
            exact .closed hreg hlink hbad

/-! ## Every operation -/

/-- The link objects before and after an operation: each stays where it is and
changes by one of the events; a new one comes only with a new connection. -/
structure Evolves (op : TrunkOp) (t t' : TrunkLink) : Prop where
  kept : ∀ (k : Nat) (reg : Registration), t.objects[k]? = some reg →
    ∃ reg', t'.objects[k]? = some reg' ∧ RegEvent op reg reg'
  fresh : ∀ (k : Nat) (reg' : Registration), t'.objects[k]? = some reg' → k < t.objects.length ∨
    ∃ cnt point now, op = .add cnt point now ∧ reg' = { link := (newLink point).run cnt }

/-- **Every link object was there before, or is the new one of a registration.** -/
theorem Evolves.back {op : TrunkOp} (h : Evolves op t t') {k : Nat} {reg' : Registration}
    (hreg' : t'.objects[k]? = some reg') :
    (∃ reg, t.objects[k]? = some reg ∧ RegEvent op reg reg') ∨
      ∃ cnt point now, op = .add cnt point now ∧ reg' = { link := (newLink point).run cnt } := by
  rcases h.fresh k reg' hreg' with hlt | hnew
  · obtain ⟨reg'', hreg'', hevent⟩ := h.kept k t.objects[k] (List.getElem?_eq_getElem hlt)
    rw [hreg'] at hreg''
    cases hreg''
    exact Or.inl ⟨t.objects[k], List.getElem?_eq_getElem hlt, hevent⟩
  · exact Or.inr hnew

/-- Objects left alone evolve. -/
theorem Evolves.same {op : TrunkOp} (hobjects : t'.objects = t.objects) : Evolves op t t' where
  kept := fun _ reg hreg => ⟨reg, hobjects ▸ hreg, .same⟩
  fresh := fun _ _ hreg' => Or.inl (List.getElem?_eq_some_iff.mp (hobjects ▸ hreg')).1

/-- Objects of which an event changes one evolve. -/
theorem Evolves.modify {op : TrunkOp} {k : Nat} {f : Registration → Registration}
    (hobjects : t'.objects = t.objects.modify k f)
    (hevent : ∀ reg, t.objects[k]? = some reg → RegEvent op reg (f reg)) : Evolves op t t' where
  kept := by
    intro j reg hreg
    rw [hobjects, List.getElem?_modify, hreg]
    by_cases hj : k = j
    · subst hj
      exact ⟨f reg, by simp, hevent reg hreg⟩
    · exact ⟨reg, by simp [hj], .same⟩
  fresh := by
    intro j reg' hreg'
    have hlt := (List.getElem?_eq_some_iff.mp hreg').1
    rw [hobjects, List.length_modify] at hlt
    exact Or.inl hlt

theorem Evolves.set {op : TrunkOp} {k : Nat} {reg reg' : Registration}
    (hreg : t.objects[k]? = some reg) (hobjects : t'.objects = t.objects.set k reg')
    (hevent : RegEvent op reg reg') : Evolves op t t' := by
  refine Evolves.modify (k := k) (f := fun _ => reg')
    (hobjects.trans (modify_eq_set (fun _ => reg') hreg).symm) ?_
  intro r hr
  rw [hreg] at hr
  cases hr
  exact hevent

/-- What a heartbeat does to a link in two steps it does in one. -/
theorem live_trans {curt : Time} {a b c : Registration} (hab : RegEvent (.live curt) a b)
    (hbc : RegEvent (.live curt) b c) : RegEvent (.live curt) a c := by
  generalize hop : TrunkOp.live curt = op at hab hbc
  induction hbc with
  | same => exact hab
  | quiet _ => cases hop
  | read _ _ => cases hop
  | closed _ _ => cases hop
  | dropped _ _ => cases hop
  | handed _ _ => cases hop
  | released _ => cases hop
  | dead _ ih => exact .dead (ih hop hab)

/-- The loop over the links makes the objects evolve. -/
theorem evolves_liveLoop {curt : Time} (items : List OutLinkInfo) (t : TrunkLink) :
    Evolves (.live curt) t (liveLoop curt items t).1 := by
  induction items generalizing t with
  | nil => exact .same rfl
  | cons item rest ih =>
      unfold liveLoop
      split
      · have hstop : Evolves (.live curt) t
            (t.modifyObject item.link fun reg => reg.stop .deadLink) :=
          .modify rfl fun reg _ => .dead .same
        have hrest := ih (t.modifyObject item.link fun reg => reg.stop .deadLink)
        constructor
        · intro k reg hreg
          obtain ⟨reg₁, hreg₁, hevent₁⟩ := hstop.kept k reg hreg
          obtain ⟨reg₂, hreg₂, hevent₂⟩ := hrest.kept k reg₁ hreg₁
          exact ⟨reg₂, hreg₂, live_trans hevent₁ hevent₂⟩
        · intro k reg' hreg'
          rcases hrest.fresh k reg' hreg' with hlt | ⟨_, _, _, hop, _⟩
          · simp only [modifyObject, List.length_modify] at hlt
            exact Or.inl hlt
          · cases hop
      · exact ih t

/-- A new connection brings a new link object, behind all others. -/
theorem evolves_add (t : TrunkLink) (cnt : ConnectID) (point : Option AddressPortPoint)
    (now : Time) :
    Evolves (.add cnt point now) t (t.intAddOutLink cnt (newLink point) now) where
  kept := by
    intro k reg hreg
    have hlt := (List.getElem?_eq_some_iff.mp hreg).1
    exact ⟨reg, by simpa [intAddOutLink, List.getElem?_append_left hlt] using hreg, .same⟩
  fresh := by
    intro k reg' hreg'
    have hlt := (List.getElem?_eq_some_iff.mp hreg').1
    simp only [intAddOutLink, List.length_append, List.length_singleton] at hlt
    by_cases hk : k < t.objects.length
    · exact Or.inl hk
    · have hk : k = t.objects.length := by omega
      subst hk
      simp only [intAddOutLink, List.getElem?_append_right (Nat.le_refl _), Nat.sub_self,
        List.getElem?_cons_zero, Option.some.injEq] at hreg'
      exact Or.inr ⟨cnt, point, now, rfl, hreg'.symm⟩

/-- So does a live tick. -/
theorem evolves_live (t : TrunkLink) (curt : Time) :
    Evolves (.live curt) t (t.sendLivePacket curt).1 := by
  unfold sendLivePacket
  split
  · exact .same rfl
  · have hloop : Evolves (.live curt) _ _ := evolves_liveLoop t.outLinks
      { t with nextLiveUpdate := curt + milliseconds kLiveUpdateTick }
    exact ⟨hloop.kept, hloop.fresh⟩

/-- Only data and Release packets reach a link object, and only a registered one. -/
theorem evolves_handle (h : t.Inv) (call : HandlerCall) (now : Time) :
    Evolves (.handle call now) t (t.handle now call).1 := by
  have hregistered : ∀ {cnt k} {f : Registration → Registration}, t.getOutLink cnt = some k →
      (∀ reg, reg.link.hoster = some cnt → reg.link.closeInvoked = false →
        RegEvent (.handle call now) reg (f reg)) →
      ∀ reg, t.objects[k]? = some reg → RegEvent (.handle call now) reg (f reg) := by
    intro cnt k f hk hevent reg hreg
    obtain ⟨served, hserved, hcnt, hopen⟩ := h.served hk
    rw [hreg] at hserved
    cases hserved
    exact hevent reg hcnt hopen
  cases call with
  | processConnectData cnt pointId timeout => exact .same rfl
  | processAckConnectData cnt => exact .same rfl
  | processAckData cnt packetIndex => exact .same rfl
  | processLive cnt => exact .same rfl
  | processDataToOutlink cnt packetIndex data =>
      simp only [handle, processDataToOutlink]
      split
      · exact .same rfl
      · rename_i k hk
        exact .modify rfl (hregistered hk fun _ hcnt hopen => .handed hcnt hopen)
  | processReleaseConnect cnt packetId =>
      simp only [handle, processReleaseConnect]
      split
      · exact .same rfl
      · rename_i k hk
        exact .modify rfl (hregistered hk fun _ hcnt _ => .released hcnt)

/-- **Every operation changes link objects only by the events.** -/
theorem evolves_apply (h : t.Inv) {op : TrunkOp} {pkts : List PacketInfo}
    (happly : t.apply op = some (t', pkts)) : Evolves op t t' := by
  cases op with
  | add cnt point now =>
      simp only [apply] at happly
      split at happly
      · cases happly
      · cases happly
        exact evolves_add t cnt point now
  | asio k e now =>
      cases asioStep_result h happly with
      | quiet hreg hstep => exact .set hreg rfl (.quiet hstep)
      | read hreg hstep _ hgood => exact .set hreg rfl (.read hstep hgood)
      | readDropped hreg hstep hbad => exact .set hreg rfl (.dropped hstep hbad)
      | closed hreg hstep hgood => exact .set hreg rfl (.closed hstep hgood)
      | closedDropped hreg hstep hbad => exact .set hreg rfl (.dropped hstep hbad)
  | live curt =>
      have heq : (t.sendLivePacket curt).1 = t' := congrArg Prod.fst (Option.some.inj happly)
      exact heq ▸ evolves_live t curt
  | resend curt =>
      cases happly
      exact .same rfl
  | handle call now =>
      have heq : (t.handle now call).1 = t' := congrArg Prod.fst (Option.some.inj happly)
      exact heq ▸ evolves_handle h call now
  | getStat =>
      cases happly
      exact .same rfl

/-- Every link object keeps its invariant. -/
theorem Evolves.sound {op : TrunkOp} (h : t.Inv) (hevolves : Evolves op t t') :
    ∀ reg' ∈ t'.objects, reg'.Inv := by
  intro reg' hreg'
  obtain ⟨k, hk, hget⟩ := List.getElem_of_mem hreg'
  rcases hevolves.back (hget ▸ List.getElem?_eq_getElem hk) with
    ⟨reg, hreg, hevent⟩ | ⟨cnt, point, now, _, rfl⟩
  · exact (h.sound reg (List.mem_of_getElem? hreg)).event hevent
  · exact Registration.inv_new cnt point

/-- Only an asio event changes what a registration has sent. -/
theorem RegEvent.calm {op : TrunkOp} {reg reg' : Registration} (h : RegEvent op reg reg')
    (hop : ∀ k e now, op ≠ .asio k e now) :
    reg'.link.hoster = reg.link.hoster ∧ reg'.link.closeInvoked = reg.link.closeInvoked ∧
      reg'.allocated = reg.allocated ∧ reg'.created = reg.created ∧
      reg'.released = reg.released ∧ reg'.link.readLog = reg.link.readLog := by
  induction h with
  | same => exact ⟨rfl, rfl, rfl, rfl, rfl, rfl⟩
  | quiet _ => exact absurd rfl (hop _ _ _)
  | read _ _ => exact absurd rfl (hop _ _ _)
  | closed _ _ => exact absurd rfl (hop _ _ _)
  | dropped _ _ => exact absurd rfl (hop _ _ _)
  | @handed reg cnt packetIndex data now _ _ =>
      have hlife := (reg.link.sameLife_sendData packetIndex data).1
      exact ⟨hlife.hoster, hlife.closeInvoked, rfl, rfl, rfl, hlife.readLog⟩
  | @released reg cnt packetId now _ =>
      have hlife := (reg.link.sameLife_stop packetId).1
      exact ⟨hlife.hoster, hlife.closeInvoked, rfl, rfl, rfl, hlife.readLog⟩
  | @dead reg reg' curt _ ih =>
      have hlife := (reg'.link.sameLife_stop 0).1
      obtain ⟨ihh, ihc, iha, ihcr, ihre, ihr⟩ := ih hop
      exact ⟨hlife.hoster.trans ihh, hlife.closeInvoked.trans ihc, iha, ihcr, ihre,
        hlife.readLog.trans ihr⟩

/-- What an entry of `out_links_` says besides its timeout. -/
def entryKey (item : OutLinkInfo) : ConnectID × Nat × UInt32 :=
  (item.connectId, item.link, item.nextIndexToTrunk)

/-- Entries with the same keys have the same ids. -/
theorem ids_of_keys (hkeys : t'.outLinks.map entryKey = t.outLinks.map entryKey) :
    t'.outLinks.map OutLinkInfo.connectId = t.outLinks.map OutLinkInfo.connectId := by
  have hids := congrArg (List.map Prod.fst) hkeys
  simp only [List.map_map] at hids
  exact hids

/-- The bookkeeping survives a change that keeps the entries and what they say
about their links. -/
theorem Inv.congr {op : TrunkOp} (h : t.Inv) (hevolves : Evolves op t t')
    (hlinks : t'.outLinks.map entryKey = t.outLinks.map entryKey)
    (hkeep : ∀ (k : Nat) (reg reg' : Registration), t.objects[k]? = some reg →
      t'.objects[k]? = some reg' → RegEvent op reg reg' →
      reg'.link.hoster = reg.link.hoster ∧ reg'.link.closeInvoked = reg.link.closeInvoked ∧
        reg'.allocated = reg.allocated)
    (hadd : ∀ cnt point now, op ≠ .add cnt point now) : t'.Inv := by
  refine ⟨hevolves.sound h, ?_, ?_, ?_⟩
  · exact ids_of_keys hlinks ▸ h.ids
  · intro item' hitem'
    have hmem := List.mem_map_of_mem (f := entryKey) hitem'
    rw [hlinks] at hmem
    obtain ⟨item, hitem, hkey⟩ := List.mem_map.mp hmem
    simp only [entryKey, Prod.mk.injEq] at hkey
    obtain ⟨hid, hlink, hindex⟩ := hkey
    obtain ⟨reg, hreg, hserves⟩ := h.entries item hitem
    obtain ⟨reg', hreg', hevent⟩ := hevolves.kept _ reg hreg
    obtain ⟨hh, hc, ha⟩ := hkeep _ reg reg' hreg hreg' hevent
    refine ⟨reg', hlink ▸ hreg', ?_, hc.trans hserves.unclosed, ?_⟩
    · rw [hh, hserves.hoster, hid]
    · rw [← hindex, hserves.index, ha]
  · intro k reg' hreg' hopen
    rcases hevolves.back hreg' with ⟨reg, hreg, hevent⟩ | ⟨cnt, point, now, hnew, _⟩
    · obtain ⟨_, hc, _⟩ := hkeep k reg reg' hreg hreg' hevent
      obtain ⟨item, hitem, hlink⟩ := h.alive k reg hreg (hc.symm.trans hopen)
      have hmem := List.mem_map_of_mem (f := entryKey) hitem
      rw [← hlinks] at hmem
      obtain ⟨item', hitem', hsame⟩ := List.mem_map.mp hmem
      exact ⟨item', hitem', (congrArg (fun key => key.2.1) hsame).trans hlink⟩
    · exact absurd hnew (hadd cnt point now)

/-- The same for an operation that is no asio event. -/
theorem Inv.congr_calm {op : TrunkOp} (h : t.Inv) (hevolves : Evolves op t t')
    (hlinks : t'.outLinks.map entryKey = t.outLinks.map entryKey)
    (hop : ∀ k e now, op ≠ .asio k e now) (hadd : ∀ cnt point now, op ≠ .add cnt point now) :
    t'.Inv := by
  refine h.congr hevolves hlinks ?_ hadd
  intro k reg reg' _ _ hevent
  obtain ⟨hh, hc, ha, _⟩ := RegEvent.calm hevent hop
  exact ⟨hh, hc, ha⟩

/-- The loop over the links keeps the entries, the cache and the side. -/
theorem liveLoop_frame {curt : Time} (items : List OutLinkInfo) (t : TrunkLink) :
    (liveLoop curt items t).1.outLinks = t.outLinks ∧
      (liveLoop curt items t).1.packetDataCache = t.packetDataCache ∧
      (liveLoop curt items t).1.serverSide = t.serverSide := by
  induction items generalizing t with
  | nil => exact ⟨rfl, rfl, rfl⟩
  | cons item rest ih =>
      unfold liveLoop
      split
      · exact ih _
      · exact ih t

/-- The live loop sends a live packet for every connection that is not dead. -/
theorem liveLoop_packets {curt : Time} (items : List OutLinkInfo) (t : TrunkLink) :
    (liveLoop curt items t).2 =
      (items.filter fun item => ¬ curt > item.deadlinkTimeout).map fun item =>
        livePacket item.connectId := by
  induction items generalizing t with
  | nil => rfl
  | cons item rest ih =>
      unfold liveLoop
      split
      · rename_i hdead
        simp only [ih, List.filter_cons, hdead, not_true_eq_false, decide_false,
          Bool.false_eq_true, if_false]
      · rename_i halive
        simp only [ih, List.filter_cons, halive, not_false_eq_true, decide_true, if_true,
          List.map_cons]

/-- So does a live tick. -/
theorem sendLivePacket_frame (t : TrunkLink) (curt : Time) :
    (t.sendLivePacket curt).1.outLinks = t.outLinks ∧
      (t.sendLivePacket curt).1.packetDataCache = t.packetDataCache ∧
      (t.sendLivePacket curt).1.serverSide = t.serverSide := by
  unfold sendLivePacket
  split
  · exact ⟨rfl, rfl, rfl⟩
  · exact liveLoop_frame _ _

/-- The handlers change no entry but its timeout, and no cached packet. -/
theorem handle_frame (t : TrunkLink) (now : Time) (call : HandlerCall) :
    (t.handle now call).1.outLinks.map entryKey = t.outLinks.map entryKey ∧
      (t.handle now call).1.packetDataCache = t.packetDataCache ∧
      (t.handle now call).1.serverSide = t.serverSide := by
  cases call with
  | processConnectData cnt pointId timeout => exact ⟨rfl, rfl, rfl⟩
  | processAckConnectData cnt => exact ⟨rfl, rfl, rfl⟩
  | processAckData cnt packetIndex => exact ⟨rfl, rfl, rfl⟩
  | processDataToOutlink cnt packetIndex data =>
      simp only [handle, processDataToOutlink]
      split <;> exact ⟨rfl, rfl, rfl⟩
  | processReleaseConnect cnt packetId =>
      simp only [handle, processReleaseConnect]
      split <;> exact ⟨rfl, rfl, rfl⟩
  | processLive cnt =>
      refine ⟨?_, rfl, rfl⟩
      simp only [handle, processLive, List.map_map]
      refine List.map_congr_left fun item _ => ?_
      simp only [Function.comp_apply]
      split <;> rfl

/-- A new connection gets an entry of its own. -/
theorem Inv.add (h : t.Inv) {point : Option AddressPortPoint} {now : Time}
    (hnew : t.getOutLink cnt = none) (hevolves : Evolves (.add cnt point now) t
      (t.intAddOutLink cnt (newLink point) now)) :
    (t.intAddOutLink cnt (newLink point) now).Inv := by
  have hfree : ∀ item ∈ t.outLinks, item.connectId ≠ cnt := by
    intro item hitem hid
    have hfind := find_of_mem h.ids hitem
    rw [hid] at hfind
    simp [getOutLink, findOutLink, hfind] at hnew
  refine ⟨hevolves.sound h, ?_, ?_, ?_⟩
  · simp only [intAddOutLink, List.map_append, List.map_cons, List.map_nil]
    rw [List.nodup_append]
    refine ⟨h.ids, by simp, ?_⟩
    intro a ha b hb
    obtain ⟨item, hitem, rfl⟩ := List.mem_map.mp ha
    rw [List.mem_singleton.mp hb]
    exact hfree item hitem
  · intro item hitem
    rcases List.mem_append.mp hitem with hitem | hitem
    · obtain ⟨reg, hreg, hserves⟩ := h.entries item hitem
      have hlt := (List.getElem?_eq_some_iff.mp hreg).1
      exact ⟨reg, by simpa [intAddOutLink, List.getElem?_append_left hlt] using hreg, hserves⟩
    · rw [List.mem_singleton.mp hitem]
      exact ⟨{ link := (newLink point).run cnt }, by simp [intAddOutLink],
        (run_newLink cnt point).1, (run_newLink cnt point).2.1, rfl⟩
  · intro k reg hreg hopen
    by_cases hk : k < t.objects.length
    · simp only [intAddOutLink, List.getElem?_append_left hk] at hreg
      obtain ⟨item, hitem, hlinkk⟩ := h.alive k reg hreg hopen
      exact ⟨item, List.mem_append_left _ hitem, hlinkk⟩
    · have hlt := (List.getElem?_eq_some_iff.mp hreg).1
      simp only [intAddOutLink, List.length_append, List.length_singleton] at hlt
      exact ⟨_, List.mem_append_right _ (List.mem_singleton_self _), by simp; omega⟩

/-- A link whose packet was counted keeps its entry. -/
theorem Inv.counted (h : t.Inv) {k : Nat} {reg reg' : Registration} {op : TrunkOp}
    (hreg : t.objects[k]? = some reg) (hopen : reg.link.closeInvoked = false)
    (hcnt : reg.link.hoster = some cnt) (hevolves : Evolves op t t')
    (hlinks : t'.outLinks = countIndex cnt t.outLinks)
    (hobjects : t'.objects = t.objects.set k reg')
    (hh : reg'.link.hoster = reg.link.hoster) (hc : reg'.link.closeInvoked = false)
    (ha : reg'.allocated = reg.allocated + 1) : t'.Inv := by
  obtain ⟨own, hown, _, hlink, hid, hindex⟩ := h.found hreg hopen hcnt
  have hk := (List.getElem?_eq_some_iff.mp hreg).1
  refine ⟨hevolves.sound h, ?_, ?_, ?_⟩
  · rw [hlinks, map_connectId_countIndex]
    exact h.ids
  · intro item' hitem'
    rw [hlinks] at hitem'
    rcases mem_countIndex h.ids hitem' with ⟨hold, hne⟩ | ⟨item, hitem, hcid, rfl⟩
    · obtain ⟨r, hr, hserves⟩ := h.entries item' hold
      have hnot : k ≠ item'.link := by
        intro hk
        subst hk
        rw [hreg] at hr
        cases hr
        exact hne (Option.some.inj (hserves.hoster.symm.trans hcnt))
      exact ⟨r, by rw [hobjects, List.getElem?_set_ne hnot]; exact hr, hserves⟩
    · have hsame : item = own := by
        have hfind := find_of_mem h.ids hitem
        have hfind' := find_of_mem h.ids hown
        rw [hcid] at hfind
        rw [hid, hfind] at hfind'
        exact Option.some.inj hfind'
      subst hsame
      refine ⟨reg', by simp [hobjects, hlink, hk], ?_, hc, ?_⟩
      · rw [hh, hcnt, hid]
      · simp [hindex, ha]
  · intro j r hr hro
    rw [hobjects] at hr
    have hexists : ∃ item ∈ t.outLinks, item.link = j := by
      by_cases hj : k = j
      · exact ⟨own, hown, hlink.trans hj⟩
      · rw [List.getElem?_set_ne hj] at hr
        exact h.alive j r hr hro
    obtain ⟨item, hitem, hlinkj⟩ := hexists
    have hmap := List.mem_map_of_mem (f := OutLinkInfo.link) hitem
    rw [← map_link_countIndex cnt, ← hlinks] at hmap
    obtain ⟨item', hitem', hsame⟩ := List.mem_map.mp hmap
    exact ⟨item', hitem', hsame.trans hlinkj⟩

/-- A link that has closed loses its entry, and only it. -/
theorem Inv.removed (h : t.Inv) {k : Nat} {reg reg' : Registration} {op : TrunkOp}
    (hreg : t.objects[k]? = some reg) (hopen : reg.link.closeInvoked = false)
    (hcnt : reg.link.hoster = some cnt) (hevolves : Evolves op t t')
    (hlinks : t'.outLinks = t.outLinks.filter fun item => ¬ cnt = item.connectId)
    (hobjects : t'.objects = t.objects.set k reg') (hc : reg'.link.closeInvoked = true) :
    t'.Inv := by
  have hk := (List.getElem?_eq_some_iff.mp hreg).1
  refine ⟨hevolves.sound h, ?_, ?_, ?_⟩
  · rw [hlinks]
    exact (List.filter_sublist.map _).nodup h.ids
  · intro item hitem
    rw [hlinks] at hitem
    obtain ⟨hold, hne⟩ := List.mem_filter.mp hitem
    obtain ⟨r, hr, hserves⟩ := h.entries item hold
    have hnot : k ≠ item.link := by
      intro hk
      subst hk
      rw [hreg] at hr
      cases hr
      have hid := Option.some.inj (hcnt.symm.trans hserves.hoster)
      simp [hid] at hne
    exact ⟨r, by rw [hobjects, List.getElem?_set_ne hnot]; exact hr, hserves⟩
  · intro j r hr hro
    rw [hobjects] at hr
    by_cases hj : k = j
    · subst hj
      rw [List.getElem?_set_self hk] at hr
      cases hr
      exact absurd (hc.symm.trans hro) (by simp)
    · rw [List.getElem?_set_ne hj] at hr
      obtain ⟨item, hitem, hlinkj⟩ := h.alive j r hr hro
      refine ⟨item, ?_, hlinkj⟩
      rw [hlinks]
      refine List.mem_filter.mpr ⟨hitem, ?_⟩
      -- another open link of the same id would be the closing one
      have hne : ¬ cnt = item.connectId := by
        intro hid
        obtain ⟨r', hr', hserves⟩ := h.entries item hitem
        rw [hlinkj, hr] at hr'
        cases hr'
        exact hj (h.unique hreg hr hopen hro hcnt (hid ▸ hserves.hoster))
      simpa using hne

/-- The registrations after an event of one link. -/
theorem Inv.asio (h : t.Inv) {k : Nat} {e : AsioEvent} {now : Time} {pkts : List PacketInfo}
    (hevolves : Evolves (.asio k e now) t t') (hresult : AsioResult t k e now t' pkts) :
    t'.Inv := by
  cases hresult with
  | @quiet reg link hreg hstep =>
      have hl := (h.sound _ (List.mem_of_getElem? hreg)).linkStep hstep
      have hk := (List.getElem?_eq_some_iff.mp hreg).1
      refine h.congr hevolves rfl ?_ (by simp)
      intro j r r' hr hr' _
      by_cases hj : k = j
      · subst hj
        rw [hreg] at hr
        cases hr
        simp only [List.getElem?_set_self hk] at hr'
        cases hr'
        cases hl.outcome with
        | quiet hclose _ => exact ⟨hl.hoster, hclose, rfl⟩
      · simp only [List.getElem?_set_ne hj] at hr'
        rw [hr] at hr'
        cases hr'
        exact ⟨rfl, rfl, rfl⟩
  | @read reg link cnt data hreg hstep _ _ =>
      have hl := (h.sound _ (List.mem_of_getElem? hreg)).linkStep hstep
      cases hl.outcome with
      | read _ _ hcnt hsize hopen hclose hread =>
          exact h.counted hreg hopen hcnt hevolves rfl rfl hl.hoster hclose rfl
  | @readDropped reg link cnt data hreg hstep _ =>
      have hl := (h.sound _ (List.mem_of_getElem? hreg)).linkStep hstep
      cases hl.outcome with
      | read _ _ hcnt hsize hopen hclose hread =>
          exact h.counted hreg hopen hcnt hevolves rfl rfl hl.hoster hclose rfl
  | @closed reg link cnt hreg hstep _ =>
      have hl := (h.sound _ (List.mem_of_getElem? hreg)).linkStep hstep
      cases hl.outcome with
      | closed _ hcnt hopen hclose hread =>
          exact h.removed hreg hopen hcnt hevolves rfl rfl hclose
  | @closedDropped reg link cnt hreg hstep _ =>
      have hl := (h.sound _ (List.mem_of_getElem? hreg)).linkStep hstep
      cases hl.outcome with
      | closed _ hcnt hopen hclose hread =>
          exact h.removed hreg hopen hcnt hevolves rfl rfl hclose

/-- **Every operation keeps the bookkeeping.** -/
theorem Inv.apply (h : t.Inv) {op : TrunkOp} {pkts : List PacketInfo}
    (happly : t.apply op = some (t', pkts)) : t'.Inv := by
  have hevolves := evolves_apply h happly
  cases op with
  | add cnt point now =>
      simp only [TrunkLink.apply] at happly
      split at happly
      · cases happly
      · rename_i hnew
        cases happly
        exact h.add hnew hevolves
  | asio k e now => exact h.asio hevolves (asioStep_result h happly)
  | live curt =>
      have heq : (t.sendLivePacket curt).1 = t' := congrArg Prod.fst (Option.some.inj happly)
      have hframe := sendLivePacket_frame t curt
      refine h.congr_calm hevolves ?_ (by simp) (by simp)
      rw [← heq, hframe.1]
  | resend curt =>
      cases happly
      exact h.congr_calm hevolves rfl (by simp) (by simp)
  | handle call now =>
      have heq : (t.handle now call).1 = t' := congrArg Prod.fst (Option.some.inj happly)
      refine h.congr_calm hevolves ?_ (by simp) (by simp)
      rw [← heq, (handle_frame t now call).1]
  | getStat =>
      cases happly
      exact h.congr_calm hevolves rfl (by simp) (by simp)

/-- A new side keeps its books. -/
theorem inv_create (serverSide : Bool) (now : Time) : (create serverSide now).Inv :=
  ⟨by simp [create], by simp [create], by simp [create], by simp [create]⟩

end TrunkLink
