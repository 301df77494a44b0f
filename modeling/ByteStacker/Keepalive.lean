import ByteStacker.Provenance

/-!
# Live packets and dead connections

A side sends live packets in rounds, a second apart, and gives up a connection that it
has not heard of for five seconds.  Both are written down in the state only as points in
the future, `next_live_update_` and `deadlink_timeout_`; here they are read off what
happened.  The history of a side is the list of its operations, the newest first:
`lastRound` is its last live round, `lastLifeSign` the last time a connection was heard of.

* `Timed` — the points in the future are these times plus a second and plus five;
* `object_sendLivePacket` — what a round does to each link;
* `keepalive` — a live tick, whenever it comes in a run of the system;
* `dead_links` — which links have been declared dead after any run.
-/

/-! ## The history of a side -/

namespace TrunkOp

/-- The time at which the connection shows life: it is registered, or a live packet of it
arrives. -/
def lifeSign (cnt : ConnectID) : TrunkOp → Option Time
  | .add other _ now => if other = cnt then some now else none
  | .handle (.processLive other) now => if other = cnt then some now else none
  | _ => none

/-- The last live round after the operation; a tick that comes early is none. -/
def round (last : Time) : TrunkOp → Time
  | .live curt => if curt < last + milliseconds kLiveUpdateTick then last else curt
  | _ => last

end TrunkOp

namespace TrunkLink

/-- The last life sign of a connection. -/
def lastLifeSign (past : List TrunkOp) (cnt : ConnectID) : Option Time :=
  past.findSome? (TrunkOp.lifeSign cnt)

/-- The last live round of a side created at `start`. -/
def lastRound (start : Time) (past : List TrunkOp) : Time :=
  past.foldr (fun op last => op.round last) start

/-- The connection has shown no life for five seconds. -/
def Silent (past : List TrunkOp) (curt : Time) (cnt : ConnectID) : Prop :=
  ∃ heard ∈ lastLifeSign past cnt, heard + milliseconds kDeadLinkTimeout < curt

instance (past : List TrunkOp) (curt : Time) (cnt : ConnectID) : Decidable (Silent past curt cnt) :=
  inferInstanceAs (Decidable (∃ heard ∈ lastLifeSign past cnt, _))

variable {t t' : TrunkLink} {op : TrunkOp} {sent : List PacketInfo} {start : Time}
  {past : List TrunkOp}

/-- **The points in the future are where the history puts them.** -/
structure Timed (start : Time) (past : List TrunkOp) (t : TrunkLink) : Prop where
  inv : t.Inv
  round : t.nextLiveUpdate = lastRound start past + milliseconds kLiveUpdateTick
  deadline : ∀ item ∈ t.outLinks, ∃ heard, lastLifeSign past item.connectId = some heard ∧
    item.deadlinkTimeout = heard + milliseconds kDeadLinkTimeout

/-! ## One operation -/

/-- The loop over the links does not set the next heartbeat. -/
theorem nextLiveUpdate_liveLoop (curt : Time) (items : List OutLinkInfo) (t : TrunkLink) :
    (liveLoop curt items t).1.nextLiveUpdate = t.nextLiveUpdate := by
  induction items generalizing t with
  | nil => rfl
  | cons item rest ih =>
      unfold liveLoop
      split
      · exact ih _
      · exact ih t

/-- Nor does a handler. -/
theorem nextLiveUpdate_handle (t : TrunkLink) (now : Time) (call : HandlerCall) :
    (t.handle now call).1.nextLiveUpdate = t.nextLiveUpdate := by
  cases call with
  | processConnectData cnt pointId timeout => rfl
  | processAckConnectData cnt => rfl
  | processAckData cnt packetIndex => rfl
  | processLive cnt => rfl
  | processDataToOutlink cnt packetIndex data =>
      simp only [handle, processDataToOutlink]
      split
      · rfl
      · rfl
  | processReleaseConnect cnt packetId =>
      simp only [handle, processReleaseConnect]
      split
      · rfl
      · rfl

/-- Only a live tick moves the next round. -/
theorem round_apply (h : t.Inv) (happly : t.apply op = some (t', sent)) {last : Time}
    (hround : t.nextLiveUpdate = last + milliseconds kLiveUpdateTick) :
    t'.nextLiveUpdate = op.round last + milliseconds kLiveUpdateTick := by
  cases op with
  | add cnt point now =>
      simp only [apply] at happly
      split at happly
      · cases happly
      · cases happly
        exact hround
  | asio k e now =>
      cases asioStep_result h happly with
      | quiet _ _ => exact hround
      | read _ _ _ _ => exact hround
      | readDropped _ _ _ => exact hround
      | closed _ _ _ => exact hround
      | closedDropped _ _ _ => exact hround
  | live curt =>
      have heq : (t.sendLivePacket curt).1 = t' := congrArg Prod.fst (Option.some.inj happly)
      have hafter : (TrunkOp.live curt).round last =
          if curt < last + milliseconds kLiveUpdateTick then last else curt := rfl
      rw [← heq, sendLivePacket, hround, hafter]
      by_cases hearly : curt < last + milliseconds kLiveUpdateTick
      · rw [if_pos hearly, if_pos hearly]
        exact hround
      · rw [if_neg hearly, if_neg hearly]
        exact nextLiveUpdate_liveLoop curt _ _
  | resend curt =>
      cases happly
      exact hround
  | handle call now =>
      have heq : (t.handle now call).1 = t' := congrArg Prod.fst (Option.some.inj happly)
      rw [← heq]
      exact (nextLiveUpdate_handle t now call).trans hround
  | getStat =>
      cases happly
      exact hround

/-- **Only life signs move a deadline**, to five seconds behind them. -/
theorem deadline_apply (h : t.Inv) (happly : t.apply op = some (t', sent)) {item' : OutLinkInfo}
    (hitem' : item' ∈ t'.outLinks) :
    (∃ now, op.lifeSign item'.connectId = some now ∧
      item'.deadlinkTimeout = now + milliseconds kDeadLinkTimeout) ∨
    (op.lifeSign item'.connectId = none ∧ ∃ item ∈ t.outLinks,
      item.connectId = item'.connectId ∧ item.deadlinkTimeout = item'.deadlinkTimeout) := by
  cases op with
  | add cnt point now =>
      simp only [apply] at happly
      split at happly
      · cases happly
      · rename_i hnew
        cases happly
        have hfree := find_eq_none_iff.mp hnew
        rcases List.mem_append.mp hitem' with hold | hlast
        · refine Or.inr ⟨if_neg fun heq => hfree ?_, item', hold, rfl, rfl⟩
          exact heq ▸ List.mem_map_of_mem hold
        · rw [List.mem_singleton.mp hlast]
          exact Or.inl ⟨now, if_pos rfl, rfl⟩
  | asio k e now =>
      have hcounted : ∀ {cnt xs}, xs = countIndex cnt t.outLinks → item' ∈ xs →
          ∃ item ∈ t.outLinks, item.connectId = item'.connectId ∧
            item.deadlinkTimeout = item'.deadlinkTimeout := by
        intro cnt xs hxs hmem
        rw [hxs] at hmem
        rcases mem_countIndex h.ids hmem with ⟨hold, _⟩ | ⟨item, hitem, _, rfl⟩
        · exact ⟨item', hold, rfl, rfl⟩
        · exact ⟨item, hitem, rfl, rfl⟩
      refine Or.inr ⟨rfl, ?_⟩
      cases asioStep_result h happly with
      | quiet _ _ => exact ⟨item', hitem', rfl, rfl⟩
      | read _ _ _ _ => exact hcounted rfl hitem'
      | readDropped _ _ _ => exact hcounted rfl hitem'
      | closed _ _ _ => exact ⟨item', List.mem_of_mem_filter hitem', rfl, rfl⟩
      | closedDropped _ _ _ => exact ⟨item', List.mem_of_mem_filter hitem', rfl, rfl⟩
  | live curt =>
      have heq : (t.sendLivePacket curt).1 = t' := congrArg Prod.fst (Option.some.inj happly)
      rw [← heq, (sendLivePacket_frame t curt).1] at hitem'
      exact Or.inr ⟨rfl, item', hitem', rfl, rfl⟩
  | resend curt =>
      cases happly
      exact Or.inr ⟨rfl, item', hitem', rfl, rfl⟩
  | handle call now =>
      have heq : (t.handle now call).1 = t' := congrArg Prod.fst (Option.some.inj happly)
      rw [← heq] at hitem'
      cases call with
      | processLive cnt =>
          obtain ⟨item, hitem, rfl⟩ := List.mem_map.mp hitem'
          by_cases hid : item.connectId = cnt
          · simp only [if_pos hid]
            exact Or.inl ⟨now, if_pos hid.symm, rfl⟩
          · simp only [if_neg hid]
            exact Or.inr ⟨if_neg fun heq => hid heq.symm, item, hitem, rfl, rfl⟩
      | processDataToOutlink cnt packetIndex data =>
          refine Or.inr ⟨rfl, item', ?_, rfl, rfl⟩
          simp only [handle, processDataToOutlink] at hitem'
          split at hitem'
          · exact hitem'
          · exact hitem'
      | processReleaseConnect cnt packetId =>
          refine Or.inr ⟨rfl, item', ?_, rfl, rfl⟩
          simp only [handle, processReleaseConnect] at hitem'
          split at hitem'
          · exact hitem'
          · exact hitem'
      | processConnectData cnt pointId timeout => exact Or.inr ⟨rfl, item', hitem', rfl, rfl⟩
      | processAckConnectData cnt => exact Or.inr ⟨rfl, item', hitem', rfl, rfl⟩
      | processAckData cnt packetIndex => exact Or.inr ⟨rfl, item', hitem', rfl, rfl⟩
  | getStat =>
      cases happly
      exact Or.inr ⟨rfl, item', hitem', rfl, rfl⟩

/-- **Every operation keeps the account of the times.** -/
theorem Timed.apply (h : Timed start past t) (happly : t.apply op = some (t', sent)) :
    Timed start (op :: past) t' where
  inv := h.inv.apply happly
  round := round_apply h.inv happly h.round
  deadline := by
    intro item' hitem'
    rcases deadline_apply h.inv happly hitem' with ⟨now, hsign, hdeadline⟩ |
      ⟨hnone, item, hitem, hid, hdeadline⟩
    · exact ⟨now, by rw [lastLifeSign, List.findSome?_cons, hsign], hdeadline⟩
    · obtain ⟨heard, hheard, hold⟩ := h.deadline item hitem
      refine ⟨heard, ?_, hdeadline.symm.trans hold⟩
      rw [lastLifeSign, List.findSome?_cons, hnone, ← hid]
      exact hheard

/-- A new side has its times from its start. -/
theorem timed_create (serverSide : Bool) (start : Time) :
    Timed start [] (create serverSide start) where
  inv := inv_create serverSide start
  round := rfl
  deadline := fun _ hitem => absurd hitem List.not_mem_nil

/-- The account holds along every run. -/
theorem run_timed {serverSide : Bool} {ops : List TrunkOp}
    (hrun : Transition.run step (create serverSide start) ops = some t) :
    Timed start ops.reverse t := by
  rw [← List.append_nil ops.reverse]
  refine Transition.run_history (I := fun t past => Timed start past t)
    (fun t past op t' h hstep => ?_) (timed_create serverSide start) hrun
  · obtain ⟨⟨m, sent⟩, happly, rfl⟩ := Option.map_eq_some_iff.mp hstep
    exact h.apply happly

/-! ## A live round -/

/-- No link is entered twice. -/
theorem Inv.links_nodup (h : t.Inv) : (t.outLinks.map OutLinkInfo.link).Nodup := by
  refine List.Nodup.map_on (fun x hx y hy hlink => ?_) h.ids.of_map
  obtain ⟨reg, hreg, hserves⟩ := h.entries x hx
  obtain ⟨reg', hreg', hserves'⟩ := h.entries y hy
  rw [hlink, hreg'] at hreg
  cases hreg
  have hid := Option.some.inj (hserves.hoster.symm.trans hserves'.hoster)
  exact List.inj_on_of_nodup_map h.ids hx hy hid

/-- The live loop stops each dead link once and leaves the others alone. -/
theorem object_liveLoop {curt : Time} {items : List OutLinkInfo}
    (hlinks : (items.map OutLinkInfo.link).Nodup) (t : TrunkLink) (k : Nat) :
    (liveLoop curt items t).1.objects[k]? = t.objects[k]?.map fun reg =>
      if ∃ item ∈ items, item.link = k ∧ curt > item.deadlinkTimeout then reg.stop .deadLink
      else reg := by
  induction items generalizing t with
  | nil => simp [liveLoop]
  | cons item rest ih =>
      obtain ⟨hitem, hrest⟩ := List.nodup_cons.mp hlinks
      have hapart : item.link = k → ¬ ∃ other ∈ rest, other.link = k ∧
          curt > other.deadlinkTimeout := by
        rintro rfl ⟨other, hother, hlink, _⟩
        exact hitem (hlink ▸ List.mem_map_of_mem hother)
      unfold liveLoop
      by_cases hdead : curt > item.deadlinkTimeout
      · rw [if_pos hdead, ih hrest, modifyObject, List.getElem?_modify]
        by_cases hk : item.link = k
        · simp [hk, hdead, hapart hk, Function.comp_def]
        · simp [hk]
      · rw [if_neg hdead]
        simp only [ih hrest, List.exists_mem_cons_iff, hdead, and_false, false_or]

/-- A registered connection is dead exactly if it has been silent. -/
theorem Timed.dead_iff (h : Timed start past t) {item : OutLinkInfo} (hitem : item ∈ t.outLinks)
    (curt : Time) : curt > item.deadlinkTimeout ↔ Silent past curt item.connectId := by
  obtain ⟨heard, hheard, hdeadline⟩ := h.deadline item hitem
  simp [Silent, hheard, hdeadline]

/-- **What a live tick does**, by the history of the side. -/
structure KeepsAlive (start : Time) (past : List TrunkOp) (t : TrunkLink) (curt : Time) : Prop where
  early : curt < lastRound start past + milliseconds kLiveUpdateTick →
    t.sendLivePacket curt = (t, [])
  packets : lastRound start past + milliseconds kLiveUpdateTick ≤ curt →
    (t.sendLivePacket curt).2 =
      (t.outLinks.filter fun item => ¬ Silent past curt item.connectId).map fun item =>
        livePacket item.connectId
  links : lastRound start past + milliseconds kLiveUpdateTick ≤ curt → ∀ k : Nat,
    (t.sendLivePacket curt).1.objects[k]? = t.objects[k]?.map fun reg : Registration =>
      if reg.link.closeInvoked = false ∧ ∃ cnt ∈ reg.link.hoster, Silent past curt cnt then
        reg.stop .deadLink
      else reg

/-- A live tick does what the account says. -/
theorem Timed.keepsAlive (h : Timed start past t) (curt : Time) : KeepsAlive start past t curt where
  early := by
    intro hearly
    rw [sendLivePacket, if_pos (h.round ▸ hearly)]
  packets := by
    intro hdue
    rw [sendLivePacket, if_neg (Nat.not_lt.mpr (h.round ▸ hdue)), liveLoop_packets]
    refine congrArg _ (List.filter_congr fun item hitem => ?_)
    simp only [h.dead_iff hitem curt]
  links := by
    intro hdue k
    rw [sendLivePacket, if_neg (Nat.not_lt.mpr (h.round ▸ hdue)),
      object_liveLoop h.inv.links_nodup]
    cases hreg : t.objects[k]? with
    | none => rfl
    | some reg =>
        have hiff : (∃ item ∈ t.outLinks, item.link = k ∧ curt > item.deadlinkTimeout) ↔
            reg.link.closeInvoked = false ∧ ∃ cnt ∈ reg.link.hoster, Silent past curt cnt := by
          constructor
          · intro ⟨item, hitem, hlink, hdead⟩
            obtain ⟨served, hserved, hserves⟩ := h.inv.entries item hitem
            rw [hlink, hreg] at hserved
            cases hserved
            exact ⟨hserves.unclosed, item.connectId, hserves.hoster,
              (h.dead_iff hitem curt).mp hdead⟩
          · intro ⟨hopen, cnt, hcnt, hsilent⟩
            obtain ⟨item, hitem, _, hlink, hid, _⟩ := h.inv.found hreg hopen hcnt
            exact ⟨item, hitem, hlink, (h.dead_iff hitem curt).mpr (hid ▸ hsilent)⟩
        simp only [Option.map_some, hiff]

/-! ## Dead links -/

/-- A live tick at `curt` is due, and finds the connection silent. -/
def FoundSilent (start : Time) (past : List TrunkOp) (curt : Time) (cnt : ConnectID) : Prop :=
  lastRound start past + milliseconds kLiveUpdateTick ≤ curt ∧ Silent past curt cnt

instance (start : Time) (past : List TrunkOp) (curt : Time) (cnt : ConnectID) :
    Decidable (FoundSilent start past curt cnt) :=
  inferInstanceAs (Decidable (_ ∧ Silent past curt cnt))

/-- Some live tick found the connection silent. -/
def WasSilent (start : Time) (cnt : ConnectID) : List TrunkOp → Prop
  | [] => False
  | op :: past =>
      (∃ curt, op = .live curt ∧ FoundSilent start past curt cnt) ∨ WasSilent start cnt past

/-- Since it was last registered, a live tick found the connection silent. -/
def GivenUp (start : Time) (cnt : ConnectID) : List TrunkOp → Prop
  | [] => False
  | .add other _ _ :: past => other ≠ cnt ∧ GivenUp start cnt past
  | .live curt :: past => FoundSilent start past curt cnt ∨ GivenUp start cnt past
  | _ :: past => GivenUp start cnt past

instance decidableGivenUp (start : Time) (cnt : ConnectID) :
    (past : List TrunkOp) → Decidable (GivenUp start cnt past)
  | [] => instDecidableFalse
  | .add other _ _ :: past =>
      have := decidableGivenUp start cnt past
      inferInstanceAs (Decidable (other ≠ cnt ∧ _))
  | .live _ :: past =>
      have := decidableGivenUp start cnt past
      inferInstanceAs (Decidable (FoundSilent start past _ cnt ∨ _))
  | .asio _ _ _ :: past => decidableGivenUp start cnt past
  | .resend _ :: past => decidableGivenUp start cnt past
  | .handle _ _ :: past => decidableGivenUp start cnt past
  | .getStat :: past => decidableGivenUp start cnt past

/-- Only a live tick declares a link dead. -/
theorem dead_new {reg reg' : Registration} (h : RegEvent op reg reg')
    (hdead : .deadLink ∈ reg'.stops) : .deadLink ∈ reg.stops ∨ ∃ curt, op = .live curt := by
  cases h with
  | same => exact Or.inl hdead
  | quiet _ => exact Or.inl hdead
  | read _ _ => exact Or.inl hdead
  | closed _ _ => exact Or.inl hdead
  | dropped _ _ => exact Or.inl hdead
  | handed _ _ => exact Or.inl hdead
  | released _ =>
      rcases List.mem_append.mp hdead with hold | hlast
      · exact Or.inl hold
      · cases List.mem_singleton.mp hlast
  | dead _ => exact Or.inr ⟨_, rfl⟩

/-- What other operations do to a link declares nothing. -/
theorem dead_same {reg reg' : Registration} (h : RegEvent op reg reg') (hinv : reg.Inv)
    (hlive : ∀ curt, op ≠ .live curt) : .deadLink ∈ reg'.stops ↔ .deadLink ∈ reg.stops := by
  constructor
  · intro hdead
    rcases dead_new h hdead with hold | ⟨curt, hop⟩
    · exact hold
    · exact absurd hop (hlive curt)
  · exact fun hdead => (h.grows hinv).stops.subset hdead

/-- A link that is open was open before. -/
theorem unclosed_before {reg reg' : Registration} (h : RegEvent op reg reg') (hinv : reg.Inv)
    (hopen : reg'.link.closeInvoked = false) : reg.link.closeInvoked = false := by
  have hcalm := fun hop => (RegEvent.calm h hop).2.1.symm.trans hopen
  have houtcome : ∀ {e link call}, reg.link.asioStep e = some (link, call) →
      link.closeInvoked = false → reg.link.closeInvoked = false := by
    intro e link call hstep hafter
    cases (hinv.linkStep hstep).outcome with
    | quiet hclose _ => exact hclose.symm.trans hafter
    | read _ _ _ _ hbefore _ _ => exact hbefore
    | closed _ _ hbefore _ _ => exact hbefore
  cases h with
  | same => exact hopen
  | quiet hstep => exact houtcome hstep hopen
  | read hstep _ => exact houtcome hstep hopen
  | closed hstep _ => exact houtcome hstep hopen
  | dropped hstep _ => exact houtcome hstep hopen
  | handed _ _ => exact hcalm (by simp)
  | released _ => exact hcalm (by simp)
  | dead _ => exact hcalm (by simp)

/-- Only a live round gives a connection up, and only its next registration undoes that. -/
theorem givenUp_other {cnt : ConnectID} (hlive : ∀ curt, op ≠ .live curt)
    (hadd : ∀ point now, op ≠ .add cnt point now) :
    GivenUp start cnt (op :: past) ↔ GivenUp start cnt past := by
  cases op with
  | add other point now =>
      have hne : other ≠ cnt := fun heq => hadd point now (heq ▸ rfl)
      exact ⟨fun hgiven => hgiven.2, fun hgiven => ⟨hne, hgiven⟩⟩
  | live curt => exact absurd rfl (hlive curt)
  | asio k e now => exact Iff.rfl
  | resend curt => exact Iff.rfl
  | handle call now => exact Iff.rfl
  | getStat => exact Iff.rfl

/-- **When a link has been declared dead**, by the history of its side. -/
structure DeadByHistory (start : Time) (past : List TrunkOp) (reg : Registration) : Prop where
  /-- A registered link, exactly if its connection is given up. -/
  registered : reg.link.closeInvoked = false → ∀ cnt ∈ reg.link.hoster,
    (.deadLink ∈ reg.stops ↔ GivenUp start cnt past)
  /-- Any link, only if its connection had been silent. -/
  silent : .deadLink ∈ reg.stops → ∃ cnt ∈ reg.link.hoster, WasSilent start cnt past

namespace DeadByHistory

variable {reg reg' : Registration} {curt : Time}

/-- A new link is not dead. -/
theorem new (cnt : ConnectID) (point : Option AddressPortPoint) (now : Time) :
    DeadByHistory start (.add cnt point now :: past) { link := (newLink point).run cnt } where
  registered := by
    intro _ own hown
    have hid : cnt = own := Option.some.inj ((run_newLink cnt point).1.symm.trans hown)
    exact iff_of_false List.not_mem_nil fun hgiven => hgiven.1 hid
  silent := fun hdead => absurd hdead List.not_mem_nil

/-- A round stops the link because its connection has been silent. -/
theorem stopped {own : ConnectID} (hown : reg.link.hoster = some own)
    (hfound : FoundSilent start past curt own) :
    DeadByHistory start (.live curt :: past) (reg.stop .deadLink) := by
  have hoster := (reg.link.sameLife_stop 0).1.hoster
  refine ⟨fun _ cnt hcnt => ?_, fun _ => ?_⟩
  · have hid : own = cnt := Option.some.inj (hown.symm.trans (hoster.symm.trans hcnt))
    exact iff_of_true (List.mem_append_right _ (List.mem_singleton_self _))
      (Or.inl (hid ▸ hfound))
  · exact ⟨own, hoster.trans hown, Or.inl ⟨curt, rfl, hfound⟩⟩

/-- A tick spares the link: it comes early, or the connection has not been silent. -/
theorem spared (h : DeadByHistory start past reg)
    (hspare : reg.link.closeInvoked = false → ∀ cnt ∈ reg.link.hoster,
      ¬ FoundSilent start past curt cnt) :
    DeadByHistory start (.live curt :: past) reg where
  registered := fun hopen cnt hcnt => (h.registered hopen cnt hcnt).trans
    ⟨Or.inr, fun hgiven => hgiven.resolve_left (hspare hopen cnt hcnt)⟩
  silent := by
    intro hdead
    obtain ⟨cnt, hcnt, hsilent⟩ := h.silent hdead
    exact ⟨cnt, hcnt, Or.inr hsilent⟩

/-- Operations of other kinds concern neither the link nor its connection, as long as they
do not register the connection again. -/
theorem other (h : DeadByHistory start past reg) (hevent : RegEvent op reg reg') (hinv : reg.Inv)
    (hlive : ∀ curt, op ≠ .live curt)
    (hadd : reg.link.closeInvoked = false → ∀ cnt ∈ reg.link.hoster, ∀ point now,
      op ≠ .add cnt point now) : DeadByHistory start (op :: past) reg' := by
  have hdead := dead_same hevent hinv hlive
  have hoster := (hevent.grows hinv).hoster
  refine ⟨fun hopen' cnt hcnt' => ?_, fun hdead' => ?_⟩
  · have hopen := unclosed_before hevent hinv hopen'
    have hcnt := hoster.symm.trans hcnt'
    exact (hdead.trans (h.registered hopen cnt hcnt)).trans
      (givenUp_other hlive (hadd hopen cnt hcnt)).symm
  · obtain ⟨cnt, hcnt, hsilent⟩ := h.silent (hdead.mp hdead')
    exact ⟨cnt, hoster.trans hcnt, Or.inr hsilent⟩

end DeadByHistory

/-- The history says of every link of the side whether it is dead. -/
def DeadLinks (start : Time) (past : List TrunkOp) (t : TrunkLink) : Prop :=
  ∀ reg ∈ t.objects, DeadByHistory start past reg

/-- **Every operation keeps the account of the dead links.** -/
theorem DeadLinks.apply (h : DeadLinks start past t) (htimed : Timed start past t)
    (happly : t.apply op = some (t', sent)) : DeadLinks start (op :: past) t' := by
  intro reg' hreg'
  obtain ⟨k, hk, hget⟩ := List.getElem_of_mem hreg'
  have hafter : t'.objects[k]? = some reg' := hget ▸ List.getElem?_eq_getElem hk
  rcases (evolves_apply htimed.inv happly).back hafter with
    ⟨reg, hreg, hevent⟩ | ⟨cnt, point, now, rfl, rfl⟩
  · have hmem := List.mem_of_getElem? hreg
    by_cases hlive : ∃ curt, op = .live curt
    · obtain ⟨curt, rfl⟩ := hlive
      have heq : (t.sendLivePacket curt).1 = t' := congrArg Prod.fst (Option.some.inj happly)
      subst heq
      by_cases hdue : lastRound start past + milliseconds kLiveUpdateTick ≤ curt
      · rw [(htimed.keepsAlive curt).links hdue k, hreg, Option.map_some, Option.some_inj] at hafter
        by_cases hcond : reg.link.closeInvoked = false ∧
            ∃ cnt ∈ reg.link.hoster, Silent past curt cnt
        · rw [if_pos hcond] at hafter
          obtain ⟨_, own, hown, hsilent⟩ := hcond
          exact hafter ▸ .stopped hown ⟨hdue, hsilent⟩
        · rw [if_neg hcond] at hafter
          exact hafter ▸ (h reg hmem).spared fun hopen cnt hcnt hnow =>
            hcond ⟨hopen, cnt, hcnt, hnow.2⟩
      · rw [(htimed.keepsAlive curt).early (Nat.not_le.mp hdue), hreg, Option.some_inj] at hafter
        exact hafter ▸ (h reg hmem).spared fun _ _ _ hnow => hdue hnow.1
    · refine (h reg hmem).other hevent (htimed.inv.sound reg hmem)
        (fun curt hop => hlive ⟨curt, hop⟩) ?_
      -- an id that is registered is not registered again
      rintro hopen cnt hcnt point now rfl
      obtain ⟨item, _, hfind, _⟩ := htimed.inv.found hreg hopen hcnt
      simp [TrunkLink.apply, getOutLink, hfind] at happly
  · exact .new cnt point now

/-- So it is in every run. -/
theorem run_dead {serverSide : Bool} {ops : List TrunkOp}
    (hrun : Transition.run step (create serverSide start) ops = some t) :
    DeadLinks start ops.reverse t := by
  rw [← List.append_nil ops.reverse]
  refine (Transition.run_history (I := fun t past => Timed start past t ∧ DeadLinks start past t)
    (fun t past op t' h hstep => ?_)
    ⟨timed_create serverSide start, fun reg hreg => absurd hreg List.not_mem_nil⟩ hrun).2
  obtain ⟨⟨m, sent⟩, happly, rfl⟩ := Option.map_eq_some_iff.mp hstep
  exact ⟨h.1.apply happly, h.2.apply h.1 happly⟩

end TrunkLink

/-! ## Runs of the system -/

namespace System

variable {s : System} {clientTime serverTime : Time} {trunkSockets : Nat}
  {linkFabric : PointID → Option AddressPortPoint} {es : List SystemEvent}

/-- **The keepalive.**  Whatever has happened in a run of the system, a live tick of
either side does nothing within a second of the last round; otherwise it sends one live
packet for each registered connection that showed life in the last five seconds, in the
order of their registration, and stops exactly the open links of the others. -/
theorem keepalive
    (hrun : Transition.run step (launch clientTime serverTime trunkSockets linkFabric) es = some s)
    (curt : Time) :
    TrunkLink.KeepsAlive clientTime (Transition.collect step clientOps
        (launch clientTime serverTime trunkSockets linkFabric) es).reverse s.client.base curt ∧
      TrunkLink.KeepsAlive serverTime (Transition.collect step serverOps
        (launch clientTime serverTime trunkSockets linkFabric) es).reverse s.server.base curt := by
  obtain ⟨hclient, hserver⟩ := run_sides hrun
  exact ⟨(TrunkLink.run_timed hclient).keepsAlive curt,
    (TrunkLink.run_timed hserver).keepsAlive curt⟩

/-- Half a second after the first round a tick is early; six seconds later the link has
been silent, and the only registered connection gets no live packet. -/
theorem keepalive_silent :
    ∃ s, Transition.run step (launch 0 0 1 fun _ => none)
        [.addConnect (.ofByte 1) 7 0 0, .clientTick (milliseconds 1000) 0 0] = some s ∧
      s.client.base.sendLivePacket (milliseconds 1500) = (s.client.base, []) ∧
      (s.client.base.sendLivePacket (milliseconds 7000)).2 = [] := by
  have hrun : Transition.run step (launch 0 0 1 fun _ => none)
      [.addConnect (.ofByte 1) 7 0 0, .clientTick (milliseconds 1000) 0 0] = some _ := rfl
  refine ⟨_, hrun, (keepalive hrun _).1.early (by decide +kernel), ?_⟩
  rw [(keepalive hrun _).1.packets (by decide +kernel)]
  decide +kernel

/-- **Dead links.**  In every run, a link of a registered connection has been declared
dead exactly if, since the connection was registered, a due live tick found that no live
packet of it had arrived for more than five seconds; its registration counts as one, and
its data does not.  And no link, not even a closed one, has ever been declared dead without
a due live tick that found its connection so silent. -/
theorem dead_links
    (hrun : Transition.run step (launch clientTime serverTime trunkSockets linkFabric) es =
      some s) :
    TrunkLink.DeadLinks clientTime (Transition.collect step clientOps
        (launch clientTime serverTime trunkSockets linkFabric) es).reverse s.client.base ∧
      TrunkLink.DeadLinks serverTime (Transition.collect step serverOps
        (launch clientTime serverTime trunkSockets linkFabric) es).reverse s.server.base := by
  obtain ⟨hclient, hserver⟩ := run_sides hrun
  exact ⟨TrunkLink.run_dead hclient, TrunkLink.run_dead hserver⟩

/-- The client's chunk arrives a moment before the tick, but no live packet does. -/
def dataOnly : List SystemEvent :=
  [.addConnect (.ofByte 1) 7 0 0, .toServer 0 0 ⟨[], 80⟩ 0,
    .clientAsio 0 (.readDone 0 ⟨false, [65]⟩) 0, .clientAsio 0 (.readHandler 0) 0,
    .toServer 1 0 ⟨[], 80⟩ (milliseconds 4990), .serverTick (milliseconds 5001) 0]

/-- A chunk is no sign of life: the server's link is declared dead. -/
theorem dead_links_data :
    ∃ s, Transition.run step (launch 0 0 1 fun _ => some ⟨"localhost", 80⟩) dataOnly = some s ∧
      ∃ reg ∈ s.server.base.objects, reg.handed = [(0, [65])] ∧ .deadLink ∈ reg.stops := by
  have hany : (Transition.run step (launch 0 0 1 fun _ => some ⟨"localhost", 80⟩) dataOnly).any
      (fun s => s.server.base.objects.any fun reg => decide (reg.link.closeInvoked = false ∧
        reg.link.hoster = some (.ofByte 1) ∧ reg.handed = [(0, [65])])) = true := by
    decide +kernel
  have hgiven : TrunkLink.GivenUp 0 (.ofByte 1) (Transition.collect step serverOps
      (launch 0 0 1 fun _ => some ⟨"localhost", 80⟩) dataOnly).reverse := by
    decide +kernel
  obtain ⟨s, hrun, hs⟩ := (Option.any_eq_true _ _).mp hany
  obtain ⟨reg, hreg, hlink⟩ := List.any_eq_true.mp hs
  obtain ⟨hopen, hcnt, hhanded⟩ := of_decide_eq_true hlink
  exact ⟨s, hrun, reg, hreg, hhanded,
    (((dead_links hrun).2 reg hreg).registered hopen _ hcnt).mpr hgiven⟩

end System
