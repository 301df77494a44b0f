import Mathlib.Data.List.Count
import Mathlib.Data.Option.Basic
import ByteStacker.Provenance

/-!
# The stream a link writes

A link writes the chunks it was handed in the order of their indices.  If the
other side has one link for the connection, these chunks are the blocks that
link has read, with the indices they were given, so the bytes written are the
beginning of the bytes read (`Linked.stream`).

Upstream the other side is the client.  It creates a link only in `AddConnect`,
for an id that was generated just before, so there is always one: the bytes the
server writes to any of its sockets for a connection are the beginning of what
the client has read for that connection (`System.upstream_integrity`).
-/

/-! ## The links of a connection -/

namespace TrunkLink

variable {t t' : TrunkLink} {op : TrunkOp} {cnt : ConnectID} {sent : List PacketInfo}

/-- The link objects the side has ever created for `cnt`. -/
def linksOf (t : TrunkLink) (cnt : ConnectID) : List Registration :=
  t.objects.filter fun reg => reg.link.hoster = some cnt

/-- The links of a connection are those made for it. -/
theorem mem_linksOf {reg : Registration} :
    reg ∈ t.linksOf cnt ↔ reg ∈ t.objects ∧ reg.link.hoster = some cnt := by
  simp [linksOf]

/-- The link object registered for `cnt`. -/
def registered (t : TrunkLink) (cnt : ConnectID) : Option Registration :=
  (t.getOutLink cnt).bind fun k => t.objects[k]?

/-- An open link is the registered one. -/
theorem Inv.registered_eq (h : t.Inv) {reg : Registration} (hreg : reg ∈ t.linksOf cnt)
    (hopen : reg.link.closeInvoked = false) : t.registered cnt = some reg := by
  obtain ⟨hmem, hcnt⟩ := mem_linksOf.mp hreg
  obtain ⟨k, hk, hget⟩ := List.getElem_of_mem hmem
  have hreg := hget ▸ List.getElem?_eq_getElem hk
  obtain ⟨item, _, hfind, hlink, _⟩ := h.found hreg hopen hcnt
  simp [registered, getOutLink, hfind, hlink, hreg]

/-- The registered link is one of them. -/
theorem mem_of_registered (h : t.Inv) {reg : Registration} (hreg : t.registered cnt = some reg) :
    reg ∈ t.linksOf cnt := by
  obtain ⟨k, hk, hget⟩ := Option.bind_eq_some_iff.mp hreg
  obtain ⟨reg', hreg', hcnt, _⟩ := h.served hk
  rw [hget] at hreg'
  cases hreg'
  exact mem_linksOf.mpr ⟨List.mem_of_getElem? hget, hcnt⟩

/-- Their number can be read off the list of owners. -/
theorem length_linksOf (t : TrunkLink) (cnt : ConnectID) :
    (t.linksOf cnt).length = t.hosters.count (some cnt) := by
  rw [linksOf, hosters, List.count, List.countP_map, List.countP_eq_length_filter]
  congr 1
  exact List.filter_congr fun reg _ => by simp [beq_eq_decide]

/-- **Only `add` creates a link**, and no operation changes the connection of one. -/
theorem hosters_apply (happly : t.apply op = some (t', sent)) :
    t'.hosters = t.hosters ++ op.added.toList.map some :=
  call_hosters (e := .op op) happly

/-- The links a list of operations creates. -/
theorem hosters_acts (h : t.Inv) {ops : List TrunkOp} (hacts : Acts t ops t' sent) :
    t'.hosters = t.hosters ++ (ops.filterMap TrunkOp.added).map some := by
  induction hacts with
  | nil => simp
  | @cons _ _ _ op _ _ _ happly _ ih =>
      rw [ih (h.apply happly), hosters_apply happly]
      cases hadd : op.added with
      | none => simp [hadd]
      | some c => simp [hadd]

/-- **Operations add one link for each registration they make.** -/
theorem length_linksOf_acts (h : t.Inv) {ops : List TrunkOp} (hacts : Acts t ops t' sent)
    (cnt : ConnectID) : (t'.linksOf cnt).length =
      (t.linksOf cnt).length + (ops.filterMap TrunkOp.added).count cnt := by
  have hsome := List.count_map_of_injective (ops.filterMap TrunkOp.added) some
    (Option.some_injective _) cnt
  rw [length_linksOf, length_linksOf, hosters_acts h hacts, List.count_append, hsome]

end TrunkLink

namespace System

variable {s s' : System} {e : SystemEvent} {c : ConnectID}

/-- The connection the client creates a link for. -/
def clientCreates (s : System) : SystemEvent → Option ConnectID
  | .addConnect cnt _ _ _ => if s.client.base.getOutLink cnt = none then some cnt else none
  | _ => none

/-- The connection the server creates a link for: a `CreateConnect` of an id
that is not registered, with a point the fabric knows. -/
def serverCreates (s : System) (e : SystemEvent) : Option ConnectID :=
  match s.serverCall e with
  | some (.processConnectData cnt pointId _) => (s.acceptedPoint cnt pointId).map fun _ => cnt
  | _ => none

/-- Each side registers what the event creates on it. -/
theorem added_clientOps (s : System) (e : SystemEvent) :
    (s.clientOps e).filterMap TrunkOp.added = (s.clientCreates e).toList := by
  cases e with
  | addConnect cnt point registered cached =>
      simp only [clientOps, clientCreates]
      split <;> rfl
  | toClient n now =>
      simp only [clientOps, clientCreates]
      split <;> rfl
  | _ => rfl

theorem added_serverOps (s : System) (e : SystemEvent) :
    (s.serverOps e).filterMap TrunkOp.added = (s.serverCreates e).toList := by
  cases e with
  | toServer n index sender now =>
      simp only [serverOps, serverCreates]
      cases s.serverCall (.toServer n index sender now) with
      | none => rfl
      | some call =>
          cases call with
          | processConnectData cnt pointId timeout =>
              simp only
              cases s.acceptedPoint cnt pointId <;> rfl
          | _ => rfl
  | _ => rfl

/-- Hence a side's links of a connection grow by its creations. -/
theorem length_client_linksOf (h : s.Inv) (hstep : s.step e = some s') (c : ConnectID) :
    (s'.client.base.linksOf c).length =
      (s.client.base.linksOf c).length + (s.clientCreates e).toList.count c := by
  obtain ⟨clientSent, serverSent, heffect⟩ := step_effect hstep
  rw [TrunkLink.length_linksOf_acts h.linked.near heffect.client, added_clientOps]

theorem length_server_linksOf (h : s.Inv) (hstep : s.step e = some s') (c : ConnectID) :
    (s'.server.base.linksOf c).length =
      (s.server.base.linksOf c).length + (s.serverCreates e).toList.count c := by
  obtain ⟨clientSent, serverSent, heffect⟩ := step_effect hstep
  rw [TrunkLink.length_linksOf_acts h.linked.far heffect.server, added_serverOps]

/-- A connection keeps at most one link if none is created beside another. -/
theorem one_link_step {created : Option ConnectID} {n n' : Nat}
    (hcount : n' = n + created.toList.count c) (hone : n ≤ 1) (hok : created = some c → n = 0) :
    n' ≤ 1 := by
  cases created with
  | none => simpa [hcount] using hone
  | some cnt =>
      by_cases hcnt : cnt = c
      · simp [hcount, hok (congrArg some hcnt), hcnt]
      · simpa [hcount, hcnt] using hone

end System

/-! ## One stream -/

/-- A link all of whose chunks were created for `r` puts them out in their order. -/
theorem Registration.Inv.appended_prefix {reg r : Registration} (hreg : reg.Inv) (hr : r.Inv)
    (hcount : r.allocated ≤ 4294967294) (hsub : ∀ e ∈ reg.link.appended, e ∈ r.created) :
    reg.link.appended <+: r.created := by
  have hn := hr.numbered hcount
  have hlen := hn.count
  refine hreg.reassembly.numbered.prefix_of_mem hn.created ?_ hsub
  intro i j hi hj hij
  exact OutLink.index_inj (by omega) (by omega) hij

/-- **Reassembly of one stream.**  A link all of whose chunks were created for
`r` writes what the link of `r` has read. -/
theorem Registration.Inv.written_prefix {reg r : Registration} (hreg : reg.Inv) (hr : r.Inv)
    (hcount : r.allocated ≤ 4294967294) (hsub : ∀ e ∈ reg.link.appended, e ∈ r.created) :
    reg.link.written <+: r.link.readLog := by
  have hbegins := hreg.appended_prefix hr hcount hsub
  rw [(hr.numbered hcount).read]
  exact (OutLink.written_prefix hreg.drained).trans (hbegins.flatMap Prod.snd)

/-- Two links of a connection that has at most one are the same. -/
theorem eq_of_mem_linksOf {t : TrunkLink} {cnt : ConnectID} {x y : Registration}
    (hone : (t.linksOf cnt).length ≤ 1) (hx : x ∈ t.linksOf cnt) (hy : y ∈ t.linksOf cnt) :
    x = y := by
  match hlist : t.linksOf cnt with
  | [] => simp [hlist] at hx
  | [z] =>
      rw [hlist] at hx hy
      rw [List.mem_singleton.mp hx, List.mem_singleton.mp hy]
  | _ :: _ :: _ => simp [hlist] at hone

/-- **What a link writes comes from one link of the other side**, if that side
has had only one for the connection. -/
theorem Linked.stream {a b : TrunkLink} {cnt : ConnectID} (h : Linked a b)
    (hone : (a.linksOf cnt).length ≤ 1)
    (hcount : ∀ r ∈ a.linksOf cnt, r.allocated < 4294967294) {reg : Registration}
    (hreg : reg ∈ b.linksOf cnt) :
    reg.link.written = [] ∨ ∃ r ∈ a.linksOf cnt, reg.link.written <+: r.link.readLog := by
  obtain ⟨hmem, hcnt⟩ := TrunkLink.mem_linksOf.mp hreg
  have hinv := h.far.sound reg hmem
  -- every chunk put out was created by a link of the connection
  have horigin : ∀ e ∈ reg.link.appended, ∃ r ∈ a.linksOf cnt, e ∈ r.created := by
    intro e he
    obtain ⟨r, hr, hrcnt, hcreated⟩ :=
      h.outward.heard reg hmem cnt hcnt e (hinv.chunks e (Or.inr he))
    exact ⟨r, TrunkLink.mem_linksOf.mpr ⟨hr, hrcnt⟩, hcreated⟩
  match hlist : a.linksOf cnt with
  | [] =>
      have hempty : reg.link.appended = [] := by
        refine List.eq_nil_iff_forall_not_mem.mpr fun e he => ?_
        obtain ⟨r, hr, _⟩ := horigin e he
        simp [hlist] at hr
      have hbegins := OutLink.written_prefix hinv.drained
      rw [hempty] at hbegins
      exact Or.inl (List.prefix_nil.mp hbegins)
  | r :: rest =>
      have hr : r ∈ a.linksOf cnt := hlist ▸ List.mem_cons_self
      refine Or.inr ⟨r, List.mem_cons_self, ?_⟩
      refine hinv.written_prefix (h.near.sound r (TrunkLink.mem_linksOf.mp hr).1)
        (Nat.le_of_lt (hcount r hr)) ?_
      intro e he
      obtain ⟨r', hr', hcreated⟩ := horigin e he
      exact eq_of_mem_linksOf hone hr' hr ▸ hcreated

/-! ## Upstream -/

namespace System

variable {s s' : System} {e : SystemEvent} {c : ConnectID}

/-- `GenerateUuid` gives the id `c` at most once. -/
def GeneratesOnce (c : ConnectID) (s : System) : SystemEvent → Prop
  | .addConnect cnt _ _ _ => cnt = c → s.client.base.linksOf c = []
  | _ => True

instance (c : ConnectID) (s : System) : ∀ e, Decidable (GeneratesOnce c s e)
  | .addConnect cnt _ _ _ =>
    inferInstanceAs (Decidable (cnt = c → s.client.base.linksOf c = []))
  | .clientAsio _ _ _ | .serverAsio _ _ _ | .clientTick _ _ _ | .serverTick _ _
  | .toServer _ _ _ _ | .toClient _ _ | .getStat => isTrue trivial

/-- The client creates a link only for a generated id. -/
theorem client_one_link {ok : System → SystemEvent → Prop} (h : Reachable ok s)
    (hok : ∀ s e, ok s e → GeneratesOnce c s e) : (s.client.base.linksOf c).length ≤ 1 := by
  refine h.invariant (I := fun s => (s.client.base.linksOf c).length ≤ 1) ?_ ?_
  · intro s hstart
    obtain ⟨clientTime, serverTime, trunkSockets, linkFabric, rfl⟩ := hstart
    exact Nat.zero_le 1
  · intro s e s' hs hone hoke hstep
    refine one_link_step (length_client_linksOf (reachable_inv hs) hstep c) hone fun hcreates => ?_
    cases e with
    | addConnect cnt point registered cached =>
        simp only [clientCreates] at hcreates
        split at hcreates
        · have hgen : cnt = c → s.client.base.linksOf c = [] := hok s _ hoke
          rw [hgen (Option.some.inj hcreates), List.length_nil]
        · cases hcreates
    | _ => cases hcreates

/-- **Upstream stream integrity.**  Whatever the network loses, repeats, delays
or reorders, and whatever is closed, stopped or created again: at every moment
the bytes written to the socket of any link of the server are the beginning of
the bytes the client has read for the same connection. -/
theorem upstream_integrity (hreach : Reachable (GeneratesOnce c) s)
    (hcount : ∀ r ∈ s.client.base.linksOf c, r.allocated < 4294967294) {reg : Registration}
    (hreg : reg ∈ s.server.base.linksOf c) :
    reg.link.written <+: (s.client.base.linksOf c).flatMap fun r => r.link.readLog := by
  have hone := client_one_link hreach fun _ _ hok => hok
  rcases (reachable_inv hreach).linked.stream hone hcount hreg with hnone | ⟨r, hr, hbegins⟩
  · rw [hnone]
    exact List.nil_prefix
  · match hlist : s.client.base.linksOf c with
    | [] => simp [hlist] at hr
    | [r'] =>
        rw [hlist] at hr
        simpa [List.mem_singleton.mp hr] using hbegins
    | _ :: _ :: _ => simp [hlist] at hone

/-- A server with one trunk socket that sends every point to one target. -/
def loopback : System where
  client := TrunkClient.create 0
  server := TrunkServer.create 1 (fun _ => some ⟨"localhost", 80⟩) 0

/-- The loopback system is a start. -/
theorem start_loopback : Start loopback := ⟨0, 0, 1, _, rfl⟩

/-- Any run may be taken from there. -/
theorem reachable_loopback {s : System} {es : List SystemEvent}
    (hrun : Transition.run step loopback es = some s) : Reachable (fun _ _ => True) s :=
  .of_run (.start start_loopback) (Transition.always_of_mem fun _ _ => trivial) hrun

/-- The address of both ends. -/
def localhost : Endpoint := ⟨[127, 0, 0, 1], 80⟩

/-- The server has connected to the target of connection 1. -/
def connecting : List SystemEvent :=
  [.addConnect (.ofByte 1) 7 0 0, .toServer 0 0 localhost 0,
    .serverAsio 0 (.resolved 0 (some [localhost])) 0, .serverAsio 0 (.connected 0 false) 0]

/-- The client reads the byte A, which comes out at the server. -/
def upstreamByte : List SystemEvent :=
  connecting ++ [.clientAsio 0 (.readDone 0 ⟨false, [65]⟩) 0, .clientAsio 0 (.readHandler 0) 0,
    .toServer 1 0 localhost 0, .serverAsio 0 (.timerHandler 0) 0,
    .serverAsio 0 (.writeDone 0 ⟨false, 1⟩) 0]

/-- The client reads A and then B and C; the second packet arrives before the first one,
which arrives twice. -/
def upstreamSwapped : List SystemEvent :=
  connecting ++ [.clientAsio 0 (.readDone 0 ⟨false, [65]⟩) 0, .clientAsio 0 (.readHandler 0) 0,
    .clientAsio 0 (.readDone 0 ⟨false, [66, 67]⟩) 0, .clientAsio 0 (.readHandler 0) 0,
    .toServer 2 0 localhost 0, .toServer 1 0 localhost 0, .toServer 1 0 localhost 0,
    .serverAsio 0 (.timerHandler 0) 0, .serverAsio 0 (.writeDone 0 ⟨false, 3⟩) 0]

/-- Two chunks in the wrong order, the second twice: the stream arrives in order. -/
theorem upstream_integrity_swapped :
    ∃ s, Transition.run step loopback upstreamSwapped = some s ∧
      ∃ reg ∈ s.server.base.linksOf (.ofByte 1), reg.link.written = [65, 66, 67] ∧
        reg.link.written <+:
          (s.client.base.linksOf (.ofByte 1)).flatMap fun r => r.link.readLog := by
  have hany : (Transition.run step loopback upstreamSwapped).any (fun s =>
      (∃ reg ∈ s.server.base.linksOf (.ofByte 1), reg.link.written = [65, 66, 67]) ∧
        ∀ r ∈ s.client.base.linksOf (.ofByte 1), r.allocated < 4294967294) = true := by
    decide +kernel
  obtain ⟨s, hrun, hs⟩ := (Option.any_eq_true _ _).mp hany
  obtain ⟨⟨reg, hreg, hwritten⟩, hcount⟩ := of_decide_eq_true hs
  have hreach : Reachable (GeneratesOnce (.ofByte 1)) s :=
    .of_run (.start start_loopback) (by decide +kernel) hrun
  exact ⟨s, hrun, reg, hreg, hwritten, upstream_integrity hreach hcount hreg⟩

end System
