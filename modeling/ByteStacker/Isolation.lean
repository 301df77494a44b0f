import ByteStacker.ClientConnection
import ByteStacker.ServerConnection
import ByteStacker.Projection

/-!
# Connections do not disturb each other

All connections of a side share its vectors.  `TrunkClient.projects` and
`TrunkServer.projects` put the comparisons of single events together: a side is,
for each of its connections, the machine that has this connection only.  What
happens to a connection in a run, and what is sent for it, is therefore what its
own events and the ticks make of it, and `isolation` says so for two runs that
agree on these.
-/

open Transition

/-- **A client is, for each connection, what it were without the others.** -/
theorem TrunkClient.projects (d : ConnectID) :
    Projects TrunkClient.step (fun c e => carrying d (c.sent e)) Apart
      (fun c => c.connection d) ClientConnection.event (ClientEvent.Concerns d) := by
  have hseen : ∀ {c e c'}, Apart c → c.step e = some c' → Seen d c e (c', c.sent e) := by
    intro c e c' h hstep
    obtain ⟨⟨m, out⟩, hevent, rfl⟩ := Option.map_eq_some_iff.mp hstep
    have hsent : c.sent e = out := by rw [sent, hevent]; rfl
    rw [hsent]
    exact seen_event h hevent
  refine ⟨fun h hstep => (hseen h hstep).keeps, fun h hown hstep => (hseen h hstep).own hown, ?_⟩
  intro c e c' h hforeign hstep
  exact Prod.mk.inj ((hseen h hstep).foreign hforeign)

/-- **A server is, for each connection, what it were without the others.** -/
theorem TrunkServer.projects (d : ConnectID) :
    Projects TrunkServer.step (fun s e => carrying d (s.sent e)) (fun s => s.base.Apart)
      (fun s => s.connection d) ServerConnection.event (ServerEvent.Concerns d) := by
  have hseen : ∀ {s e s'}, s.base.Apart → s.step e = some s' → Seen d s e (s', s.sent e) := by
    intro s e s' h hstep
    obtain ⟨⟨m, out⟩, hevent, rfl⟩ := Option.map_eq_some_iff.mp hstep
    have hsent : s.sent e = out := by rw [sent, hevent]; rfl
    rw [hsent]
    exact seen_event h hevent
  refine ⟨fun h hstep => (hseen h hstep).keeps, fun h hown hstep => (hseen h hstep).own hown, ?_⟩
  intro s e s' h hforeign hstep
  exact Prod.mk.inj ((hseen h hstep).foreign hforeign)

/-- **Isolation of the connections.**  Two runs of a client, or of a server, with the
same ticks and the same events of the connection `d` may differ arbitrarily in the
events of all other connections: the link of `d` with its reassembly and stop
state, its next index, its timeout, its cached packets, its pending requests and
its route are the same after both, and the same packets that carry `d` were sent. -/
theorem isolation (d : ConnectID) :
    (∀ (now : Time) (es₁ es₂ : List ClientEvent) (c₁ c₂ : TrunkClient),
      run TrunkClient.step (.create now) es₁ = some c₁ →
      run TrunkClient.step (.create now) es₂ = some c₂ →
      (es₁.filter fun e => e.Concerns d) = es₂.filter (fun e => e.Concerns d) →
      c₁.connection d = c₂.connection d ∧
        collect TrunkClient.step (fun c e => TrunkClient.carrying d (c.sent e)) (.create now) es₁ =
        collect TrunkClient.step (fun c e => TrunkClient.carrying d (c.sent e)) (.create now) es₂) ∧
    (∀ (trunkSockets : Nat) (linkFabric : PointID → Option AddressPortPoint) (now : Time)
      (es₁ es₂ : List ServerEvent) (s₁ s₂ : TrunkServer),
      run TrunkServer.step (.create trunkSockets linkFabric now) es₁ = some s₁ →
      run TrunkServer.step (.create trunkSockets linkFabric now) es₂ = some s₂ →
      (es₁.filter fun e => e.Concerns d) = es₂.filter (fun e => e.Concerns d) →
      s₁.connection d = s₂.connection d ∧
        collect TrunkServer.step (fun s e => TrunkServer.carrying d (s.sent e))
          (.create trunkSockets linkFabric now) es₁ =
        collect TrunkServer.step (fun s e => TrunkServer.carrying d (s.sent e))
          (.create trunkSockets linkFabric now) es₂) := by
  constructor
  · intro now es₁ es₂ c₁ c₂ hrun₁ hrun₂ hsame
    have hstart : (TrunkClient.create now).Apart :=
      ⟨TrunkLink.apart_create false now, by simp [TrunkClient.create]⟩
    exact (TrunkClient.projects d).isolated hstart hstart rfl hsame hrun₁ hrun₂
  · intro trunkSockets linkFabric now es₁ es₂ s₁ s₂ hrun₁ hrun₂ hsame
    have hstart : (TrunkServer.create trunkSockets linkFabric now).base.Apart :=
      TrunkLink.apart_create true now
    exact (TrunkServer.projects d).isolated hstart hstart rfl hsame hrun₁ hrun₂

/-- A connection alone on a client, and beside another one that comes, receives and
is closed between its events. -/
def clientAlone : List ClientEvent :=
  [.addConnect (.ofByte 1) 7 0 0, .sendData (.ofByte 1) [65] 1, .tick 2 2 2]

def clientBeside : List ClientEvent :=
  [.addConnect (.ofByte 2) 8 0 0, .addConnect (.ofByte 1) 7 0 0,
    .receive (dataPacket (.ofByte 2) [66] .dataIn 0).datagram 1,
    .sendData (.ofByte 1) [65] 1, .closeConnect (.ofByte 2) 1, .tick 2 2 2]

/-- The same for a server, where creating the other link fails. -/
def serverAlone : List ServerEvent :=
  [.receive 0 ⟨[1], 1000⟩ (connectPacket (.ofByte 1) 7 500).datagram 0 false, .tick 2 2]

def serverBeside : List ServerEvent :=
  [.receive 0 ⟨[1], 1000⟩ (connectPacket (.ofByte 1) 7 500).datagram 0 false,
    .receive 0 ⟨[2], 2000⟩ (connectPacket (.ofByte 2) 8 500).datagram 1 true, .tick 2 2]

/-- The other connection changes the side, and nothing for the first one. -/
theorem isolation_beside :
    (∃ c₁ c₂, run TrunkClient.step (.create 0) clientAlone = some c₁ ∧
      run TrunkClient.step (.create 0) clientBeside = some c₂ ∧
      c₁.connection (.ofByte 2) ≠ c₂.connection (.ofByte 2) ∧
      c₁.connection (.ofByte 1) = c₂.connection (.ofByte 1)) ∧
    ∃ s₁ s₂, run TrunkServer.step (.create 1 (fun _ => some ⟨"10.0.0.1", 22⟩) 0) serverAlone =
        some s₁ ∧
      run TrunkServer.step (.create 1 (fun _ => some ⟨"10.0.0.1", 22⟩) 0) serverBeside = some s₂ ∧
      s₁.getClientLink (.ofByte 2) ≠ s₂.getClientLink (.ofByte 2) ∧
      s₁.connection (.ofByte 1) = s₂.connection (.ofByte 1) := by
  refine ⟨⟨_, _, rfl, rfl, by decide +kernel, ?_⟩, _, _, rfl, rfl, by decide +kernel, ?_⟩
  · exact ((isolation (.ofByte 1)).1 0 clientAlone clientBeside _ _ rfl rfl
      (by decide +kernel)).1
  · exact ((isolation (.ofByte 1)).2 1 (fun _ => some ⟨"10.0.0.1", 22⟩) 0 serverAlone
      serverBeside _ _ rfl rfl (by decide +kernel)).1
