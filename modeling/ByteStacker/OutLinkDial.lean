import ByteStacker.OutLinkChunks
import ByteStacker.Simulation

/-!
# Dialling

A link created from an address resolves its host, then tries the endpoints of the
answer one after the other until one accepts.  `Dialing` is the machine this amounts
to, and `dial_simulation` says that the connecting stage of a link is that machine:
asio events of the loops and the calls of the trunk do not touch it.

The runs of the machine are few: `Dialing.run_cases` lists them, and
`dials_in_order` reads them back as the attempts of a link.
-/

namespace OutLink

/-- The part of a link that concerns the connecting stage. -/
structure Dial where
  host : String
  service : String
  resolvedPoints : List Endpoint
  resolves : List (String × String)
  connects : List Endpoint
  connected : Bool
  deriving DecidableEq

def dial (l : OutLink) : Dial where
  host := l.host
  service := l.service
  resolvedPoints := l.resolvedPoints
  resolves := l.resolves
  connects := l.connects
  connected := l.connected

/-- What a link shows to the outside: its connecting stage and the bytes it has written. -/
def outside (l : OutLink) : Dial × Bytes := (l.dial, l.written)

variable {l l' : OutLink}

/-! ## What touches the connecting stage -/

/-- Filling the buffer shows nothing to the outside. -/
theorem outside_fillNetworkBuffer (l : OutLink) : l.fillNetworkBuffer.outside = l.outside :=
  fillNetworkBuffer_rule (P := fun m => m.outside = l.outside) (fun _ _ h => h) (fun _ h _ => h)
    (fun _ _ _ h _ _ => h) rfl

/-- Nor does a turn of the write loop: its write has yet to complete. -/
theorem outside_requestWrite (l : OutLink) : l.requestWrite.outside = l.outside := by
  have hfilled : ∀ fails m, m = ({ l with failedAsserts := fails } : OutLink).fillNetworkBuffer →
      m.outside = l.outside :=
    fun fails m hm => hm ▸ outside_fillNetworkBuffer { l with failedAsserts := fails }
  have hout := requestWrite_outcome l
  generalize l.requestWrite = after at hout ⊢
  cases hout with
  | aborted fails _ => rfl
  | finished fails m _ hm _ _ => exact hfilled fails m hm
  | idle fails m _ hm _ _ => exact hfilled fails m hm
  | writing fails m _ hm _ => exact hfilled fails m hm

/-- Starting the loops marks the link connected. -/
theorem outside_startLoops (l : OutLink) :
    l.startLoops.outside = ({ l.dial with connected := true }, l.written) := by
  unfold startLoops requestRead
  simp only [assertThat_true]
  exact outside_requestWrite _

/-- The read loop shows nothing. -/
theorem outside_readHandler (l : OutLink) (r : ReadResult) :
    (l.requestReadProcessing r).1.outside = l.outside := by
  obtain ⟨fails, heq⟩ := l.assertThat_eq .requestReadProcessing (r.data = [] ∨ l.hoster.isSome)
  unfold requestReadProcessing
  simp only [heq]
  split
  · rfl
  · obtain ⟨fails', heq'⟩ := ({ l with
      failedAsserts := fails
      readLog := l.readLog ++ r.data } : OutLink).assertThat_eq .requestRead l.readProcessing
    unfold requestRead
    rw [heq']
    rfl

/-- The bytes of a write were counted when it completed. -/
theorem outside_writeHandler (l : OutLink) (r : WriteResult) :
    (l.requestWriteProcessing r).outside = l.outside := by
  obtain ⟨running, fails, _, heq | heq⟩ := l.requestWriteProcessing_shape r
  · rw [heq]
    rfl
  · rw [heq]
    exact outside_requestWrite _

/-- The next endpoint is tried, if there is one. -/
def Dial.request (d : Dial) : Dial :=
  { d with connects := d.connects ++ d.resolvedPoints.take 1 }

/-- The next endpoint is the first one left. -/
theorem outside_requestConnect (l : OutLink) :
    l.requestConnect.outside = (l.dial.request, l.written) := by
  unfold requestConnect Dial.request outside dial
  cases hpoints : l.resolvedPoints with
  | nil => simp [hpoints]
  | cons ep rest => simp

/-- **What an asio event does to the connecting stage.** -/
def Dial.after (d : Dial) : AsioEvent → Dial
  | .resolved i none => { d with resolves := d.resolves.eraseIdx i }
  | .resolved i (some points) =>
    { d with
      resolves := d.resolves.eraseIdx i
      resolvedPoints := d.resolvedPoints ++ points }.request
  | .connected i true =>
    { d with
      connects := d.connects.eraseIdx i
      resolvedPoints := d.resolvedPoints.tail }.request
  | .connected i false => { d with connects := d.connects.eraseIdx i, connected := true }
  | _ => d

/-- The bytes an asio event takes out of the buffer to write. -/
def writtenIn (l : OutLink) : AsioEvent → Bytes
  | .writeDone _ r => l.networkWriteBuffer.take r.transferred
  | _ => []

/-- Nothing else touches the connecting stage, and only a write takes bytes out. -/
theorem outside_asioStep {e : AsioEvent} {call : Option HosterCall}
    (hstep : l.asioStep e = some (l', call)) :
    l'.outside = (l.dial.after e, l.written ++ l.writtenIn e) := by
  have hquiet : ∀ {m : OutLink} {d : Dial}, m.outside = (d, l.written) →
      m.outside = (d, l.written ++ []) := by
    intro m d h
    rw [h, List.append_nil]
  cases asioStep_outcome hstep with
  | @resolved i x results hx =>
      cases results with
      | none => exact hquiet rfl
      | some points => exact hquiet (outside_requestConnect _)
  | @connected i x error hx =>
      cases error with
      | true => exact hquiet (outside_requestConnect _)
      | false => exact hquiet (outside_startLoops _)
  | readDone hx hle => exact hquiet rfl
  | @readHandler i r _ _ hx heq =>
      have hsame := outside_readHandler { l with reads := l.reads.eraseIdx i } r
      rw [heq] at hsame
      exact hquiet hsame
  | writeDone hx hle => rfl
  | @writeHandler i size r hx => exact hquiet (outside_writeHandler _ r)
  | timerExpire hx => exact hquiet rfl
  | timerHandler hx ht => exact hquiet (outside_requestWrite _)
  | closeCheck hpos heq =>
      rcases checkReadyCloseProcessing_cases { l with posts := l.posts - 1 } with
        ⟨_, _, _, hclose⟩ | ⟨_, hclose⟩
      · rw [hclose] at heq
        cases heq
        exact hquiet rfl
      · rw [hclose] at heq
        cases heq
        exact hquiet rfl

/-- An asio event moves the connecting stage as `Dial.after` says. -/
theorem dial_asioStep {e : AsioEvent} {call : Option HosterCall}
    (hstep : l.asioStep e = some (l', call)) : l'.dial = l.dial.after e :=
  congrArg Prod.fst (outside_asioStep hstep)

/-- Only a completed write takes bytes out. -/
theorem written_asioStep {e : AsioEvent} {call : Option HosterCall}
    (hstep : l.asioStep e = some (l', call)) : l'.written = l.written ++ l.writtenIn e :=
  congrArg Prod.snd (outside_asioStep hstep)

/-- Chunks handed over are not shown. -/
theorem outside_sendData (l : OutLink) (chunkId : UInt32) (data : Bytes) :
    (l.sendData chunkId data).outside = l.outside := by
  have hout := sendData_outcome l chunkId data
  generalize l.sendData chunkId data = after at hout ⊢
  cases hout <;> rfl

/-- Nor are stops. -/
theorem outside_stop (l : OutLink) (n : UInt32) : (l.stop n).outside = l.outside := by
  by_cases hn : n ≤ l.nextWriteChunkId
  · rw [stop_atOnce hn]
    rfl
  · rw [stop_later (UInt32.not_le.mp hn)]
    rfl

/-- `SendData` does not touch the connecting stage. -/
theorem dial_sendData (l : OutLink) (chunkId : UInt32) (data : Bytes) :
    (l.sendData chunkId data).dial = l.dial :=
  congrArg Prod.fst (outside_sendData l chunkId data)

/-- Nor does `Stop`. -/
theorem dial_stop (l : OutLink) (n : UInt32) : (l.stop n).dial = l.dial :=
  congrArg Prod.fst (outside_stop l n)

/-! ## The machine -/

/-- How far the connecting stage has come: the endpoints that have refused, the one that
is being tried or has accepted, the ones behind it. -/
inductive Dialing
  | resolving
  | unresolved
  | trying (refused : List Endpoint) (current : Endpoint) (rest : List Endpoint)
  | connected (refused : List Endpoint) (peer : Endpoint) (rest : List Endpoint)
  | exhausted (refused : List Endpoint)
  deriving DecidableEq

inductive DialEvent
  | resolved (results : Option (List Endpoint))
  | refused (ep : Endpoint)
  | accepted (ep : Endpoint)
  deriving DecidableEq

namespace Dialing

/-- The endpoints are tried from the first one on. -/
def next (refused : List Endpoint) : List Endpoint → Dialing
  | [] => .exhausted refused
  | ep :: rest => .trying refused ep rest

def step : Dialing → DialEvent → Option Dialing
  | .resolving, .resolved none => some .unresolved
  | .resolving, .resolved (some points) => some (.next [] points)
  | .trying refused current rest, .refused ep =>
    if ep = current then some (.next (refused ++ [current]) rest) else none
  | .trying refused current rest, .accepted ep =>
    if ep = current then some (.connected refused current rest) else none
  | _, _ => none

/-- The connecting stage of a link in this phase. -/
def dial (host service : String) : Dialing → Dial
  | .resolving => ⟨host, service, [], [(host, service)], [], false⟩
  | .unresolved | .exhausted _ => ⟨host, service, [], [], [], false⟩
  | .trying _ current rest => ⟨host, service, current :: rest, [], [current], false⟩
  | .connected _ peer rest => ⟨host, service, peer :: rest, [], [], true⟩

/-- With endpoints left the first one is tried, without one nothing is in flight. -/
theorem dial_next (host service : String) (refused points : List Endpoint) :
    (next refused points).dial host service =
      ⟨host, service, points, [], points.take 1, false⟩ := by
  cases points with
  | nil => rfl
  | cons ep rest => rfl

end Dialing

/-- The events of the machine an event of a link stands for. -/
def dialEvents (l : OutLink) : LinkEvent → List DialEvent
  | .asio (.resolved _ results) => [.resolved results]
  | .asio (.connected i error) =>
    l.connects[i]?.toList.map fun ep => if error then .refused ep else .accepted ep
  | _ => []

/-- A list of one element has one place. -/
theorem getElem?_singleton_eq {α : Type} {x y : α} {i : Nat} (h : [x][i]? = some y) :
    i = 0 ∧ y = x := by
  cases i with
  | zero => exact ⟨rfl, (Option.some.inj h).symm⟩
  | succ i => cases h

/-- A resolve that completes is the one the link has started. -/
theorem matched_resolved {host service : String} {d : Dialing} {i : Nat}
    (results : Option (List Endpoint)) {x : String × String}
    (hx : (d.dial host service).resolves[i]? = some x) :
    ∃ d', d.step (.resolved results) = some d' ∧
      (d.dial host service).after (.resolved i results) = d'.dial host service := by
  cases d with
  | resolving =>
      obtain ⟨rfl, rfl⟩ := getElem?_singleton_eq hx
      cases results with
      | none => exact ⟨_, rfl, rfl⟩
      | some points =>
          refine ⟨_, rfl, ?_⟩
          rw [Dialing.dial_next]
          rfl
  | unresolved => cases hx
  | trying refused current rest => cases hx
  | connected refused peer rest => cases hx
  | exhausted refused => cases hx

/-- An attempt that completes is the one to the first endpoint that is left. -/
theorem matched_connected {host service : String} {d : Dialing} {i : Nat} (error : Bool)
    {ep : Endpoint} (hx : (d.dial host service).connects[i]? = some ep) :
    ∃ d', d.step (if error then .refused ep else .accepted ep) = some d' ∧
      (d.dial host service).after (.connected i error) = d'.dial host service := by
  cases d with
  | resolving => cases hx
  | unresolved => cases hx
  | trying refused current rest =>
      obtain ⟨rfl, rfl⟩ := getElem?_singleton_eq hx
      cases error with
      | true =>
          refine ⟨.next (refused ++ [ep]) rest, if_pos rfl, ?_⟩
          rw [Dialing.dial_next]
          rfl
      | false => exact ⟨.connected refused ep rest, if_pos rfl, rfl⟩
  | connected refused peer rest => cases hx
  | exhausted refused => cases hx

/-- **The connecting stage of a link is the machine.** -/
theorem dial_simulation (host service : String) :
    Transition.Simulation step (fun _ _ => True) Dialing.step dialEvents
      (fun d l => l.dial = d.dial host service) where
  step := by
    intro d l e l' hrel _ hstep
    cases e with
    | sendData chunkId data =>
        cases hstep
        exact ⟨d, rfl, (dial_sendData l chunkId data).trans hrel⟩
    | stop n =>
        cases hstep
        exact ⟨d, rfl, (dial_stop l n).trans hrel⟩
    | asio e =>
        obtain ⟨⟨m, call⟩, hm, rfl⟩ := Option.map_eq_some_iff.mp hstep
        have hdial := dial_asioStep hm
        rw [hrel] at hdial
        cases asioStep_outcome hm with
        | @resolved i x results hx =>
            have hresolves : l.resolves = (d.dial host service).resolves :=
              congrArg Dial.resolves hrel
            obtain ⟨d', hd', hafter⟩ := matched_resolved results (hresolves ▸ hx)
            refine ⟨d', ?_, hdial.trans hafter⟩
            simp only [dialEvents, Transition.run, hd', Option.bind_some]
        | @connected i ep error hx =>
            have hconnects : l.connects = (d.dial host service).connects :=
              congrArg Dial.connects hrel
            obtain ⟨d', hd', hafter⟩ := matched_connected error (hconnects ▸ hx)
            refine ⟨d', ?_, hdial.trans hafter⟩
            simp only [dialEvents, hx, Option.toList_some, List.map_cons, List.map_nil,
              Transition.run, hd', Option.bind_some]
        | readDone hx hle => exact ⟨d, rfl, hdial⟩
        | readHandler hx heq => exact ⟨d, rfl, hdial⟩
        | writeDone hx hle => exact ⟨d, rfl, hdial⟩
        | writeHandler hx => exact ⟨d, rfl, hdial⟩
        | timerExpire hx => exact ⟨d, rfl, hdial⟩
        | timerHandler hx ht => exact ⟨d, rfl, hdial⟩
        | closeCheck hpos heq => exact ⟨d, rfl, hdial⟩

/-! ## The runs of the machine -/

namespace Dialing

/-- **What a run of the machine looks like.** -/
inductive RunOf : List DialEvent → Dialing → Prop
  | resolving : RunOf [] .resolving
  | unresolved : RunOf [.resolved none] .unresolved
  | answered (refused rest : List Endpoint) :
      RunOf (.resolved (some (refused ++ rest)) :: refused.map .refused) (.next refused rest)
  | connected (refused : List Endpoint) (peer : Endpoint) (rest : List Endpoint) :
      RunOf (.resolved (some (refused ++ peer :: rest)) ::
        (refused.map .refused ++ [.accepted peer])) (.connected refused peer rest)

/-- **Every step of the machine** leads from one of these runs to another. -/
theorem RunOf.step {es : List DialEvent} {d d' : Dialing} {e : DialEvent} (h : RunOf es d)
    (hstep : d.step e = some d') : RunOf (es ++ [e]) d' := by
  cases h with
  | resolving =>
      cases e with
      | resolved results =>
          cases results with
          | none =>
              cases hstep
              exact .unresolved
          | some points =>
              cases hstep
              exact .answered [] points
      | refused ep => cases hstep
      | accepted ep => cases hstep
  | unresolved => cases hstep
  | answered refused rest =>
      cases rest with
      | nil => cases hstep
      | cons current rest =>
          cases e with
          | resolved results => cases hstep
          | refused ep =>
              obtain ⟨rfl, rfl⟩ : ep = current ∧ next (refused ++ [current]) rest = d' := by
                simpa [next, Dialing.step] using hstep
              have hrun := RunOf.answered (refused ++ [ep]) rest
              rw [List.append_assoc, List.map_append] at hrun
              exact hrun
          | accepted ep =>
              obtain ⟨rfl, rfl⟩ : ep = current ∧ Dialing.connected refused current rest = d' := by
                simpa [next, Dialing.step] using hstep
              exact .connected refused ep rest
  | connected refused peer rest => cases hstep

/-- So does every list of steps. -/
theorem RunOf.run {es fs : List DialEvent} {d d' : Dialing} (h : RunOf es d)
    (hrun : Transition.run Dialing.step d fs = some d') : RunOf (es ++ fs) d' := by
  induction fs generalizing es d with
  | nil =>
      cases hrun
      rw [List.append_nil]
      exact h
  | cons e rest ih =>
      obtain ⟨m, hm, hrest⟩ := Transition.run_cons.mp hrun
      have hlonger := ih (h.step hm) hrest
      rw [List.append_assoc] at hlonger
      exact hlonger

end Dialing

/-- **Dialling in order.**  Along every run of a link created from an address, whatever
else happens to it, the attempts are those of the machine: after the answer of the resolver
its endpoints are tried one at a time in their order, the next one only after the attempt
before has failed, and none after one has succeeded.  The link is connected to the endpoint
whose attempt has succeeded, and to none if all attempts have failed. -/
theorem dials_in_order {cnt : ConnectID} {address : String} {port : UInt16}
    {es : List LinkEvent}
    (hrun : Transition.run step ((createAddress address port).run cnt) es = some l) :
    ∃ d attempts,
      Transition.collect step dialEvents ((createAddress address port).run cnt) es = attempts ∧
      Dialing.RunOf attempts d ∧ l.dial = d.dial address (toString port.toNat) := by
  have hstart : ((createAddress address port).run cnt).dial =
      Dialing.resolving.dial address (toString port.toNat) := rfl
  obtain ⟨d, hd, hlast⟩ := (dial_simulation address (toString port.toNat)).run hstart
    (Transition.always_of_mem fun _ _ => trivial) hrun
  exact ⟨d, _, rfl, Dialing.RunOf.resolving.run hd, hlast⟩

/-- The first endpoint refuses, the second accepts. -/
theorem dials_in_order_second :
    ∃ l, Transition.run step ((createAddress "host" 80).run (.ofByte 1))
        [.asio (.resolved 0 (some [⟨[1], 80⟩, ⟨[2], 80⟩])), .stop 5, .asio (.connected 0 true),
          .asio (.connected 0 false)] = some l ∧ l.connected = true ∧
      ∃ d attempts, Dialing.RunOf attempts d ∧
        l.dial = d.dial "host" (toString (80 : UInt16).toNat) ∧
        attempts = [.resolved (some [⟨[1], 80⟩, ⟨[2], 80⟩]), .refused ⟨[1], 80⟩,
          .accepted ⟨[2], 80⟩] := by
  have hrun : Transition.run step ((createAddress "host" 80).run (.ofByte 1))
      [.asio (.resolved 0 (some [⟨[1], 80⟩, ⟨[2], 80⟩])), .stop 5, .asio (.connected 0 true),
        .asio (.connected 0 false)] = some _ := rfl
  obtain ⟨d, attempts, hattempts, hcases, hdial⟩ := dials_in_order hrun
  exact ⟨_, hrun, rfl, d, attempts, hcases, hdial, hattempts.symm⟩

end OutLink
