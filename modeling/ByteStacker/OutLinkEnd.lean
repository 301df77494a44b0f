import ByteStacker.OutLinkCalls
import ByteStacker.OutLinkDial
import ByteStacker.Possibility

/-!
# A link with anything in flight can end

A link that waits for anything can still close, whatever it is doing: a read that fails makes
the read loop end and cancels the writer, whose next turn ends the write loop; a link that is
not connected yet has its host or an endpoint to wait for.  The closing check posted last then
finds both loops ended.

A closed link has nothing in flight but further closing checks, and these run out.
-/

open Transition (Possibly)

namespace OutLink

variable {l l' : OutLink} {e : AsioEvent} {call : Option HosterCall}

/-- The handlers in flight.  Each holds the link. -/
def handlers (l : OutLink) : Nat :=
  l.resolves.length + l.connects.length + l.reads.length + l.writes.length + l.timers.length +
    l.posts

/-- An asio event of the link, whatever it calls. -/
def move (l : OutLink) (e : AsioEvent) : Option OutLink := (l.asioStep e).map Prod.fst

/-- Every asio event is a move. -/
theorem move_of_asioStep (hstep : l.asioStep e = some (l', call)) : l.move e = some l' := by
  rw [move, hstep]
  rfl

/-! ## A closed link -/

/-- A closed link has nothing in flight but posted closing checks. -/
theorem Owned.handlers_closed (h : Owned l) (hclosed : l.closeInvoked = true) :
    l.handlers = l.posts := by
  obtain ⟨hread, hwrite⟩ := h.closed hclosed
  have hreads : l.reads.length = 0 := by
    rw [h.reads, hread]
    rfl
  have hwrites : l.writes.length + l.timers.length = 0 := by
    rw [h.writes, hwrite]
    rfl
  have hsetup : ¬ 0 < l.resolves.length + l.connects.length := by
    intro hpos
    have hopen := (h.unposted hpos).2
    exact absurd (hclosed.symm.trans hopen) (by simp)
  unfold handlers
  omega

/-- **A closed link stays as it is.**  All that can still happen to it is a closing check,
which drops its hold. -/
theorem Owned.closed_event (h : Owned l) (hclosed : l.closeInvoked = true)
    (hstep : l.asioStep e = some (l', call)) :
    0 < l.posts ∧ call = none ∧ l' = { l with posts := l.posts - 1 } := by
  have hnone := h.handlers_closed hclosed
  unfold handlers at hnone
  have hempty : ∀ {α : Type} {xs : List α} {i : Nat} {x : α}, xs.length = 0 → xs[i]? ≠ some x := by
    intro α xs i x hlength hx
    rw [List.eq_nil_of_length_eq_zero hlength] at hx
    cases hx
  cases asioStep_outcome hstep with
  | resolved hx => exact absurd hx (hempty (by omega))
  | connected hx => exact absurd hx (hempty (by omega))
  | readDone hx _ => exact absurd hx (hempty (by omega))
  | readHandler hx _ => exact absurd hx (hempty (by omega))
  | writeDone hx _ => exact absurd hx (hempty (by omega))
  | writeHandler hx => exact absurd hx (hempty (by omega))
  | timerExpire hx => exact absurd hx (hempty (by omega))
  | timerHandler hx _ => exact absurd hx (hempty (by omega))
  | closeCheck hpos heq =>
      rcases checkReadyCloseProcessing_cases { l with posts := l.posts - 1 } with
        ⟨_, _, hopen, _⟩ | ⟨_, hsame⟩
      · exact absurd (hclosed.symm.trans hopen) (by simp)
      · rw [hsame] at heq
        cases heq
        exact ⟨Nat.pos_of_ne_zero hpos, rfl, rfl⟩

/-- The posted checks of a closed link run out. -/
theorem Owned.runs_out (h : Owned l) (hclosed : l.closeInvoked = true) :
    Possibly move l fun m => m.closeInvoked = true ∧ m.handlers = 0 := by
  induction hposts : l.posts generalizing l with
  | zero => exact .now ⟨hclosed, (h.handlers_closed hclosed).trans hposts⟩
  | succ n ih =>
      have hstep : l.asioStep .closeCheck = some ({ l with posts := l.posts - 1 }, none) := by
        simp [asioStep, checkReadyCloseProcessing, hposts, hclosed]
      exact (ih (owned_asioStep h hstep) hclosed (by simp [hposts])).after
        (move_of_asioStep hstep)

/-- Only the closing check closes a link. -/
theorem closeInvoked_asioStep (hstep : l.asioStep e = some (l', call)) (hcheck : e ≠ .closeCheck) :
    l'.closeInvoked = l.closeInvoked := by
  cases asioStep_outcome hstep with
  | @resolved i x results hx =>
      cases results with
      | none => rfl
      | some points => exact (sameStage_requestConnect _).2.1
  | @connected i x error hx =>
      cases error with
      | true => exact (sameStage_requestConnect _).2.1
      | false => exact (stage_startLoops _).2.1
  | readDone _ _ => rfl
  | @readHandler i r _ _ hx heq =>
      have hsame := (stage_readHandler { l with reads := l.reads.eraseIdx i } r).2.1
      rw [heq] at hsame
      exact hsame
  | writeDone _ _ => rfl
  | writeHandler _ => exact (stage_writeHandler _ _).2.1
  | timerExpire _ => rfl
  | timerHandler _ _ => exact (sameStage_requestWrite _).closeInvoked
  | closeCheck _ _ => exact absurd rfl hcheck

/-! ## A connected link -/

/-- A link with a connection, not closed yet. -/
structure Online (l : OutLink) : Prop where
  owned : Owned l
  connected : l.connected = true
  unclosed : l.closeInvoked = false

/-- An event that is no closing check leaves the link online. -/
theorem Online.asioStep (h : Online l) (hstep : l.asioStep e = some (l', call))
    (hcheck : e ≠ .closeCheck) : Online l' := by
  refine ⟨owned_asioStep h.owned hstep, ?_, (closeInvoked_asioStep hstep hcheck).trans h.unclosed⟩
  have hdial : l'.connected = (l.dial.after e).connected :=
    congrArg Dial.connected (dial_asioStep hstep)
  have hconnected : l.dial.connected = true := h.connected
  rw [hdial]
  cases e with
  | resolved i results =>
      cases results with
      | none => exact hconnected
      | some points => exact hconnected
  | connected i error =>
      cases error with
      | true => exact hconnected
      | false => rfl
  | _ => exact hconnected

/-- A read that has failed ends the read loop. -/
theorem Online.read_failed (h : Online l) {r : ReadResult} (hone : l.reads = [some r])
    (herror : r.error = true) : Possibly move l fun m => Online m ∧ m.readProcessing = false := by
  have hstep : l.asioStep (.readHandler 0) =
      some (({ l with reads := [] } : OutLink).requestReadProcessing r) := by
    simp [OutLink.asioStep, hone]
  have hended : (({ l with reads := [] } : OutLink).requestReadProcessing r).1.readProcessing =
      false := by
    simp [requestReadProcessing, herror, checkReadyClose, cancelReadWrite, cancelSocket,
      cancelTimer]
  exact .after (move_of_asioStep hstep) (.now ⟨h.asioStep hstep (by simp), hended⟩)

/-- The read in flight may fail. -/
theorem Online.reading_fails (h : Online l) (hone : l.reads = [none]) :
    Possibly move l fun m => Online m ∧ m.readProcessing = false := by
  have hstep : l.asioStep (.readDone 0 ⟨true, []⟩) =
      some ({ l with reads := [some ⟨true, []⟩] }, none) := by
    simp [OutLink.asioStep, hone]
  exact ((h.asioStep hstep (by simp)).read_failed rfl rfl).after (move_of_asioStep hstep)

/-- A block that was read without error starts the next read. -/
theorem reads_again (hread : l.readProcessing = true) {r : ReadResult} (herror : r.error = false)
    (hnone : l.reads = []) : (l.requestReadProcessing r).1.reads = [none] := by
  obtain ⟨fails, heq⟩ := l.assertThat_eq .requestReadProcessing (r.data = [] ∨ l.hoster.isSome)
  unfold requestReadProcessing
  simp only [heq, herror, Bool.false_eq_true, if_false]
  rw [requestRead_eq (by exact hread)]
  simp [hnone]

/-- **The read loop can end.** -/
theorem Online.read_ends (h : Online l) :
    Possibly move l fun m => Online m ∧ m.readProcessing = false := by
  have hlength := h.owned.reads
  cases hread : l.readProcessing with
  | false => exact .now ⟨h, hread⟩
  | true =>
      rw [hread, Bool.toNat_true] at hlength
      obtain ⟨x, hone⟩ := List.length_eq_one_iff.mp hlength
      cases x with
      | none => exact h.reading_fails hone
      | some r =>
          cases herror : r.error with
          | true => exact h.read_failed hone herror
          | false =>
              -- the block is handed over, and the next read may fail
              have hstep : l.asioStep (.readHandler 0) =
                  some (({ l with reads := [] } : OutLink).requestReadProcessing r) := by
                simp [OutLink.asioStep, hone]
              have hnext := reads_again (l := { l with reads := [] }) hread herror rfl
              exact ((h.asioStep hstep (by simp)).reading_fails hnext).after
                (move_of_asioStep hstep)

/-- `RequestWrite` of a link whose writer was cancelled ends the write loop. -/
theorem requestWrite_cancelled (himm : l.stopWriteImmediate = true) :
    l.requestWrite.readProcessing = l.readProcessing ∧ l.requestWrite.writeProcessing = false := by
  obtain ⟨fails, heq⟩ := l.assertThat_eq .requestWrite l.writeProcessing
  unfold requestWrite
  simp [heq, himm, endWrite, cancelReadWrite, cancelSocket, cancelTimer, checkReadyClose]

/-- A write that is done ends the write loop of a link that reads no more. -/
theorem Online.write_done (h : Online l) (hread : l.readProcessing = false) {size : Nat}
    {r : WriteResult} (hone : l.writes = [⟨size, some r⟩]) :
    Possibly move l fun m => Online m ∧ m.readProcessing = false ∧ m.writeProcessing = false := by
  have hstep : l.asioStep (.writeHandler 0) =
      some (({ l with writes := [] } : OutLink).requestWriteProcessing r, none) := by
    simp [OutLink.asioStep, hone]
  have hget : l.writes[0]? = some ⟨size, some r⟩ := by simp [hone]
  obtain ⟨hwrite, _⟩ := h.owned.writing hget
  obtain ⟨hsize, _, hle⟩ := h.owned.buffer _ (List.mem_of_getElem? hget)
  have himm := h.owned.aborted h.connected hread
  refine .after (move_of_asioStep hstep) (.now ⟨h.asioStep hstep (by simp), ?_⟩)
  rcases requestWriteProcessing_cases { l with writes := [] } r hwrite (hsize ▸ hle r rfl) with
    ⟨_, heq⟩ | ⟨_, _, heq⟩
  · rw [heq]
    exact ⟨hread, rfl⟩
  · rw [heq]
    obtain ⟨hsame, hended⟩ := requestWrite_cancelled (l := { l with
      writes := []
      networkWriteBuffer := l.networkWriteBuffer.drop r.transferred }) himm
    exact ⟨hsame.trans hread, hended⟩

/-- So does an idle wait that is over. -/
theorem Online.wait_over (h : Online l) (hread : l.readProcessing = false) {t : WaitStatus}
    (hone : l.timers = [t]) (hover : t ≠ .waiting) :
    Possibly move l fun m => Online m ∧ m.readProcessing = false ∧ m.writeProcessing = false := by
  have hstep : l.asioStep (.timerHandler 0) =
      some (({ l with timers := [] } : OutLink).requestWrite, none) := by
    cases t with
    | waiting => exact absurd rfl hover
    | expired => simp [OutLink.asioStep, hone]
    | cancelled => simp [OutLink.asioStep, hone]
  obtain ⟨hsame, hended⟩ := requestWrite_cancelled (l := { l with timers := [] })
    (h.owned.aborted h.connected hread)
  exact .after (move_of_asioStep hstep)
    (.now ⟨h.asioStep hstep (by simp), hsame.trans hread, hended⟩)

/-- **Then the write loop can end.** -/
theorem Online.write_ends (h : Online l) (hread : l.readProcessing = false) :
    Possibly move l fun m => Online m ∧ m.readProcessing = false ∧ m.writeProcessing = false := by
  have hlength := h.owned.writes
  cases hwrite : l.writeProcessing with
  | false => exact .now ⟨h, hread, hwrite⟩
  | true =>
      rw [hwrite, Bool.toNat_true] at hlength
      cases hwrites : l.writes with
      | cons w rest =>
          rw [hwrites, List.length_cons] at hlength
          obtain rfl : rest = [] := List.eq_nil_of_length_eq_zero (by omega)
          obtain ⟨size, result⟩ := w
          cases result with
          | some r => exact h.write_done hread hwrites
          | none =>
              have hstep : l.asioStep (.writeDone 0 ⟨true, 0⟩) = some ({ l with
                  writes := [⟨size, some ⟨true, 0⟩⟩]
                  written := l.written ++ l.networkWriteBuffer.take 0 }, none) := by
                simp [OutLink.asioStep, hwrites]
              exact ((h.asioStep hstep (by simp)).write_done hread rfl).after
                (move_of_asioStep hstep)
      | nil =>
          rw [hwrites, List.length_nil, Nat.zero_add] at hlength
          obtain ⟨t, hone⟩ := List.length_eq_one_iff.mp hlength
          by_cases hwait : t = .waiting
          · have hstep : l.asioStep (.timerExpire 0) =
                some ({ l with timers := [.expired] }, none) := by
              simp [OutLink.asioStep, hone, hwait]
            exact ((h.asioStep hstep (by simp)).wait_over hread rfl (by simp)).after
              (move_of_asioStep hstep)
          · exact h.wait_over hread hone hwait

/-! ## The end -/

/-- A closing check that finds both loops ended closes the link. -/
theorem Owned.check_closes (h : Owned l) (hread : l.readProcessing = false)
    (hwrite : l.writeProcessing = false) (hopen : l.closeInvoked = false) (hposts : 0 < l.posts) :
    Possibly move l fun m => Owned m ∧ m.closeInvoked = true := by
  have hpos : l.posts ≠ 0 := Nat.ne_of_gt hposts
  have hstep : l.asioStep .closeCheck =
      some (({ l with posts := l.posts - 1 } : OutLink).checkReadyCloseProcessing) := by
    simp [asioStep, hpos]
  rcases checkReadyCloseProcessing_cases { l with posts := l.posts - 1 } with
    ⟨_, _, _, hclose⟩ | ⟨hclosed, _⟩
  · rw [hclose] at hstep
    exact .after (move_of_asioStep hstep) (.now ⟨owned_asioStep h hstep, rfl⟩)
  · exact absurd ((hclosed hread hwrite).symm.trans hopen) (by simp)

/-- **A connected link can close**: the read loop can end, then the write loop, then the check
closes. -/
theorem Online.may_close (h : Online l) :
    Possibly move l fun m => Owned m ∧ m.closeInvoked = true :=
  h.read_ends.bind fun _ hm => (hm.1.write_ends hm.2).bind fun _ hn =>
    hn.1.owned.check_closes hn.2.1 hn.2.2 hn.1.unclosed
      (hn.1.owned.pending hn.1.connected hn.2.1 hn.2.2 hn.1.unclosed)

/-- A link with anything in flight can close. -/
theorem Owned.may_close (h : Owned l) (hheld : 0 < l.handlers) :
    Possibly move l fun m => Owned m ∧ m.closeInvoked = true := by
  by_cases hclosed : l.closeInvoked = true
  · exact .now ⟨h, hclosed⟩
  have hopen : l.closeInvoked = false := by simpa using hclosed
  by_cases honline : l.connected = true
  · exact Online.may_close ⟨h, honline, hopen⟩
  have hoffline : l.connected = false := by simpa using honline
  obtain ⟨hread, hwrite⟩ := h.offline hoffline
  obtain ⟨hreads, hwrites, htimers⟩ := h.offline_empty hoffline
  simp only [handlers, hreads, hwrites, htimers, List.length_nil, Nat.add_zero] at hheld
  by_cases hposts : 0 < l.posts
  · exact h.check_closes hread hwrite hopen hposts
  cases hresolves : l.resolves with
  | cons query rest =>
      -- the resolver may fail
      have hstep : l.asioStep (.resolved 0 none) =
          some (({ l with resolves := rest } : OutLink).checkReadyClose, none) := by
        simp [asioStep, hresolves, resolverProcessing]
      exact ((owned_asioStep h hstep).check_closes hread hwrite hopen (Nat.succ_pos _)).after
        (move_of_asioStep hstep)
  | nil =>
      cases hconnects : l.connects with
      | cons ep rest =>
          -- the endpoint may accept
          have hstep : l.asioStep (.connected 0 false) =
              some (({ l with connects := rest } : OutLink).startLoops, none) := by
            simp [asioStep, hconnects, requestConnectProcessing]
          have hconnected : ({ l with connects := rest } : OutLink).startLoops.connected = true :=
            congrArg (fun o => o.1.connected) (outside_startLoops { l with connects := rest })
          exact (Online.may_close ⟨owned_asioStep h hstep, hconnected,
            (closeInvoked_asioStep hstep (by simp)).trans hopen⟩).after (move_of_asioStep hstep)
      | nil =>
          rw [hresolves, hconnects] at hheld
          simp only [List.length_nil, Nat.add_zero] at hheld
          omega

/-- **A link with anything in flight can come to its end.** -/
theorem Owned.comes_to_end (h : Owned l) (hheld : 0 < l.handlers) :
    Possibly move l fun m => m.closeInvoked = true ∧ m.handlers = 0 :=
  (h.may_close hheld).bind fun _ hm => hm.1.runs_out hm.2

end OutLink
