import ByteStacker.Accumulation
import ByteStacker.OutLinkChunks

/-!
# The order of arrival

Between two handlers of a link the trunk may call `SendData` and `Stop` any
number of times: datagrams arrive late, out of order and more than once.  The
calls that carry one stream, one content for each chunk and one stop point, may
come in any order and be repeated; the link ends up in the same state.

Only the record of failed assertions depends on the order: a chunk behind the
stop point fails the assertion of `SendData` if it comes after the stop, and is
dropped in silence if it comes before.  `silent` leaves that record out.
-/

namespace OutLink

/-- A call of the trunk on a link. -/
inductive Arrival
  | chunk (chunkId : UInt32) (data : Bytes)
  | stop (stopChunk : UInt32)
  deriving DecidableEq

def arrive (l : OutLink) : Arrival → OutLink
  | .chunk chunkId data => l.sendData chunkId data
  | .stop stopChunk => l.stop stopChunk

/-- The link without its record of failed assertions. -/
def silent (l : OutLink) : OutLink := { l with failedAsserts := [] }

/-- The link with the fields the calls change, and no failed assertion. -/
def filed (l : OutLink) (stopPoint : UInt32) (stopping : Bool) (chunks : SortedMap UInt32 Bytes)
    (timers : List WaitStatus) : OutLink :=
  { l with
    stopWriteChunkId := stopPoint
    stopAfterAllWrite := stopping
    writeChunks := chunks
    timers := timers
    failedAsserts := [] }

/-- The chunk is neither drained already nor at or behind the stop point. -/
def Wants (l : OutLink) (chunkId : UInt32) : Prop :=
  l.nextWriteChunkId ≤ chunkId ∧
    (l.stopWriteChunkId = kUndefinedChunkID ∨ chunkId < l.stopWriteChunkId)

instance (l : OutLink) (chunkId : UInt32) : Decidable (l.Wants chunkId) :=
  inferInstanceAs (Decidable (_ ∧ _))

variable {l : OutLink}

/-! ## What the calls do to the state -/

/-- A wanted chunk is put into the map, and the awaited one cancels the wait when it is new. -/
theorem sendData_wanted {chunkId : UInt32} (data : Bytes) (h : l.Wants chunkId) :
    (l.sendData chunkId data).silent = l.filed l.stopWriteChunkId l.stopAfterAllWrite
      (l.writeChunks.insert chunkId data)
      (if l.writeChunks.contains chunkId = false ∧ chunkId = l.nextWriteChunkId
        then l.timers.map abortWait else l.timers) := by
  have hout := l.sendData_outcome chunkId data
  generalize l.sendData chunkId data = after at hout ⊢
  cases hout with
  | stale hlt => exact absurd hlt (UInt32.not_lt.mpr h.1)
  | afterStop hge hdef hstop => exact absurd (h.2.resolve_left hdef) (UInt32.not_lt.mpr hstop)
  | duplicate hge hopen hdup => simp [silent, filed, hdup, SortedMap.insert_of_contains]
  | stored hge hopen hnew timers htimers => simp [silent, filed, hnew, htimers]

/-- A chunk that is not wanted changes nothing but the record of assertions. -/
theorem sendData_unwanted {chunkId : UInt32} (data : Bytes) (h : ¬ l.Wants chunkId) :
    (l.sendData chunkId data).silent = l.silent := by
  have hout := l.sendData_outcome chunkId data
  generalize l.sendData chunkId data = after at hout ⊢
  cases hout with
  | stale hlt => rfl
  | afterStop hge hdef hstop => rfl
  | duplicate hge hopen hdup => rfl
  | stored hge hopen hnew timers htimers => exact absurd ⟨UInt32.not_lt.mp hge, hopen⟩ h

/-- A stop at or below the awaited index ends the stream there and clears the map. -/
theorem silent_stop_atOnce {n : UInt32} (h : n ≤ l.nextWriteChunkId) :
    (l.stop n).silent =
      l.filed l.nextWriteChunkId true .empty (l.timers.map abortWait) := by
  rw [stop_atOnce h]
  rfl

/-- A later stop keeps the chunks below it. -/
theorem silent_stop_later {n : UInt32} (h : l.nextWriteChunkId < n) :
    (l.stop n).silent = l.filed n l.stopAfterAllWrite
      (l.writeChunks.filterKeys fun id => ¬ n ≤ id) l.timers := by
  rw [stop_later h]
  rfl

/-- The record of failed assertions has no influence on a call. -/
theorem silent_arrive (l : OutLink) (x : Arrival) :
    (l.silent.arrive x).silent = (l.arrive x).silent := by
  cases x with
  | chunk chunkId data =>
      by_cases h : l.Wants chunkId
      · exact (sendData_wanted (l := l.silent) data h).trans (sendData_wanted data h).symm
      · exact (sendData_unwanted (l := l.silent) data h).trans (sendData_unwanted data h).symm
  | stop n =>
      by_cases hn : n ≤ l.nextWriteChunkId
      · exact (silent_stop_atOnce (l := l.silent) hn).trans (silent_stop_atOnce hn).symm
      · have hlt := UInt32.not_le.mp hn
        exact (silent_stop_later (l := l.silent) hlt).trans (silent_stop_later hlt).symm

/-- The record of assertions may be left out at each call or at the end. -/
theorem silent_foldl (l : OutLink) (xs : List Arrival) :
    (xs.foldl arrive l).silent = xs.foldl (fun l x => (l.arrive x).silent) l.silent := by
  induction xs generalizing l with
  | nil => rfl
  | cons x rest ih => rw [List.foldl_cons, ih, List.foldl_cons, silent_arrive]

/-! ## Swapping calls -/

/-- A wait is cancelled once. -/
theorem map_abortWait_twice (ts : List WaitStatus) :
    (ts.map abortWait).map abortWait = ts.map abortWait := by
  rw [List.map_map]
  refine List.map_congr_left fun t _ => ?_
  cases t <;> rfl

/-- A chunk changes neither the awaited index nor the stop point. -/
theorem sendData_indices (l : OutLink) (chunkId : UInt32) (data : Bytes) :
    (l.sendData chunkId data).nextWriteChunkId = l.nextWriteChunkId ∧
      (l.sendData chunkId data).stopWriteChunkId = l.stopWriteChunkId := by
  have hout := l.sendData_outcome chunkId data
  generalize l.sendData chunkId data = after at hout ⊢
  cases hout <;> exact ⟨rfl, rfl⟩

/-- A chunk handed over does not change which chunks are wanted. -/
theorem wants_sendData {i j : UInt32} (a : Bytes) : (l.sendData i a).Wants j ↔ l.Wants j := by
  obtain ⟨hnext, hstop⟩ := l.sendData_indices i a
  rw [Wants, hnext, hstop, Wants]

/-- A call after a call whose result is known. -/
theorem silent_arrive_next {m : OutLink} {x : Arrival} (y : Arrival)
    (h : (l.arrive x).silent = m) : ((l.arrive x).arrive y).silent = (m.arrive y).silent := by
  rw [← silent_arrive (l.arrive x), h]

/-- A call after a chunk that is not wanted. -/
theorem silent_arrive_unwanted {i : UInt32} (a : Bytes) (y : Arrival) (h : ¬ l.Wants i) :
    ((l.sendData i a).arrive y).silent = (l.arrive y).silent :=
  (silent_arrive_next (x := .chunk i a) y (sendData_unwanted a h)).trans (silent_arrive l y)

/-- Two different chunks, both wanted. -/
theorem sendData_sendData {i j : UInt32} (a b : Bytes) (hi : l.Wants i) (hj : l.Wants j)
    (hne : i ≠ j) : ((l.sendData i a).sendData j b).silent =
      l.filed l.stopWriteChunkId l.stopAfterAllWrite ((l.writeChunks.insert i a).insert j b)
        (if (l.writeChunks.contains i = false ∧ i = l.nextWriteChunkId) ∨
            (l.writeChunks.contains j = false ∧ j = l.nextWriteChunkId)
          then l.timers.map abortWait else l.timers) := by
  have hfirst := sendData_wanted a hi
  generalize hts : (if l.writeChunks.contains i = false ∧ i = l.nextWriteChunkId
    then l.timers.map abortWait else l.timers) = ts at hfirst
  refine (silent_arrive_next (x := .chunk i a) (.chunk j b) hfirst).trans ?_
  refine (sendData_wanted (l := l.filed _ _ _ ts) b hj).trans ?_
  have htimers : (if (l.writeChunks.insert i a).contains j = false ∧ j = l.nextWriteChunkId
      then ts.map abortWait else ts) =
      if (l.writeChunks.contains i = false ∧ i = l.nextWriteChunkId) ∨
        (l.writeChunks.contains j = false ∧ j = l.nextWriteChunkId)
      then l.timers.map abortWait else l.timers := by
    rw [SortedMap.contains_insert_ne a hne, ← hts]
    by_cases hj' : l.writeChunks.contains j = false ∧ j = l.nextWriteChunkId
    · have hi' : ¬ (l.writeChunks.contains i = false ∧ i = l.nextWriteChunkId) :=
        fun h => hne (h.2.trans hj'.2.symm)
      simp only [if_pos hj', if_neg hi', if_pos (Or.inr hj' : _ ∨ _)]
    · simp only [hj', or_false, if_false]
  exact congrArg (l.filed l.stopWriteChunkId l.stopAfterAllWrite
    ((l.writeChunks.insert i a).insert j b)) htimers

/-- **Two chunks** of different indices may come in either order. -/
theorem sendData_swap {i j : UInt32} (a b : Bytes) (hne : i ≠ j) :
    ((l.sendData i a).sendData j b).silent = ((l.sendData j b).sendData i a).silent := by
  by_cases hi : l.Wants i
  · by_cases hj : l.Wants j
    · rw [sendData_sendData a b hi hj hne, sendData_sendData b a hj hi hne.symm,
        SortedMap.insert_comm a b hne]
      simp only [or_comm]
    · have hj' : ¬ (l.sendData i a).Wants j := fun h => hj ((wants_sendData a).mp h)
      rw [sendData_unwanted b hj']
      exact (silent_arrive_unwanted b (.chunk i a) hj).symm
  · have hi' : ¬ (l.sendData j b).Wants i := fun h => hi ((wants_sendData b).mp h)
    rw [sendData_unwanted a hi']
    exact silent_arrive_unwanted a (.chunk j b) hi

/-- **A chunk twice** is the chunk once. -/
theorem sendData_again (l : OutLink) (i : UInt32) (a : Bytes) :
    ((l.sendData i a).sendData i a).silent = (l.sendData i a).silent := by
  by_cases hi : l.Wants i
  · have hfirst := sendData_wanted a hi
    refine (silent_arrive_next (x := .chunk i a) (.chunk i a) hfirst).trans ?_
    refine (sendData_wanted (l := l.filed _ _ _ _) a hi).trans ?_
    have hheld := l.writeChunks.contains_insert_self i a
    rw [hfirst]
    simp [filed, hheld, SortedMap.insert_of_contains]
  · exact sendData_unwanted a fun h => hi ((wants_sendData a).mp h)

/-- The stop point a call of `Stop` leaves behind. -/
def stopPoint (l : OutLink) (stopChunk : UInt32) : UInt32 :=
  if stopChunk ≤ l.nextWriteChunkId then l.nextWriteChunkId else stopChunk

/-- No stop was told yet, or this one was. -/
def MayStop (l : OutLink) (stopChunk : UInt32) : Prop :=
  l.stopWriteChunkId = kUndefinedChunkID ∨ l.stopWriteChunkId = l.stopPoint stopChunk

/-- Behind the end of the stream nothing is wanted any more. -/
theorem not_wants_filed (i : UInt32) (chunks : SortedMap UInt32 Bytes) (stopping : Bool)
    (timers : List WaitStatus) (hroom : l.nextWriteChunkId ≠ kUndefinedChunkID) :
    ¬ (l.filed l.nextWriteChunkId stopping chunks timers).Wants i :=
  fun h => UInt32.not_lt.mpr h.1 (h.2.resolve_left hroom)

/-- A wanted chunk comes before the stop point, whatever that is. -/
theorem before_of_wants {i : UInt32} (hi : i < kUndefinedChunkID) (h : l.Wants i) :
    i < l.stopWriteChunkId := by
  rcases h.2 with hundef | hbefore
  · rw [hundef]
    exact hi
  · exact hbefore

/-- **A chunk and a stop** may come in either order: a chunk before the stop point is
kept by both, a chunk from it on by neither. -/
theorem sendData_stop_swap {i n : UInt32} (a : Bytes) (hi : i < kUndefinedChunkID)
    (hroom : l.nextWriteChunkId ≠ kUndefinedChunkID) (hstop : l.MayStop n) :
    ((l.sendData i a).stop n).silent = ((l.stop n).sendData i a).silent := by
  by_cases hn : n ≤ l.nextWriteChunkId
  · -- nothing is wanted any more, and what was in the map is dropped
    have hright := silent_arrive_next (x := .stop n) (.chunk i a) (silent_stop_atOnce hn)
    refine Eq.trans ?_ (hright.trans (sendData_unwanted a (not_wants_filed i _ _ _ hroom))).symm
    by_cases hw : l.Wants i
    · refine (silent_arrive_next (x := .chunk i a) (.stop n) (sendData_wanted a hw)).trans ?_
      refine (silent_stop_atOnce (l := l.filed _ _ _ _) hn).trans ?_
      refine congrArg (l.filed l.nextWriteChunkId true .empty) ?_
      simp only [filed]
      split
      · exact map_abortWait_twice l.timers
      · rfl
    · exact (silent_arrive_unwanted a (.stop n) hw).trans (silent_stop_atOnce hn)
  · have hlt := UInt32.not_le.mp hn
    have hright := silent_arrive_next (x := .stop n) (.chunk i a) (silent_stop_later hlt)
    refine Eq.trans ?_ hright.symm
    have hpoint : l.stopPoint n = n := if_neg hn
    rw [MayStop, hpoint] at hstop
    by_cases hw : l.Wants i
    · refine (silent_arrive_next (x := .chunk i a) (.stop n) (sendData_wanted a hw)).trans ?_
      refine (silent_stop_later (l := l.filed _ _ _ _) hlt).trans ?_
      by_cases hin : i < n
      · have hkeep : decide (¬ n ≤ i) = true := decide_eq_true (UInt32.not_le.mpr hin)
        have hwanted : (l.filed n l.stopAfterAllWrite
            (l.writeChunks.filterKeys fun id => ¬ n ≤ id) l.timers).Wants i := ⟨hw.1, Or.inr hin⟩
        have hmap := SortedMap.filterKeys_insert (m := l.writeChunks)
          (p := fun id => ¬ n ≤ id) a hkeep
        have hheld := SortedMap.contains_filterKeys l.writeChunks (fun id => ¬ n ≤ id) i
        rw [hkeep, Bool.true_and] at hheld
        refine Eq.trans ?_ (sendData_wanted a hwanted).symm
        simp only [filed, hmap, hheld]
      · have hdrop : decide (¬ n ≤ i) = false :=
          decide_eq_false (not_not.mpr (UInt32.not_lt.mp hin))
        have hne : i ≠ l.nextWriteChunkId := fun h => hin (h ▸ hlt)
        have hunwanted : ¬ (l.filed n l.stopAfterAllWrite
            (l.writeChunks.filterKeys fun id => ¬ n ≤ id) l.timers).Wants i :=
          fun h => hin (before_of_wants hi h)
        have hmap := SortedMap.filterKeys_insert_out (m := l.writeChunks)
          (p := fun id => ¬ n ≤ id) a hdrop
        refine Eq.trans ?_ (sendData_unwanted a hunwanted).symm
        simp only [filed, hmap, hne, and_false, if_false, silent]
    · refine (silent_arrive_unwanted a (.stop n) hw).trans ?_
      refine (silent_stop_later hlt).trans ?_
      refine Eq.symm (sendData_unwanted (l := l.filed _ _ _ _) a fun h => hw ⟨h.1, ?_⟩)
      have hin : i < n := before_of_wants hi h
      rcases hstop with hundef | hpoint
      · exact Or.inl hundef
      · exact Or.inr (hpoint.symm ▸ hin)

/-- **A stop twice** is the stop once. -/
theorem stop_again (l : OutLink) (n : UInt32) : ((l.stop n).stop n).silent = (l.stop n).silent := by
  by_cases hn : n ≤ l.nextWriteChunkId
  · refine (silent_arrive_next (x := .stop n) (.stop n) (silent_stop_atOnce hn)).trans ?_
    refine (silent_stop_atOnce (l := l.filed _ _ _ _) hn).trans ?_
    rw [silent_stop_atOnce hn]
    exact congrArg (l.filed l.nextWriteChunkId true .empty) (map_abortWait_twice l.timers)
  · have hlt := UInt32.not_le.mp hn
    refine (silent_arrive_next (x := .stop n) (.stop n) (silent_stop_later hlt)).trans ?_
    refine (silent_stop_later (l := l.filed _ _ _ _) hlt).trans ?_
    rw [silent_stop_later hlt]
    refine congrArg (fun chunks => l.filed n l.stopAfterAllWrite chunks l.timers) ?_
    refine SortedMap.ext_mem fun e => ?_
    simp only [filed, SortedMap.entries_filterKeys, List.filter_filter, Bool.and_self]

/-- A stop leaves the awaited index and sets the stop point. -/
theorem stop_indices (l : OutLink) (n : UInt32) :
    (l.stop n).nextWriteChunkId = l.nextWriteChunkId ∧
      (l.stop n).stopWriteChunkId = l.stopPoint n := by
  rw [stopPoint]
  split
  · next hn =>
      rw [stop_atOnce hn]
      exact ⟨rfl, rfl⟩
  · next hn =>
      rw [stop_later (UInt32.not_le.mp hn)]
      exact ⟨rfl, rfl⟩

/-! ## Whole streams -/

/-- The call carries the stream: `content` gives the data of each chunk, `told` the
chunk to stop at. -/
def Carries (content : UInt32 → Bytes) (told : Option UInt32) : Arrival → Prop
  | .chunk chunkId data => chunkId < kUndefinedChunkID ∧ data = content chunkId
  | .stop stopChunk => told = some stopChunk

/-- The link has room for a further chunk and was told no other stop point. -/
structure Undecided (told : Option UInt32) (l : OutLink) : Prop where
  room : l.nextWriteChunkId ≠ kUndefinedChunkID
  mayStop : ∀ n, told = some n → l.MayStop n

/-- Every call of the stream leaves the link ready for the others. -/
theorem Undecided.arrive {content : UInt32 → Bytes} {told : Option UInt32} {x : Arrival}
    (h : l.Undecided told) (hx : Carries content told x) : (l.arrive x).Undecided told := by
  cases x with
  | chunk i a =>
      obtain ⟨hnext, hstop⟩ := l.sendData_indices i a
      refine ⟨fun heq => h.room (hnext.symm.trans heq), fun n hn => ?_⟩
      have hmay := h.mayStop n hn
      rw [MayStop, stopPoint] at hmay ⊢
      exact hnext.symm ▸ hstop.symm ▸ hmay
  | stop k =>
      obtain ⟨hnext, hstop⟩ := l.stop_indices k
      refine ⟨fun heq => h.room (hnext.symm.trans heq), fun n hn => Or.inr ?_⟩
      have hsame : k = n := Option.some.inj (hx.symm.trans hn)
      rw [← hsame]
      refine hstop.trans ?_
      rw [stopPoint, stopPoint, OutLink.arrive, hnext]

/-- **The order of the calls does not matter**, and neither does a repetition. -/
theorem arrive_orderFree (content : UInt32 → Bytes) (told : Option UInt32) :
    OrderFree (fun (l : OutLink) x => (l.arrive x).silent) (Undecided told)
      (Carries content told) where
  keeps := by
    intro l x hl hx
    have hnext := hl.arrive hx
    exact ⟨hnext.room, hnext.mayStop⟩
  swap := by
    intro l x y hl hx hy
    rw [silent_arrive, silent_arrive]
    cases x with
    | chunk i a =>
        cases y with
        | chunk j b =>
            by_cases hij : i = j
            · have hsame : a = b := by rw [hx.2, hy.2, hij]
              rw [hij, hsame]
            · exact sendData_swap a b hij
        | stop n => exact sendData_stop_swap a hx.1 hl.room (hl.mayStop n hy)
    | stop n =>
        cases y with
        | chunk j b => exact (sendData_stop_swap b hy.1 hl.room (hl.mayStop n hx)).symm
        | stop k =>
            have hsame : n = k := Option.some.inj (hx.symm.trans hy)
            rw [hsame]
  again := by
    intro l x _ _
    rw [silent_arrive]
    cases x with
    | chunk i a => exact l.sendData_again i a
    | stop n => exact l.stop_again n

/-- **Late, out of order, repeated.**  Two series of calls that carry the same stream and
consist of the same calls leave the link in the same state, failed assertions apart. -/
theorem arrivals_same {content : UInt32 → Bytes} {told : Option UInt32} {xs ys : List Arrival}
    (hl : l.Undecided told) (hxs : ∀ x ∈ xs, Carries content told x)
    (hsame : ∀ x, x ∈ xs ↔ x ∈ ys) :
    (xs.foldl arrive l).silent = (ys.foldl arrive l).silent := by
  rw [silent_foldl, silent_foldl]
  exact (arrive_orderFree content told).foldl_eq ⟨hl.room, hl.mayStop⟩ hsame hxs

/-- Two chunks and a stop in two orders, the second one with a repetition. -/
theorem arrivals_same_three :
    ([.chunk 0 [7], .chunk 1 [8, 9], .stop 2].foldl arrive
        (createAccepted.run (.ofByte 5))).silent =
      ([.stop 2, .chunk 1 [8, 9], .chunk 0 [7], .stop 2].foldl arrive
        (createAccepted.run (.ofByte 5))).silent := by
  have hstart : (createAccepted.run (.ofByte 5)).Undecided (some 2) :=
    ⟨by decide, fun n _ => Or.inl (by decide)⟩
  have hcarries : ∀ x ∈ [Arrival.chunk 0 [7], .chunk 1 [8, 9], .stop 2],
      Carries (fun i => if i = 0 then [7] else [8, 9]) (some 2) x := by
    intro x hx
    simp only [List.mem_cons, List.not_mem_nil, or_false] at hx
    rcases hx with rfl | rfl | rfl
    · exact ⟨by decide, by decide⟩
    · exact ⟨by decide, by decide⟩
    · rfl
  refine arrivals_same hstart hcarries fun x => ?_
  simp only [List.mem_cons, List.not_mem_nil, or_false]
  tauto

end OutLink
