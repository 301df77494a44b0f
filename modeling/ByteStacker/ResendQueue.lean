import Mathlib.Data.List.Basic

/-!
# Queues that repeat a packet until its deadline

A packet is put into the queue when it is sent for the first time.  A tick first
drops what is past its deadline and then sends again, in the order of the queue,
what has waited long enough since its last transmission; an answer takes packets
out early.  `ResendRule.pass` is one tick of such a queue, on entries that hold
nothing but the packet and two times.

Next to it stands the history of a packet, a `Job`: when it was put in, which
ticks it has seen and at which of them it was sent.  `Job.Due` reads the schedule
off the history alone.

* `OnSchedule`: the queue consists of the jobs that are still cached, in the order
  they were put in; a tick keeps this and sends exactly the jobs that are due;
* `Paced.bound`: as every transmission is a period after the one before it, there
  are at most `lifetime / period` repetitions, however the ticks fall.
-/

/-- How often and how long a packet is repeated.  `late next now` says that at
`now` the transmission planned for `next` is made. -/
structure ResendRule where
  period : Nat
  lifetime : Nat
  late : Nat → Nat → Bool
  not_early : ∀ next now, late next now = true → next ≤ now

/-- A packet in the queue. -/
structure ResendEntry (α : Type*) where
  info : α
  deadline : Nat
  nextSend : Nat

/-- A packet with the history of its transmissions: the times of the repetitions
and of all ticks since it was put in. -/
structure Job (α : Type*) where
  info : α
  cachedAt : Nat
  ticks : List Nat := []
  resends : List Nat := []
  answered : Bool := false

variable {α : Type*}

namespace Job

variable {rule : ResendRule} {j : Job α} {now : Nat}

/-- The times at which the packet was sent. -/
def transmissions (j : Job α) : List Nat := j.cachedAt :: j.resends

def lastSent (j : Job α) : Nat := j.resends.getLastD j.cachedAt

/-- The packet is still in the queue: no answer has come and no tick was past its
deadline. -/
def Cached (rule : ResendRule) (j : Job α) : Prop :=
  j.answered = false ∧ ∀ tick ∈ j.ticks, tick ≤ j.cachedAt + rule.lifetime

/-- **The schedule**: a tick at `now` repeats the packet. -/
def Due (rule : ResendRule) (now : Nat) (j : Job α) : Prop :=
  j.Cached rule ∧ now ≤ j.cachedAt + rule.lifetime ∧
    rule.late (j.lastSent + rule.period) now = true

instance (rule : ResendRule) (j : Job α) : Decidable (j.Cached rule) :=
  inferInstanceAs (Decidable (_ ∧ _))

instance (rule : ResendRule) (now : Nat) (j : Job α) : Decidable (j.Due rule now) :=
  inferInstanceAs (Decidable (_ ∧ _ ∧ _))

/-- The packet sees a tick. -/
def tick (rule : ResendRule) (now : Nat) (j : Job α) : Job α :=
  { j with
    ticks := j.ticks ++ [now]
    resends := if j.Due rule now then j.resends ++ [now] else j.resends }

/-- An answer for the packets with `p` has come. -/
def answer (p : α → Bool) (j : Job α) : Job α :=
  { j with answered := j.answered || p j.info }

/-- The entry of the packet. -/
def entry (rule : ResendRule) (j : Job α) : ResendEntry α where
  info := j.info
  deadline := j.cachedAt + rule.lifetime
  nextSend := j.lastSent + rule.period

/-- A packet is still cached after a tick that is not past its deadline. -/
theorem cached_tick :
    (j.tick rule now).Cached rule ↔ j.Cached rule ∧ now ≤ j.cachedAt + rule.lifetime := by
  simp only [Cached, tick, List.forall_mem_append, List.forall_mem_singleton, and_assoc]

/-- It is still cached after an answer that is not for it. -/
theorem cached_answer (p : α → Bool) :
    (j.answer p).Cached rule ↔ j.Cached rule ∧ p j.info = false := by
  simp only [Cached, answer, Bool.or_eq_false_iff]
  exact and_right_comm

/-- A tick sends what is due. -/
theorem lastSent_tick :
    (j.tick rule now).lastSent = if j.Due rule now then now else j.lastSent := by
  unfold tick lastSent
  split <;> simp

/-- The entry after a tick puts off the next transmission if there was one. -/
theorem entry_tick :
    (j.tick rule now).entry rule = if j.Due rule now then
      { j.entry rule with nextSend := now + rule.period } else j.entry rule := by
  unfold entry
  rw [lastSent_tick]
  split <;> rfl

/-- The packet is repeated at ticks only, and the transmissions keep their distance
and the deadline. -/
structure Paced (rule : ResendRule) (j : Job α) : Prop where
  atTicks : ∀ t ∈ j.resends, t ∈ j.ticks
  distance : j.cachedAt + j.resends.length * rule.period ≤ j.lastSent
  inTime : ∀ t ∈ j.transmissions, t ≤ j.cachedAt + rule.lifetime

/-- A packet just put in has not been repeated. -/
theorem paced_start (info : α) (now : Nat) : Paced rule { info := info, cachedAt := now } where
  atTicks := by simp
  distance := by simp [lastSent]
  inTime := by simp [transmissions]

/-- The last transmission is one of the transmissions. -/
theorem lastSent_mem (j : Job α) : j.lastSent ∈ j.transmissions := by
  unfold lastSent transmissions
  rcases List.eq_nil_or_concat j.resends with hnil | ⟨front, last, hconcat⟩
  · simp [hnil]
  · simp [hconcat]

/-- **A tick keeps distance and deadline.** -/
theorem Paced.tick (h : Paced rule j) (now : Nat) : Paced rule (j.tick rule now) := by
  have hlast : (j.tick rule now).lastSent = if j.Due rule now then now else j.lastSent :=
    lastSent_tick
  have hticks : (j.tick rule now).ticks = j.ticks ++ [now] := rfl
  by_cases hdue : j.Due rule now
  · have hresends : (j.tick rule now).resends = j.resends ++ [now] := if_pos hdue
    rw [if_pos hdue] at hlast
    obtain ⟨_, hnow, hlate⟩ := hdue
    have hwait := rule.not_early _ _ hlate
    have hdistance := h.distance
    refine ⟨?_, ?_, ?_⟩
    · intro t ht
      rw [hresends] at ht
      rw [hticks]
      exact List.mem_append.mpr ((List.mem_append.mp ht).imp (h.atTicks t) id)
    · rw [hlast, hresends, List.length_append, List.length_singleton, Nat.succ_mul]
      change j.cachedAt + _ ≤ now
      omega
    · intro t ht
      rw [transmissions, hresends, ← List.cons_append, List.mem_append, List.mem_singleton] at ht
      rcases ht with ht | rfl
      · exact h.inTime t ht
      · exact hnow
  · have hresends : (j.tick rule now).resends = j.resends := if_neg hdue
    rw [if_neg hdue] at hlast
    refine ⟨?_, ?_, ?_⟩
    · intro t ht
      rw [hresends] at ht
      exact List.mem_append_left _ (h.atTicks t ht)
    · rw [hlast, hresends]
      exact h.distance
    · unfold transmissions
      rw [hresends]
      exact h.inTime

/-- An answer is no transmission. -/
theorem Paced.answer (h : Paced rule j) (p : α → Bool) : Paced rule (j.answer p) :=
  ⟨h.atTicks, h.distance, h.inTime⟩

/-- **How often**: the repetitions fit into the lifetime, a period each. -/
theorem Paced.bound (h : Paced rule j) : j.resends.length * rule.period ≤ rule.lifetime := by
  have hdistance := h.distance
  have htime := h.inTime j.lastSent j.lastSent_mem
  omega

end Job

namespace ResendRule

variable (rule : ResendRule) {js : List (Job α)}

/-- One tick of the queue, with the packets it sends. -/
def pass (now : Nat) (queue : List (ResendEntry α)) : List (ResendEntry α) × List α :=
  let kept := queue.filter fun item => ¬ now > item.deadline
  (kept.map fun item =>
      if rule.late item.nextSend now then { item with nextSend := now + rule.period } else item,
    (kept.filter fun item => rule.late item.nextSend now).map ResendEntry.info)

/-- The queue the jobs amount to. -/
def live (js : List (Job α)) : List (ResendEntry α) :=
  (js.filter fun j => j.Cached rule).map (Job.entry rule)

/-- The packets a tick sends. -/
def due (now : Nat) (js : List (Job α)) : List α :=
  (js.filter fun j => j.Due rule now).map Job.info

/-- The queue of the jobs, one job at a time. -/
theorem live_cons (j : Job α) (js : List (Job α)) :
    rule.live (j :: js) = if j.Cached rule then j.entry rule :: rule.live js else rule.live js := by
  unfold live
  by_cases h : j.Cached rule <;> simp [h]

/-- The packets that are due, one job at a time. -/
theorem due_cons (now : Nat) (j : Job α) (js : List (Job α)) :
    rule.due now (j :: js) = if j.Due rule now then j.info :: rule.due now js
      else rule.due now js := by
  unfold due
  by_cases h : j.Due rule now <;> simp [h]

/-- A pass over the queue, one entry at a time. -/
theorem pass_cons (now : Nat) (item : ResendEntry α) (queue : List (ResendEntry α)) :
    rule.pass now (item :: queue) =
      if now > item.deadline then rule.pass now queue
      else if rule.late item.nextSend now then
        ({ item with nextSend := now + rule.period } :: (rule.pass now queue).1,
          item.info :: (rule.pass now queue).2)
      else (item :: (rule.pass now queue).1, (rule.pass now queue).2) := by
  unfold pass
  by_cases hover : now > item.deadline
  · simp [hover]
  · by_cases hlate : rule.late item.nextSend now = true <;>
      simp [Nat.not_lt.mp hover, hover, hlate]

/-- A pass over a queue that keeps its entries in another form. -/
theorem pass_map {β : Type*} (f : β → ResendEntry α) {g : β → β} {now : Nat}
    (hg : ∀ item, f (g item) = if rule.late (f item).nextSend now then
      { f item with nextSend := now + rule.period } else f item) (queue : List β) :
    rule.pass now (queue.map f) =
      (((queue.filter fun item => ¬ now > (f item).deadline).map g).map f,
        ((queue.filter fun item => ¬ now > (f item).deadline).filter fun item =>
          rule.late (f item).nextSend now).map fun item => (f item).info) := by
  simp only [pass, List.filter_map, List.map_map, Function.comp_def, hg]

/-- **A tick of the queue is a tick of its jobs**: the queue sends what is due and
keeps, in its order, what is still cached. -/
theorem pass_live (now : Nat) (js : List (Job α)) :
    rule.pass now (rule.live js) = (rule.live (js.map (Job.tick rule now)), rule.due now js) := by
  induction js with
  | nil => rfl
  | cons j rest ih =>
      rw [List.map_cons, live_cons, live_cons, due_cons]
      by_cases hcached : j.Cached rule
      · rw [if_pos hcached, pass_cons, ih]
        by_cases hover : now > j.cachedAt + rule.lifetime
        · have hgone : ¬ (j.tick rule now).Cached rule := fun h =>
            Nat.not_lt.mpr (Job.cached_tick.mp h).2 hover
          have hnot : ¬ j.Due rule now := fun h => Nat.not_lt.mpr h.2.1 hover
          rw [if_neg hgone, if_neg hnot]
          exact if_pos hover
        · have hstays : (j.tick rule now).Cached rule :=
            Job.cached_tick.mpr ⟨hcached, Nat.not_lt.mp hover⟩
          rw [if_pos hstays, if_neg (show ¬ now > (j.entry rule).deadline from hover)]
          by_cases hlate : rule.late (j.lastSent + rule.period) now = true
          · have hdue : j.Due rule now := ⟨hcached, Nat.not_lt.mp hover, hlate⟩
            rw [if_pos hdue, if_pos (show rule.late (j.entry rule).nextSend now = true from hlate),
              Job.entry_tick, if_pos hdue]
            rfl
          · have hnot : ¬ j.Due rule now := fun h => hlate h.2.2
            rw [if_neg hnot,
              if_neg (show ¬ rule.late (j.entry rule).nextSend now = true from hlate),
              Job.entry_tick, if_neg hnot]
      · have hgone : ¬ (j.tick rule now).Cached rule := fun h => hcached (Job.cached_tick.mp h).1
        have hnot : ¬ j.Due rule now := fun h => hcached h.1
        rw [if_neg hcached, if_neg hgone, if_neg hnot, ih]

/-- **An answer takes out what it is for**, and nothing else. -/
theorem filter_live (p : α → Bool) (js : List (Job α)) :
    (rule.live js).filter (fun item => ! p item.info) = rule.live (js.map (Job.answer p)) := by
  induction js with
  | nil => rfl
  | cons j rest ih =>
      rw [List.map_cons, live_cons, live_cons]
      by_cases hcached : j.Cached rule
      · rw [if_pos hcached, List.filter_cons]
        cases hp : p j.info with
        | true =>
            have hgone : ¬ (j.answer p).Cached rule := fun h => by
              simpa [hp] using ((Job.cached_answer p).mp h).2
            rw [if_neg hgone, ih]
            simp [Job.entry, hp]
        | false =>
            rw [if_pos ((Job.cached_answer p).mpr ⟨hcached, hp⟩), ih]
            simp [Job.entry, hp, Job.answer, Job.lastSent]
      · have hgone : ¬ (j.answer p).Cached rule := fun h => hcached ((Job.cached_answer p).mp h).1
        rw [if_neg hcached, if_neg hgone, ih]

/-- New packets go to the end of the queue. -/
theorem live_start (js : List (Job α)) (infos : List α) (now : Nat) :
    rule.live (js ++ infos.map fun info => { info := info, cachedAt := now }) =
      rule.live js ++ infos.map fun info => ⟨info, now + rule.lifetime, now + rule.period⟩ := by
  have hcached : (infos.map fun info => ({ info := info, cachedAt := now } : Job α)).filter
      (fun j => j.Cached rule) = infos.map fun info => { info := info, cachedAt := now } := by
    rw [List.filter_eq_self]
    intro j hj
    obtain ⟨info, _, rfl⟩ := List.mem_map.mp hj
    simp [Job.Cached]
  simp only [live, List.filter_append, List.map_append, hcached, List.map_map]
  rfl

end ResendRule

/-- **A queue on schedule**: it consists of the jobs that are still cached, in their
order, and no job was sent too often or too late. -/
structure OnSchedule (rule : ResendRule) (queue : List (ResendEntry α)) (js : List (Job α)) :
    Prop where
  cached : queue = rule.live js
  paced : ∀ j ∈ js, j.Paced rule

namespace OnSchedule

variable {rule : ResendRule} {queue : List (ResendEntry α)} {js : List (Job α)}

/-- The empty queue is on schedule. -/
theorem nil : OnSchedule rule ([] : List (ResendEntry α)) [] := ⟨rfl, by simp⟩

/-- A tick sends what is due. -/
theorem tick (h : OnSchedule rule queue js) (now : Nat) :
    OnSchedule rule (rule.pass now queue).1 (js.map (Job.tick rule now)) ∧
      (rule.pass now queue).2 = rule.due now js := by
  rw [h.cached, rule.pass_live now js]
  refine ⟨⟨rfl, ?_⟩, rfl⟩
  intro j hj
  obtain ⟨own, hown, rfl⟩ := List.mem_map.mp hj
  exact (h.paced own hown).tick now

/-- **An answer** takes out the same packets of the queue and of the jobs. -/
theorem answer (h : OnSchedule rule queue js) (p : α → Bool) :
    OnSchedule rule (queue.filter fun item => ! p item.info) (js.map (Job.answer p)) := by
  rw [h.cached, rule.filter_live p js]
  refine ⟨rfl, ?_⟩
  intro j hj
  obtain ⟨own, hown, rfl⟩ := List.mem_map.mp hj
  exact (h.paced own hown).answer p

/-- **New packets** come last in the queue and among the jobs. -/
theorem start (h : OnSchedule rule queue js) (infos : List α) (now : Nat) :
    OnSchedule rule (queue ++ infos.map fun info => ⟨info, now + rule.lifetime, now + rule.period⟩)
      (js ++ infos.map fun info => { info := info, cachedAt := now }) := by
  rw [h.cached]
  refine ⟨(rule.live_start js infos now).symm, ?_⟩
  intro j hj
  rcases List.mem_append.mp hj with hj | hj
  · exact h.paced j hj
  · obtain ⟨info, _, rfl⟩ := List.mem_map.mp hj
    exact Job.paced_start info now

end OnSchedule
