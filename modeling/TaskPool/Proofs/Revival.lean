import TaskPool.Proofs.Diligence
import TaskPool.Proofs.Tick

/-!
# Whether an empty pool is revived

A pool whose minimum is zero may come to have no worker, while tasks wait.  Only a tick of the
autoscaler starts one then, and it goes by the fill of the queue.

* `Attended`                a worker is live, or one is to take the place of a worker that leaves
* `Gauge.added_of_nobody`   what a plan adds where there is nobody
* `autoscale_strength`      while tasks wait, a tick lets nobody go
* `Reachable.attended_iff`  when the tasks that wait are attended to after a tick
* `unattended_neglected`    they are not always

Why the threshold of the busy share hardly matters: nobody reports, so the average is zero, and only
a threshold below zero is exceeded.
-/

namespace TaskPool

namespace Config

theorem max_pos (c : Config) (hc : c.validate = none) : 0 < c.maxWorkers := by
  unfold validate at hc
  split at hc
  · cases hc
  · omega

end Config

/-- what makes a plan start a worker where there is nobody -/
def Pressing (c : Config) (queued : Nat) : Prop :=
  c.scaleUpCpu < 0.0 ∨ growPressure < ratio queued c.maxQueueSize

namespace Gauge

theorem wantsUp_of_nobody {g : Gauge} (hg : g.loads = []) (c : Config) :
    wantsUp c (g.signals c.maxQueueSize) = true ↔ Pressing c g.queued := by
  have hcpu : (g.signals c.maxQueueSize).averageCpu = 0.0 := by
    unfold signals
    rw [hg]
    rfl
  unfold wantsUp
  rw [hcpu, Bool.or_eq_true, decide_eq_true_iff, decide_eq_true_iff]
  rfl

/-- where there is nobody, a plan adds one worker or none -/
theorem added_of_nobody {g : Gauge} (hg : g.loads = []) {c : Config} (hmax : 0 < c.maxWorkers)
    (now : Timestamp) : (g.plan c now).decision.added ≠ 0 ↔ Pressing c g.queued := by
  have hsize : g.size = 0 := by
    rw [size, hg]
    rfl
  show (g.decision c (g.signals c.maxQueueSize)).added ≠ 0 ↔ _
  rw [← wantsUp_of_nobody hg]
  unfold decision
  rw [hsize]
  by_cases hup : wantsUp c (g.signals c.maxQueueSize) = true
  · rw [if_pos ⟨hup, hmax⟩]
    have hone : growth 0 = 1 := rfl
    simp only [Decision.added, hone, hup, iff_true]
    omega
  · rw [if_neg fun h => hup h.1, if_neg fun h => Nat.not_lt_zero _ h.2]
    simp [Decision.added, hup]

end Gauge

namespace Pool

variable {m : Moment}

/-- a worker is live, or one is to take the place of a worker that leaves -/
def Attended (p : Pool) : Prop := ∃ e ∈ p.roster.entries, e.isLive = true ∨ e.isPending = true

theorem attended_iff_strength {p : Pool} : p.Attended ↔ 0 < p.strength := by
  rw [strength_eq, List.countP_pos_iff]
  simp only [Attended, Entry.counts, Bool.or_eq_true]

/-- while tasks wait nobody is idle, so a tick lets nobody go -/
theorem autoscale_strength {p : Pool} (h : p.Mustered) (hd : p.Diligent) (hr : p.running = true)
    (hq : p.queue.waiting ≠ []) :
    (autoscale m p).strength = p.strength +
      if m.attached then (p.gauge.plan p.config m.now).decision.added else 0 := by
  have hnobody : p.leaving m.now = [] := by
    refine List.eq_nil_iff_forall_not_mem.mpr fun w hw => ?_
    exact hd hq w (idle_of_mem_leaving h.sound hw)
  obtain ⟨hstopped, hevict⟩ := List.append_eq_nil_iff.mp hnobody
  have hs := (autoscale_shifts (m := m) h hr).strength
  rw [hstopped, hevict] at hs
  by_cases ha : m.attached = true
  · rw [if_pos ha] at hs ⊢
    simp only [List.length_nil] at hs
    omega
  · rw [if_neg ha] at hs ⊢
    simp only [List.length_nil] at hs
    omega

end Pool

namespace Workshop

variable {c : Config} {W : Workshop} {m : Moment}

/-- **when the tasks that wait are attended to after a tick**: if they were before, which is so
where the minimum is not zero and somebody holds on to the pool, or if a worker can be started and
the queue is full enough -/
theorem Reachable.attended_iff (hc : c.validate = none) (h : Reachable c W)
    (hr : W.pool.running = true)
    (hq : (W.pool.handle m (.ring .autoscaleTick)).queue.waiting ≠ []) :
    ((W.pool.handle m (.ring .autoscaleTick)).Attended ↔
      W.pool.Attended ∨ (m.attached = true ∧ Pressing c W.pool.queue.size)) ∧
    (0 < c.minWorkers → W.held = true → W.pool.Attended) := by
  obtain ⟨ws, _, hparts⟩ := Pool.autoscale_parts (m := m) h.inStep.tuned.sound
  have hwaits : W.pool.queue.waiting ≠ [] := by
    rw [← hparts.aloof.2.1]
    exact hq
  have hstrength := Pool.autoscale_strength (m := m) h.mustered h.pool_diligent hr hwaits
  rw [h.manned.config] at hstrength
  refine ⟨?_, fun hmin hheld => ?_⟩
  · show (Pool.autoscale m W.pool).Attended ↔ _
    rw [Pool.attended_iff_strength, Pool.attended_iff_strength, hstrength]
    by_cases hsome : 0 < W.pool.strength
    · exact ⟨fun _ => .inl hsome, fun _ => Nat.lt_of_lt_of_le hsome (Nat.le_add_right ..)⟩
    · have hzero : W.pool.strength = 0 := Nat.eq_zero_of_not_pos hsome
      have hloads : W.pool.gauge.loads = [] := by
        have hstaff : W.pool.staff = 0 :=
          Nat.eq_zero_of_le_zero (hzero ▸ W.pool.staff_le_strength)
        exact List.length_eq_zero_iff.mp ((Pool.size_gauge W.pool).trans hstaff)
      have hadded : _ ↔ Pressing c W.pool.queue.size :=
        Gauge.added_of_nobody hloads (c.max_pos hc) m.now
      rw [hzero, Nat.zero_add, ← hadded]
      by_cases ha : m.attached = true
      · simp only [ha, if_true, true_and, Nat.lt_irrefl, false_or]
        exact Nat.pos_iff_ne_zero
      · simp [ha]
  · rw [Pool.attended_iff_strength]
    exact Nat.lt_of_lt_of_le hmin (h.enough hheld hr)

/-- the one place of the queue is taken, so a worker is started -/
theorem attended_pressed : onDemand.validate = none ∧ Reachable onDemand pressed ∧
    pressed.pool.running = true ∧
    (pressed.pool.handle calmMoment (.ring .autoscaleTick)).queue.waiting ≠ [] ∧
    (pressed.pool.handle calmMoment (.ring .autoscaleTick)).Attended := by
  have hq : (pressed.pool.handle calmMoment (.ring .autoscaleTick)).queue.waiting ≠ [] := by
    decide +kernel
  have hpressing : Pressing onDemand pressed.pool.queue.size := .inr (by decide +kernel)
  exact ⟨rfl, reachable_pressed, rfl, hq,
    (reachable_pressed.attended_iff rfl rfl hq).1.mpr (.inr ⟨rfl, hpressing⟩)⟩

/-- nobody but on demand, and as much room as there is by default -/
def upToOne : Config := { minWorkers := 0, maxWorkers := 1 }

/-- a task waits, and a tick is due -/
def neglected : Workshop :=
  let opened := (new upToOne).deliver calmMoment 0 (.call 0 .start)
  { opened.deliver calmMoment 0 (.call 1 (.submit ⟨7⟩ .cacheCleanup .null {})) with
    rung := [.autoscaleTick] }

theorem reachable_neglected : Reachable upToOne neglected := by
  have hopened := Reachable.new.step
    (.call calmMoment 0 0 .start (admits_calmMoment (new upToOne)) trivial)
  have hqueued := hopened.step (.call calmMoment 0 1 (.submit ⟨7⟩ .cacheCleanup .null {})
    (admits_calmMoment _) List.not_mem_nil)
  exact hqueued.step (.ring ⟨0, .autoscaleTick, true⟩ (List.mem_singleton_self _))

/-- **tasks may wait with nobody to attend to them**, tick after tick: one of a thousand places of
the queue is taken -/
theorem unattended_neglected : ¬ ∀ (c : Config) (W : Workshop) (m : Moment), c.validate = none →
    c.autoscaling = true → Reachable c W → W.pool.running = true → W.Admits m →
    .autoscaleTick ∈ W.rung →
    (W.pool.handle m (.ring .autoscaleTick)).queue.waiting ≠ [] →
    (W.pool.handle m (.ring .autoscaleTick)).Attended := by
  intro h
  have hq : (neglected.pool.handle calmMoment (.ring .autoscaleTick)).queue.waiting ≠ [] := by
    decide +kernel
  have hnobody : ¬ (neglected.pool.handle calmMoment (.ring .autoscaleTick)).Attended := by
    rintro ⟨e, he, _⟩
    have hempty : (neglected.pool.handle calmMoment
      (.ring .autoscaleTick)).roster.entries.isEmpty = true := by decide +kernel
    rw [List.isEmpty_iff.mp hempty] at he
    cases he
  exact hnobody (h upToOne neglected calmMoment rfl rfl reachable_neglected rfl
    (admits_calmMoment _) (List.mem_singleton_self _) hq)

end Workshop

end TaskPool
