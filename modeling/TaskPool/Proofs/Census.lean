import TaskPool.Proofs.Coherence
import TaskPool.Proofs.Custody
import TaskPool.Proofs.Diligence
import Mathlib.Algebra.GroupWithZero.Nat
import Mathlib.Data.List.Perm.Subperm

/-!
# The counters add up

The counters of the pool are read off the queue, the ledger and the roster, each on its own.  That
they fit together rests on what ties the three.

* `sum_counts`           counters that share out a list add up to its length
* `Ledger.total_byKind`, `total_byStatus`   both tables count every task in flight once
* `Pool.Census`          what the counters of a pool have to do with it and with each other
* `Reachable.counted`    so it is with every answer to a request for them

Why the queue is never longer than the ledger: tickets are distinct and of tasks in flight, so the
number of active tasks is a difference that is never cut off at zero.
-/

namespace TaskPool

/-! ## counting -/

section
variable {α κ : Type}

theorem sum_map_add (keys : List κ) (f g : κ → Nat) :
    (keys.map fun k => f k + g k).sum = (keys.map f).sum + (keys.map g).sum := by
  induction keys with
  | nil => rfl
  | cons k ks ih =>
    simp only [List.map_cons, List.sum_cons, ih]
    omega

/-- a table that leaves out what does not occur -/
theorem sum_counts (keys : List κ) (f : κ → Nat) :
    (((keys.map fun k => (k, f k)).filter fun c => c.2 != 0).map Prod.snd).sum
      = (keys.map f).sum := by
  induction keys with
  | nil => rfl
  | cons k ks ih =>
    by_cases hk : f k = 0
    · rw [List.map_cons, List.filter_cons_of_neg (by simp [hk]), ih, List.map_cons, List.sum_cons,
        hk, Nat.zero_add]
    · rw [List.map_cons, List.filter_cons_of_pos (by simp [hk]), List.map_cons, List.sum_cons, ih,
        List.map_cons, List.sum_cons]

theorem mem_counts {keys : List κ} {f : κ → Nat} {k : κ} {n : Nat}
    (h : (k, n) ∈ (keys.map fun k => (k, f k)).filter fun c => c.2 != 0) : n = f k ∧ n ≠ 0 := by
  obtain ⟨hm, hn⟩ := List.mem_filter.mp h
  obtain ⟨x, _, hx⟩ := List.mem_map.mp hm
  cases hx
  exact ⟨rfl, by simpa using hn⟩

theorem nodup_counts {keys : List κ} (hd : keys.Nodup) (f : κ → Nat) :
    (((keys.map fun k => (k, f k)).filter fun c => c.2 != 0).map Prod.fst).Nodup := by
  have hkeys : (keys.map fun k => (k, f k)).map Prod.fst = keys := by
    rw [List.map_map]
    exact List.map_id keys
  exact (hkeys.symm ▸ hd).sublist (List.filter_sublist.map Prod.fst)

variable [DecidableEq κ]

theorem sum_indicator {keys : List κ} (hd : keys.Nodup) {a : κ} (ha : a ∈ keys) :
    (keys.map fun k => if a == k then 1 else 0).sum = 1 := by
  have hcount : ∀ ks : List κ, (ks.map fun k => if a == k then 1 else 0).sum = ks.count a := by
    intro ks
    induction ks with
    | nil => rfl
    | cons k ks ih =>
      rw [List.map_cons, List.sum_cons, ih, List.count_cons, Nat.add_comm, BEq.comm]
  rw [hcount, List.count_eq_one_of_mem hd ha]

/-- every element is counted under one key -/
theorem sum_countP {keys : List κ} (hd : keys.Nodup) (f : α → κ) (xs : List α)
    (hm : ∀ x ∈ xs, f x ∈ keys) :
    (keys.map fun k => xs.countP fun x => f x == k).sum = xs.length := by
  induction xs with
  | nil => simp
  | cons x xs ih =>
    have hx : f x ∈ keys := hm x (List.mem_cons_self ..)
    simp only [List.countP_cons]
    rw [sum_map_add, sum_indicator hd hx, ih fun y hy => hm y (List.mem_cons_of_mem x hy),
      List.length_cons]

/-- of distinct keys, as many are in a sublist of theirs as it has -/
theorem countP_mem {keys ks : List κ} (hd : keys.Nodup) (hks : ks.Nodup)
    (hm : ∀ k ∈ ks, k ∈ keys) : keys.countP (· ∈ ks) = ks.length := by
  rw [List.countP_eq_length_filter]
  refine List.Perm.length_eq ((List.perm_ext_iff_of_nodup (hd.filter _) hks).mpr fun k => ?_)
  rw [List.mem_filter, decide_eq_true_iff]
  exact ⟨And.right, fun h => ⟨hm k h, h⟩⟩

end

namespace Ledger

theorem total_byKind (l : Ledger) : (l.countsByKind.map Prod.snd).sum = l.size := by
  unfold countsByKind
  rw [sum_counts]
  exact sum_countP Kind.all_nodup (fun t : Task => t.terms.kind) l.tasks fun t _ => Kind.mem_all _

theorem total_byStatus (l : Ledger) : (l.countsByStatus.map Prod.snd).sum = l.size := by
  unfold countsByStatus
  rw [sum_counts]
  exact sum_countP (by decide) Task.status l.tasks fun t _ => Status.mem_all _

end Ledger

theorem Roster.count_add_count (r : Roster) {s s' : WorkerStatus} (h : s ≠ s') :
    r.count s + r.count s' ≤ r.size := by
  unfold count size
  induction r.entries with
  | nil => exact Nat.le_refl 0
  | cons e es ih =>
    rw [List.countP_cons, List.countP_cons, List.length_cons]
    by_cases hs : e.status = s
    · simp only [hs, beq_self_eq_true, if_true, beq_iff_eq, if_neg h]
      omega
    · simp only [beq_iff_eq, if_neg hs]
      split <;> omega

/-! ## the counters of a pool -/

namespace Pool

/-- the counters `s` fit the pool, and each other -/
structure Census (p : Pool) (s : Stats) : Prop where
  queued : s.queuedTasks = p.queue.size
  within : p.queue.size ≤ p.ledger.size
  /-- the tasks in flight that have no ticket -/
  active : s.activeTasks = p.ledger.tasks.countP fun t => !p.queue.contains t.id
  kinds : (s.tasksByKind.map Prod.fst).Nodup
  byKind : (s.tasksByKind.map Prod.snd).sum = s.queuedTasks + s.activeTasks
  statuses : (s.tasksByStatus.map Prod.fst).Nodup
  byStatus : (s.tasksByStatus.map Prod.snd).sum = s.queuedTasks + s.activeTasks
  known : ∀ st n, (st, n) ∈ s.tasksByStatus → st = .queued ∨ st = .running ∨ st = .retrying
  running : ∀ n, (.running, n) ∈ s.tasksByStatus → n ≤ s.busyWorkers
  workers : s.idleWorkers + s.busyWorkers ≤ s.workerCount
  /-- no worker idles while a task waits -/
  idle : 0 < s.queuedTasks → s.idleWorkers = 0

variable {p : Pool} {bench : WorkerId → Option Bench} {taken : List TaskId}

theorem Orderly.countP_queued (h : p.Orderly) (hh : (p.scene bench taken).Harmony) :
    p.ledger.tasks.countP (fun t => p.queue.contains t.id) = p.queue.size := by
  have hin : ∀ id ∈ p.queue.tasks, id ∈ p.ledger.ids := by
    intro id hid
    obtain ⟨t, ht, _⟩ := Ledger.find?_of_sight ((hh.waits id).mp hid)
    exact Ledger.mem_ids ht
  have hcount := countP_mem h.distinct hh.nodup hin
  rw [Ledger.ids, List.countP_map] at hcount
  rw [← show (p.scene bench taken).waits.length = p.queue.size from List.length_map _, ← hcount]
  refine List.countP_congr fun t _ => ?_
  show p.queue.contains t.id = true ↔ decide (t.id ∈ p.queue.tasks) = true
  simp [Queue.contains, Queue.tasks]

/-- for every task that runs there is a worker that is busy with it -/
theorem Orderly.running_le (h : p.Orderly) (hh : (p.scene bench taken).Harmony) :
    p.ledger.countStatus .running ≤ p.roster.count .busy := by
  set running := (p.ledger.tasks.filter fun t => t.status == .running).map Task.id
  set held := (p.roster.entries.filter fun e => e.status == .busy).filterMap Entry.task
  have hd : running.Nodup := h.distinct.sublist (List.filter_sublist.map Task.id)
  have hsub : running ⊆ held := by
    intro id hid
    obtain ⟨t, ht, rfl⟩ := List.mem_map.mp hid
    obtain ⟨ht, hs⟩ := List.mem_filter.mp ht
    have hsight := Ledger.sight_of_find? (Ledger.find?_of_mem h.distinct ht)
    rw [show t.status = .running by simpa using hs] at hsight
    have hl := (hh.listed t.id _ hsight).2
    generalize t.worker = o at hl
    cases hl with
    | running w b hp hb ha =>
      obtain ⟨e, he, hbusy, htask⟩ := Roster.find?_of_post hp
      refine List.mem_filterMap.mpr ⟨e, List.mem_filter.mpr ⟨Roster.mem_of_find? he, ?_⟩, htask⟩
      exact beq_iff_eq.mpr hbusy
  calc p.ledger.countStatus .running = running.length := by
        rw [List.length_map, ← List.countP_eq_length_filter]
        rfl
    _ ≤ held.length := (List.subperm_of_subset hd hsub).length_le
    _ ≤ (p.roster.entries.filter fun e => e.status == .busy).length := List.length_filterMap_le _ _
    _ = p.roster.count .busy := List.countP_eq_length_filter.symm

theorem Diligent.count_idle (hd : p.Diligent) (hs : p.roster.Sound) (hq : 0 < p.queue.size) :
    p.roster.count .idle = 0 := by
  refine List.countP_eq_zero.mpr fun e he hi => ?_
  exact hd (List.ne_nil_of_length_pos hq) e.worker ⟨e, hs.find?_of_mem he, beq_iff_eq.mp hi⟩

/-- what ties the queue, the ledger and the roster makes the counters fit -/
theorem Orderly.census (h : p.Orderly) (hh : (p.scene bench taken).Harmony) (hd : p.Diligent)
    (hs : p.roster.Sound) : p.Census p.stats := by
  have hqueued := h.countP_queued hh
  have hsplit := p.ledger.tasks.length_eq_countP_add_countP fun t => p.queue.contains t.id
  rw [hqueued] at hsplit
  have hsize : p.ledger.size = p.queue.size + p.ledger.tasks.countP fun t =>
      !p.queue.contains t.id := by
    refine hsplit.trans ?_
    congr 1
    exact List.countP_congr fun t _ => by simp
  have hactive : p.queue.size + (p.ledger.size - p.queue.size) = p.ledger.size := by omega
  refine ⟨rfl, by omega, ?_, nodup_counts Kind.all_nodup _, ?_, nodup_counts (by decide) _, ?_, ?_,
    ?_, p.roster.count_add_count WorkerStatus.noConfusion, hd.count_idle hs⟩
  · show p.ledger.size - p.queue.size = _
    omega
  · exact p.ledger.total_byKind.trans hactive.symm
  · exact p.ledger.total_byStatus.trans hactive.symm
  · intro st n hm
    obtain ⟨hn, hpos⟩ := mem_counts hm
    have hex : 0 < p.ledger.countStatus st := by omega
    obtain ⟨t, ht, hst⟩ := List.countP_pos_iff.mp hex
    have hst' : t.status = st := beq_iff_eq.mp hst
    have hl := (hh.listed t.id _ (Ledger.sight_of_find? (Ledger.find?_of_mem h.distinct ht))).2
    rw [← hst']
    generalize t.status = s, t.worker = o at hl
    cases hl with
    | waiting | handed => exact .inl rfl
    | running => exact .inr (.inl rfl)
    | retrying => exact .inr (.inr rfl)
  · intro n hm
    rw [(mem_counts hm).1]
    exact h.running_le hh

end Pool

/-! ## whole runs -/

namespace Workshop

/-- **the counters of the pool add up**: whatever happens, what a caller is told of the queue, of
the tasks and of the workers fits together, and asking for it changes nothing -/
theorem Reachable.counted {c : Config} {W : Workshop} (h : Reachable c W) (m : Moment)
    (caller : CallId) :
    ∃ s, W.pool.handle m (.call caller .stats)
        = { W.pool with outbox := [.reply caller (.stats s)] } ∧
      W.pool.Census s := by
  have ht := h.inStep.tuned
  refine ⟨W.pool.stats, ?_, h.orderly.census ht.harmony h.pool_diligent ht.sound⟩
  show W.pool.emit (.reply caller (.stats W.pool.stats)) = _
  unfold Pool.emit
  rw [ht.outbox]
  rfl

/-- in `varied` one task waits, one is to be tried again, and one is at a worker -/
theorem counted_varied : Reachable Chronicle.single varied ∧
    ∃ s, varied.pool.handle calmMoment (.call 4 .stats)
        = { varied.pool with outbox := [.reply 4 (.stats s)] } ∧
      varied.pool.Census s ∧ s.queuedTasks = 1 ∧ s.activeTasks = 2 := by
  obtain ⟨s, hs, hc⟩ := reachable_varied.counted calmMoment 4
  exact ⟨reachable_varied, s, hs, hc, hc.queued, hc.active⟩

end Workshop

end TaskPool
