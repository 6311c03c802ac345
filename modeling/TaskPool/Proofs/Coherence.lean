import TaskPool.Proofs.Lasting

/-!
# What the record of a task says

A record is written when the task is accepted, handed out, begun, when an attempt fails and when the
next one is due.  What callers see of it between two steps is one of few forms.

* `Task.Coherent`      the fields of a record fit its status
* `Task.Unbegun`       no attempt has left a trace in it but for the worker it is handed to
* `coherent_lasting`   a coherent record stays coherent however its task goes on
* `Workshop.Coherent`  every record is coherent and fits the place of its task, and a task can be
                       cancelled as long as there is a record of it
* `Reachable.coherent` that is so in every reachable workshop

Why a retry leaves no trace: a task gets back into the queue only by `Ledger.reset`, which leaves
the number of retries and of attempts and clears what else an attempt has written.
-/

namespace TaskPool

/-! ## records -/

/-- no attempt has left a trace, but for the worker that it is handed to -/
structure Task.Unbegun (t : Task) : Prop where
  started : t.started = none
  completed : t.completed = none
  error : t.error = none

/-- an attempt runs -/
structure Task.Underway (t : Task) : Prop where
  worker : t.worker.isSome = true
  started : t.started.isSome = true
  completed : t.completed = none
  error : t.error = none

/-- an attempt has failed, and all of it can be read -/
structure Task.Setback (t : Task) : Prop where
  retries : 1 ≤ t.retries
  worker : t.worker.isSome = true
  started : t.started.isSome = true
  completed : t.completed.isSome = true
  error : t.error.isSome = true

/-- every field of a record fits its status -/
structure Task.Coherent (t : Task) : Prop where
  /-- a record of a task that is over is not kept -/
  status : t.status = .queued ∨ t.status = .running ∨ t.status = .retrying
  retries : t.retries ≤ t.terms.maxRetries
  result : t.result = none
  queued : t.status = .queued → t.Unbegun
  running : t.status = .running → t.Underway
  retrying : t.status = .retrying → t.Setback

namespace Task

variable {t : Task}

theorem coherent_new (id : TaskId) (terms : Terms) (now : Timestamp) :
    (Task.new id terms now).Coherent where
  status := .inl rfl
  retries := Nat.zero_le _
  result := rfl
  queued _ := ⟨rfl, rfl, rfl⟩
  running h := nomatch h
  retrying h := nomatch h

theorem Coherent.handed (h : t.Coherent) (hs : t.status = .queued) (w : WorkerId) :
    Coherent { t with worker := some w } where
  status := h.status
  retries := h.retries
  result := h.result
  queued _ := ⟨(h.queued hs).started, (h.queued hs).completed, (h.queued hs).error⟩
  running hr := nomatch hs.symm.trans hr
  retrying hr := nomatch hs.symm.trans hr

theorem Coherent.begun (h : t.Coherent) (hs : t.status = .queued) (w : WorkerId) (now : Timestamp)
    (timer : Option TimerId) : (Pool.begun w now timer t).Coherent where
  status := .inr (.inl rfl)
  retries := h.retries
  result := h.result
  queued hq := nomatch hq
  running _ := ⟨rfl, rfl, (h.queued hs).completed, (h.queued hs).error⟩
  retrying hr := nomatch hr

/-- the count of retries does not wrap around, since the limit has not been reached -/
theorem toNat_retries (hr : t.retries < t.terms.maxRetries) :
    (t.retries + 1).toNat = t.retries.toNat + 1 := toNat_add_one_of_lt hr

theorem Coherent.retryLater (h : t.Coherent) (hs : t.status = .running)
    (hr : t.retries < t.terms.maxRetries) (cause : FailureCause) (now : Timestamp)
    (timer : Option TimerId) : (Pool.retryLater cause now timer t).Coherent where
  status := .inr (.inr rfl)
  retries := by
    show (t.retries + 1).toNat ≤ t.terms.maxRetries.toNat
    rw [toNat_retries hr]
    exact hr
  result := h.result
  queued hq := nomatch hq
  running hq := nomatch hq
  retrying _ := by
    refine ⟨?_, (h.running hs).worker, (h.running hs).started, rfl, rfl⟩
    show 1 ≤ (t.retries + 1).toNat
    rw [toNat_retries hr]
    exact Nat.le_add_left 1 _

theorem Coherent.reset (h : t.Coherent) : (Ledger.reset t).Coherent where
  status := .inl rfl
  retries := h.retries
  result := rfl
  queued _ := ⟨rfl, rfl, rfl⟩
  running hq := nomatch hq
  retrying hq := nomatch hq

theorem Coherent.not_terminal (h : t.Coherent) : t.status.isTerminal = false := by
  rcases h.status with hs | hs | hs <;> rw [hs] <;> rfl

end Task

theorem coherent_lasting (id : TaskId) :
    Pool.Lasting id fun _ _ o => ∀ t, o = some t → t.Coherent := by
  intro heard l l' ws os us vs h hc t' ht'
  cases hc with
  | apart hl => exact h t' (hl ▸ ht')
  | closed _ _ _ hl | exhausted _ _ _ _ _ _ _ _ hl =>
    rw [hl] at ht'
    cases ht'
  | handed t w ht hs _ hl =>
    cases hl.symm.trans ht'
    exact (h t ht).handed hs w
  | begun t w now timer ht hs _ _ hl =>
    cases hl.symm.trans ht'
    exact (h t ht).begun hs w now timer
  | retried t w cause now timer ht hs _ hr hl =>
    cases hl.symm.trans ht'
    exact (h t ht).retryLater hs hr cause now timer
  | reset t ht _ hl =>
    cases hl.symm.trans ht'
    exact (h t ht).reset

/-! ## cancelling -/

theorem Ledger.cancel_of_none {l : Ledger} {id : TaskId} (h : l.find? id = none) :
    l.cancel id = (.notFound, l, []) := by
  unfold cancel
  rw [h]

theorem Ledger.cancel_of_some {l : Ledger} {id : TaskId} {t : Task} (h : l.find? id = some t)
    (hs : t.status.isTerminal = false) :
    l.cancel id = (.cancelled, l.erase id, t.resolve (.error .cancelled)) := by
  simp only [cancel, h, hs, Bool.false_eq_true, if_false]

/-- what a request to cancel a task is answered, where no record is of a task that is over -/
theorem Pool.handle_cancel {p : Pool} (m : Moment) (caller : CallId) (id : TaskId)
    (hp : p.outbox = []) (h : ∀ t, p.ledger.find? id = some t → t.status.isTerminal = false) :
    ∃ es, (p.handle m (.call caller (.cancel id))).outbox = es ++
        [.reply caller (.cancelled (if p.ledger.contains id then .cancelled else .notFound))] ∧
      ∀ e ∈ es, ∀ c a, e ≠ .reply c a := by
  show ∃ es, (p.outbox ++ (p.ledger.cancel id).2.2.map Consequence.effect) ++
    [Effect.reply caller (.cancelled (p.ledger.cancel id).1)] = _ ∧ _
  rw [hp, List.nil_append]
  cases ht : p.ledger.find? id with
  | none =>
    have hno : ¬ p.ledger.contains id = true := fun hin =>
      Ledger.find?_eq_none.mp ht (Ledger.contains_iff.mp hin)
    rw [if_neg hno, Ledger.cancel_of_none ht]
    exact ⟨[], rfl, fun e he => nomatch he⟩
  | some t =>
    rw [if_pos (Ledger.contains_iff.mpr (Ledger.mem_ids ht)), Ledger.cancel_of_some ht (h t ht)]
    refine ⟨_, rfl, fun e he c a => ?_⟩
    obtain ⟨x, _, rfl⟩ := List.mem_map.mp he
    cases x <;> exact Effect.noConfusion

/-! ## reachable workshops -/

namespace Workshop

/-- what can be seen of the tasks in flight -/
structure Coherent (W : Workshop) : Prop where
  records : ∀ t ∈ W.pool.ledger.tasks, t.Coherent
  /-- nothing can be told of earlier attempts but how many there were -/
  waiting : ∀ t ∈ W.pool.ledger.tasks, t.id ∈ W.pool.queue.tasks →
    t.status = .queued ∧ t.worker = none ∧ t.Unbegun
  /-- handed to a worker that has not told so far that it has begun -/
  dispatched : ∀ t ∈ W.pool.ledger.tasks, t.status = .queued → t.id ∉ W.pool.queue.tasks →
    t.worker.isSome = true ∧ t.Unbegun
  /-- in particular no caller hears that a task is over already -/
  cancelled : ∀ m caller id, ∃ es, (W.pool.handle m (.call caller (.cancel id))).outbox = es ++
      [.reply caller
        (.cancelled (if W.pool.ledger.contains id then .cancelled else .notFound))] ∧
    ∀ e ∈ es, ∀ c a, e ≠ .reply c a

theorem Reachable.coherent_task {c : Config} {W : Workshop} (h : Reachable c W) {id : TaskId}
    {t : Task} (ht : W.pool.ledger.find? id = some t) : t.Coherent := by
  refine h.holds (coherent_lasting id) (fun terms now t ht => ?_)
    (h.inStep.tuned.harmony.listed id _ (Ledger.sight_of_find? ht)).1 t ht
  cases ht
  exact Task.coherent_new id terms now

/-- **the record of a task in flight is coherent**, whatever became of its earlier attempts -/
theorem Reachable.coherent {c : Config} {W : Workshop} (h : Reachable c W) : W.Coherent := by
  have hharmony := h.inStep.tuned.harmony
  have hfind (t : Task) (ht : t ∈ W.pool.ledger.tasks) : W.pool.ledger.find? t.id = some t :=
    Ledger.find?_of_mem (h.balanced.nodup h.nodup_accepted) ht
  have hwaits (t : Task) (ht : t ∈ W.pool.ledger.tasks) :
      t.id ∈ W.pool.queue.tasks ↔ t.status = .queued ∧ t.worker = none := by
    have hw : t.id ∈ W.pool.queue.tasks ↔ W.pool.ledger.sight t.id = some (.queued, none) :=
      hharmony.waits t.id
    rw [hw, Ledger.sight_of_find? (hfind t ht), Option.some_inj, Prod.mk.injEq]
  refine ⟨fun t ht => h.coherent_task (hfind t ht), fun t ht hin => ?_,
    fun t ht hs hout => ?_, fun m caller id => ?_⟩
  · obtain ⟨hs, hw⟩ := (hwaits t ht).mp hin
    exact ⟨hs, hw, (h.coherent_task (hfind t ht)).queued hs⟩
  · refine ⟨?_, (h.coherent_task (hfind t ht)).queued hs⟩
    cases hw : t.worker with
    | none => exact absurd ((hwaits t ht).mpr ⟨hs, hw⟩) hout
    | some w => rfl
  · exact Pool.handle_cancel m caller id h.inStep.tuned.outbox fun t ht =>
      (h.coherent_task ht).not_terminal

/-- a worker whose first task has failed -/
def soured : Bench :=
  { working with
    worker := (working.worker.finish 0 (.error ["out of disk"])).1
    outgoing := [.busy ⟨7⟩, .error ⟨7⟩ "out of disk", .idle] }

/-- a pool of one worker: one task is to be tried again, one was handed out, and one waits -/
def varied : Workshop :=
  let failed := (oneHanded.setBench 1 working).setBench 1 soured
  let begun := (failed.setBench 1 (soured.pop [.error ⟨7⟩ "out of disk", .idle])).deliver
    calmMoment 0 (.report 1 (.busy ⟨7⟩))
  let retrying := (begun.setBench 1 (soured.pop [.idle])).deliver calmMoment 0
    (.report 1 (.error ⟨7⟩ "out of disk"))
  let queued := retrying.deliver calmMoment 0 (.call 2 (.submit ⟨8⟩ .cacheCleanup .null {}))
  let handed := (queued.setBench 1 (soured.pop [])).deliver calmMoment 0 (.report 1 .idle)
  handed.deliver calmMoment 0 (.call 3 (.submit ⟨9⟩ .cacheCleanup .null {}))

theorem reachable_varied : Reachable Chronicle.single varied := by
  have hworking := reachable_oneHanded.step
    (.turn 1 ((announced.pop []).tell (.task ⟨7⟩ .cacheCleanup .null)) working rfl
      (.step 0 0 (working.worker, [.busy ⟨7⟩]) rfl))
  have hsoured := hworking.step
    (.turn 1 working soured rfl (.finish 0 (.error ["out of disk"])))
  have hbegun := hsoured.step (.report calmMoment 0 1 soured (.busy ⟨7⟩)
    [.error ⟨7⟩ "out of disk", .idle] (admits_calmMoment _) rfl rfl)
  have hretrying := hbegun.step (.report calmMoment 0 1
    (soured.pop [.error ⟨7⟩ "out of disk", .idle]) (.error ⟨7⟩ "out of disk") [.idle]
    (admits_calmMoment _) rfl rfl)
  have hqueued := hretrying.step (.call calmMoment 0 2
    (.submit ⟨8⟩ .cacheCleanup .null {}) (admits_calmMoment _)
    (show (⟨8⟩ : TaskId) ∉ accepted _ by decide))
  have hhanded := hqueued.step (.report calmMoment 0 1 (soured.pop [.idle]) .idle []
    (admits_calmMoment _) rfl rfl)
  exact hhanded.step (.call calmMoment 0 3 (.submit ⟨9⟩ .cacheCleanup .null {})
    (admits_calmMoment _) (show (⟨9⟩ : TaskId) ∉ accepted _ by decide))

theorem coherent_varied : Reachable Chronicle.single varied ∧ varied.Coherent ∧
    varied.pool.ledger.tasks.map (fun t => (t.status, t.worker, t.retries))
      = [(.retrying, some 1, 1), (.queued, some 1, 0), (.queued, none, 0)] :=
  ⟨reachable_varied, reachable_varied.coherent, rfl⟩

end Workshop

end TaskPool
