import TaskPool.Proofs.Hearing
import TaskPool.Proofs.Size

/-!
# The records of the pool and its workers agree

What harmony comes to, in terms of the records and the benches alone.

* `Bench.Vacant`       waiting, with nothing on its way but what is about metrics
* `Bench.Undelivered`, `Executing`, `Closing`   the three parts of the life of an attempt
* `Workshop.Agrees`    every record says of its worker what is the case
* `Reachable.agrees`   it does so in every reachable workshop

Why no worker is ever handed a second task: a worker is idle in the records only after it has told
how its last attempt ended, and a report is told after everything that it is about.
-/

namespace TaskPool

/-- one of the three, and no other -/
def OneOf (a b c : Prop) : Prop := (a ∧ ¬ b ∧ ¬ c) ∨ (¬ a ∧ b ∧ ¬ c) ∨ (¬ a ∧ ¬ b ∧ c)

namespace Bench

structure Vacant (b : Bench) : Prop where
  phase : b.worker.phase = .waiting
  reachable : b.worker.isReachable = true
  commands : ∀ c ∈ b.commands, c = .reportMetrics
  outgoing : ∀ e ∈ b.outgoing, ∃ s, e = .metrics s

def Undelivered (b : Bench) (t : TaskId) : Prop :=
  ∃ kind payload, Command.task t kind payload ∈ b.commands

def Executing (b : Bench) (t : TaskId) : Prop := b.worker.phase = .running t

/-- the last reports of an attempt, of which the first may have been handled -/
inductive Closers (t : TaskId) : List Event → Prop where
  | result (v : Json) : Closers t [.result t v, .idle]
  | error (detail : String) : Closers t [.error t detail, .idle]
  | idle : Closers t [.idle]
  | fatal (detail : String) : Closers t [.fatal detail, .exited false]

/-- the reports that close an attempt are still to be sent, or on their way -/
def Closing (b : Bench) (t : TaskId) : Prop :=
  (∃ detail, b.worker.phase = .ended (.panicked detail) ∧ b.reported = false) ∨
    ∃ es, Closers t es ∧ es <:+ b.news

/-- the tasks that the worker was told to run and has not finished -/
def unfinished (b : Bench) : List TaskId :=
  b.worker.phase.task?.toList ++ b.commands.filterMap Command.task?

/-! ## stations, in these terms -/

theorem undelivered_iff {b : Bench} {t : TaskId} :
    b.Undelivered t ↔ ∃ kind payload, Command.task t kind payload ∈ b.orders := by
  constructor
  · rintro ⟨kind, payload, h⟩
    exact ⟨kind, payload, List.mem_filter.mpr ⟨h, rfl⟩⟩
  · rintro ⟨kind, payload, h⟩
    exact ⟨kind, payload, (List.mem_filter.mp h).1⟩

theorem not_undelivered {b : Bench} (ho : b.orders = []) (t : TaskId) : ¬ b.Undelivered t := by
  rw [undelivered_iff, ho]
  rintro ⟨_, _, h⟩
  cases h

theorem unfinished_eq (b : Bench) :
    b.unfinished = b.worker.phase.task?.toList ++ b.orders.filterMap Command.task? := by
  have h : b.orders.filterMap Command.task? = b.commands.filterMap Command.task? := by
    rw [orders, List.filterMap_filter]
    congr 1
    funext c
    cases c <;> rfl
  rw [unfinished, h]

theorem Closers.ne_nil {t : TaskId} {es : List Event} (h : Closers t es) : es ≠ [] := by
  cases h <;> exact List.cons_ne_nil _ _

theorem not_closing_of_quiet {b : Bench} (hp : ∀ how, b.worker.phase ≠ .ended how)
    {t : TaskId} (hn : ∀ es, Closers t es → ¬ es <:+ b.news) : ¬ b.Closing t := by
  rintro (⟨detail, h, _⟩ | ⟨es, he, h⟩)
  · exact hp _ h
  · exact hn es he h

theorem Resting.vacant {b : Bench} (hs : b.Serves) (h : b.Resting) : b.Vacant where
  phase := h.phase
  reachable := hs.reachable h.phase
  commands := by
    intro c hc
    cases c with
    | reportMetrics => rfl
    | _ => exact absurd rfl (List.filter_eq_nil_iff.mp h.orders _ hc)
  outgoing := by
    intro e he
    cases e with
    | metrics s => exact ⟨s, rfl⟩
    | _ => exact absurd rfl (List.filter_eq_nil_iff.mp h.news _ he)

theorem Handed.oneOf {b : Bench} {t : TaskId} (h : b.Handed t) :
    OneOf (b.Undelivered t) (b.Executing t) (b.Closing t) := by
  obtain ⟨kind, payload, ho⟩ := h.orders
  refine .inl ⟨?_, ?_, ?_⟩
  · rw [undelivered_iff, ho]
    exact ⟨kind, payload, List.mem_singleton_self _⟩
  · intro hx
    rw [Executing, h.phase] at hx
    cases hx
  · refine not_closing_of_quiet (fun how hx => ?_) fun es he hx => ?_
    · rw [h.phase] at hx
      cases hx
    · rw [h.news] at hx
      exact he.ne_nil (List.suffix_nil.mp hx)

/-- what is left of an attempt that was begun: it runs, or it is being closed; reports `before` do
not close it -/
theorem Rest.oneOf {b : Bench} {t : TaskId} {before es : List Event} (ho : b.orders = [])
    (hn : b.news = before ++ es) (hb : ∀ e ∈ before, e = .busy t)
    (h : Rest t b.worker.phase b.reported es) :
    OneOf (b.Undelivered t) (b.Executing t) (b.Closing t) := by
  have hund := not_undelivered ho t
  generalize hp : b.worker.phase = phase at h
  generalize hr : b.reported = reported at h
  have hclosed (hx : phase.task? = none) (hc : b.Closing t) :
      OneOf (b.Undelivered t) (b.Executing t) (b.Closing t) := by
    refine .inr (.inr ⟨hund, fun he => ?_, hc⟩)
    rw [Executing, hp] at he
    rw [he] at hx
    cases hx
  cases h with
  | running =>
    refine .inr (.inl ⟨hund, hp, not_closing_of_quiet (fun how hx => ?_) fun es he hx => ?_⟩)
    · rw [hp] at hx
      cases hx
    · -- a suffix of the reports that came before consists of those reports
      rw [hn, List.append_nil] at hx
      cases he with
      | result | error | idle | fatal =>
        have := hb _ (hx.subset (List.mem_cons_self ..))
        cases this
  | value v => exact hclosed rfl (.inr ⟨_, .result v, before, hn.symm⟩)
  | error detail => exact hclosed rfl (.inr ⟨_, .error detail, before, hn.symm⟩)
  | dying detail => exact hclosed rfl (.inl ⟨detail, hp, hr⟩)
  | dead detail => exact hclosed rfl (.inr ⟨_, .fatal detail, before, hn.symm⟩)

theorem Acked.oneOf {b : Bench} {t : TaskId} (h : b.Acked t) :
    OneOf (b.Undelivered t) (b.Executing t) (b.Closing t) :=
  Rest.oneOf h.orders (List.nil_append _).symm (fun e he => by cases he) h.rest

theorem Unacked.oneOf {b : Bench} {t : TaskId} (h : b.Unacked t) :
    OneOf (b.Undelivered t) (b.Executing t) (b.Closing t) := by
  obtain ⟨es, hn, hr⟩ := h.rest
  exact Rest.oneOf h.orders (hn : b.news = [.busy t] ++ es) (fun e he => List.mem_singleton.mp he) hr

theorem Pending.oneOf {b : Bench} {t : TaskId} (h : b.Pending t) :
    OneOf (b.Undelivered t) (b.Executing t) (b.Closing t) := h.elim Handed.oneOf Unacked.oneOf

theorem Spent.oneOf {b : Bench} (h : b.Spent) (t : TaskId) :
    OneOf (b.Undelivered t) (b.Executing t) (b.Closing t) := by
  refine .inr (.inr ⟨not_undelivered h.orders t, fun he => ?_, .inr ⟨_, .idle, [], h.news.symm⟩⟩)
  rw [Executing, h.phase] at he
  cases he

end Bench

/-! ## records and benches -/

namespace Scene

theorem Fits.vacant {sight : TaskId → Option Sight} {taken : List TaskId} {w : WorkerId} {b : Bench}
    {o : Option TaskId} (h : Fits sight taken w b (some (.idle, o))) : b.Vacant := by
  cases h with
  | idle hs hr => exact hr.vacant hs

theorem Fits.task_iff {sight : TaskId → Option Sight} {taken : List TaskId} {w : WorkerId}
    {b : Bench} {st : WorkerStatus} {o : Option TaskId} (h : Fits sight taken w b (some (st, o))) :
    o.isSome = true ↔ st = .busy := by
  cases h <;> simp

theorem Fits.oneOf {sight : TaskId → Option Sight} {taken : List TaskId} {w : WorkerId} {b : Bench}
    {t : TaskId} (h : Fits sight taken w b (some (.busy, some t))) :
    OneOf (b.Undelivered t) (b.Executing t) (b.Closing t) := by
  cases h with
  | pending _ _ _ hp => exact hp.oneOf
  | acked _ _ _ ha => exact ha.oneOf
  | spent _ _ _ hsp => exact hsp.oneOf t

/-- a worker that was not asked to stop has one task to run at most -/
theorem Fits.unfinished {sight : TaskId → Option Sight} {taken : List TaskId} {w : WorkerId}
    {b : Bench} {st : WorkerStatus} {o : Option TaskId} (h : Fits sight taken w b (some (st, o)))
    (hst : st ≠ .stopping) : b.unfinished.length ≤ 1 := by
  have hrest {t : TaskId} {es : List Event} (ho : b.orders = [])
      (hr : Bench.Rest t b.worker.phase b.reported es) : b.unfinished.length ≤ 1 := by
    rw [Bench.unfinished_eq, ho]
    generalize b.worker.phase = phase at hr ⊢
    generalize b.reported = reported at hr
    cases hr <;> simp [Phase.task?]
  rw [Bench.unfinished_eq] at hrest ⊢
  cases h with
  | stopping => exact absurd rfl hst
  | starting _ hf =>
    obtain ⟨ho, ⟨hp, _⟩ | ⟨hp, _⟩⟩ := hf <;> rw [hp, ho] <;> decide
  | idle _ hr =>
    rw [hr.phase, hr.orders]
    decide
  | pending t _ _ hp =>
    rcases hp with hh | hu
    · obtain ⟨kind, payload, ho⟩ := hh.orders
      rw [hh.phase, ho]
      exact Nat.le_refl 1
    · obtain ⟨es, _, hr⟩ := hu.rest
      exact hrest hu.orders hr
  | acked t _ _ ha => exact hrest ha.orders ha.rest
  | spent t _ _ hsp =>
    rw [hsp.phase, hsp.orders]
    decide

end Scene

namespace Workshop

/-- every record of the pool says of its worker what is the case -/
structure Agrees (W : Workshop) : Prop where
  /-- a current task comes with being busy -/
  task_iff : ∀ w e, W.pool.roster.find? w = some e → (e.task.isSome = true ↔ e.status = .busy)
  idle : ∀ w e, W.pool.roster.find? w = some e → e.status = .idle →
    ∃ b, W.bench w = some b ∧ b.Vacant
  busy : ∀ w e t, W.pool.roster.find? w = some e → e.status = .busy → e.task = some t →
    ∃ b, W.bench w = some b ∧ OneOf (b.Undelivered t) (b.Executing t) (b.Closing t)
  unfinished : ∀ w e, W.pool.roster.find? w = some e → e.status ≠ .stopping →
    ∃ b, W.bench w = some b ∧ b.unfinished.length ≤ 1
  /-- whoever could be handed a task takes commands -/
  reaches : ∀ m, W.Admits m → ∀ w e, W.pool.roster.find? w = some e → e.status = .idle →
    m.reaches w = true
  /-- every ticket is of a task in flight -/
  listed : ∀ t ∈ W.pool.queue.waiting, ∃ task, W.pool.ledger.find? t.task = some task
  /-- `assign` has never come upon a worker that is gone or a task that is not known -/
  unwarned : ∀ what, Effect.warn what ∉ W.history

theorem InStep.bench_of_find? {W : Workshop} (h : W.InStep) {w : WorkerId} {e : Entry}
    (he : W.pool.roster.find? w = some e) : ∃ b, W.bench w = some b ∧
      Scene.Fits W.pool.ledger.sight (accepted W.history) w b (some (e.status, e.task)) := by
  have hpost := Roster.post_of_find? he
  obtain ⟨b, hb⟩ := h.tuned.harmony.seated w _ hpost
  have hfit := h.tuned.harmony.fits w b hb
  rw [show (W.pool.scene W.bench (accepted W.history)).post w = _ from hpost] at hfit
  exact ⟨b, hb, hfit⟩

theorem InStep.agreement {W : Workshop} (h : W.InStep) : W.Agrees := by
  have hidle (w : WorkerId) (e : Entry) (he : W.pool.roster.find? w = some e)
      (hs : e.status = .idle) : ∃ b, W.bench w = some b ∧ b.Vacant := by
    obtain ⟨b, hb, hfit⟩ := h.bench_of_find? he
    rw [hs] at hfit
    exact ⟨b, hb, hfit.vacant⟩
  refine ⟨fun w e he => ?_, hidle, fun w e t he hs ht => ?_, fun w e he hs => ?_,
    fun m hm w e he hs => ?_, fun t ht => ?_, h.calm⟩
  · obtain ⟨b, _, hfit⟩ := h.bench_of_find? he
    exact hfit.task_iff
  · obtain ⟨b, hb, hfit⟩ := h.bench_of_find? he
    rw [hs, ht] at hfit
    exact ⟨b, hb, hfit.oneOf⟩
  · obtain ⟨b, hb, hfit⟩ := h.bench_of_find? he
    exact ⟨b, hb, hfit.unfinished hs⟩
  · obtain ⟨b, hb, hv⟩ := hidle w e he hs
    cases hr : m.reaches w with
    | true => rfl
    | false =>
      have hgone : w ∈ m.gone := by simpa [Moment.reaches] using hr
      obtain ⟨b', hb', hbr⟩ := hm.gone w hgone
      rw [hb] at hb'
      cases hb'
      rw [hv.reachable] at hbr
      cases hbr
  · have hmem : t.task ∈ W.pool.queue.tasks := List.mem_map_of_mem ht
    obtain ⟨task, hf, _⟩ := Ledger.find?_of_sight ((h.tuned.harmony.waits t.task).mp hmem)
    exact ⟨task, hf⟩

/-- **the records of the pool agree with the workers they are about**, whatever happens and in
whatever order, so no task is ever handed to a worker that is gone, and no ticket is ever of a
task that is not known -/
theorem Reachable.agrees {c : Config} {W : Workshop} (h : Reachable c W) : W.Agrees :=
  h.inStep.agreement

theorem Reachable.manned {c : Config} {W : Workshop} (h : Reachable c W) :
    W.pool.Manned c := by
  induction h with
  | new => exact ⟨rfl, .empty, fun e he => by cases he⟩
  | step _ hs ih =>
    rcases hs.heard with ⟨hpool, _⟩ | ⟨m, msg, _, _, hpool, _⟩
    · rw [hpool]
      exact ih
    · have hm := ih.handle (m := m) msg
      rw [hpool]
      exact ⟨hm.config, hm.sound, hm.uncrashed⟩

/-- nothing is known to be gone, and the pool may set timers and start workers -/
def calmMoment : Moment := ⟨⟨0, 0⟩, [], true⟩

theorem admits_calmMoment (W : Workshop) : W.Admits calmMoment := by
  refine ⟨fun _ => rfl, fun w hw => ?_⟩
  cases hw

/-- a worker that has announced itself -/
def announced : Bench := ⟨{ Worker.new 1 0 with phase := .waiting }, [.ready], false, false⟩

/-- a pool of one worker, which is idle -/
def staffed : Workshop :=
  let opened := (new Chronicle.single).deliver calmMoment 0 (.call 0 .start)
  ((opened.setBench 1 announced).setBench 1 (announced.pop [])).deliver calmMoment 0
    (.report 1 .ready)

theorem reachable_staffed : Reachable Chronicle.single staffed := by
  have hopened := Reachable.new.step
    (.call calmMoment 0 0 .start (admits_calmMoment (new Chronicle.single)) trivial)
  have hturn : (Bench.new 1 0).Turn announced := .step 0 0 (announced.worker, [.ready]) rfl
  have hturned := hopened.step (.turn 1 (.new 1 0) announced rfl hturn)
  exact hturned.step (.report calmMoment 0 1 announced .ready [] (admits_calmMoment _) rfl rfl)

/-- a pool of one worker, which was just handed a task -/
def oneHanded : Workshop :=
  let opened := (new Chronicle.single).deliver calmMoment 0 (.call 0 .start)
  let staffed := ((opened.setBench 1 announced).setBench 1 (announced.pop [])).deliver calmMoment 0
    (.report 1 .ready)
  staffed.deliver calmMoment 0 (.call 1 (.submit ⟨7⟩ .cacheCleanup .null {}))

theorem reachable_oneHanded : Reachable Chronicle.single oneHanded := by
  refine reachable_staffed.step (.call calmMoment 0 1 _ (admits_calmMoment _) ?_)
  exact List.not_mem_nil

/-- there the command to run the task is on its way -/
theorem agrees_oneHanded : Reachable Chronicle.single oneHanded ∧ oneHanded.Agrees ∧
    (oneHanded.bench 1).map Bench.unfinished = some [⟨7⟩] :=
  ⟨reachable_oneHanded, reachable_oneHanded.agrees, rfl⟩

end Workshop

end TaskPool
