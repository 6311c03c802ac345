import TaskPool.Proofs.Leaving

/-!
# A tick of the autoscaler

A tick asks for news, starts workers or asks some to end.  Those that it asks to end have nothing to
do, and whatever becomes of them later is no matter to any task.

* `ended`                 the workers that are told to end
* `Pool.Parts ws p q`     workers of `ws` are asked to end, others are started, and that is all
* `autoscale_parts`       a tick does that to the workers that the plan names
* `Workshop.Undisturbed`  nobody who has a task, and no task, notices the tick
* `Workshop.Unmissed`     no task has to do with a worker any more
* `Reachable.undisturbed` a tick is undisturbing in every reachable workshop, and whoever it asks to
                          end is not missed from then on

Why an idle worker is not missed: what the pool takes for idle has been told of nothing, as records
and benches agree; and from the tick on nothing is handed to it, so all that it can still report is
its end.
-/

namespace TaskPool

open Function Relation

/-! ## who is told to end -/

def Effect.ends? : Effect → Option WorkerId
  | .tell w .terminate => some w
  | _ => none

/-- the workers that are told to end -/
def ended (es : List Effect) : List WorkerId := es.filterMap Effect.ends?

theorem ended_append (es fs : List Effect) : ended (es ++ fs) = ended es ++ ended fs :=
  List.filterMap_append

namespace Pool

variable {m : Moment}

/-- some of the workers are asked to end, others are started, and nothing else happens that a task
or another worker would notice -/
structure Parts (ws : List WorkerId) (p q : Pool) : Prop where
  aloof : Aloof p q
  ended : ∃ vs, vs.Sublist ws ∧ ended q.outbox = TaskPool.ended p.outbox ++ vs
  /-- who was there is there, and only those workers may have changed -/
  kept : ∀ w e, w ∉ ws → p.roster.find? w = some e → q.roster.find? w = some e
  stopping : ∀ w e, w ∉ ws → q.roster.find? w = some e → e.status = .stopping →
    p.roster.find? w = some e

theorem Parts.refl (p : Pool) : Parts [] p p where
  aloof := .silent rfl rfl rfl
  ended := ⟨[], .refl _, (List.append_nil _).symm⟩
  kept _ _ _ he := he
  stopping _ _ _ he _ := he

theorem Parts.trans {us vs : List WorkerId} {p q r : Pool} (h1 : Parts us p q) (h2 : Parts vs q r) :
    Parts (us ++ vs) p r := by
  obtain ⟨xs, hxs, hx⟩ := h1.ended
  obtain ⟨ys, hys, hy⟩ := h2.ended
  refine ⟨h1.aloof.trans h2.aloof, ⟨xs ++ ys, hxs.append hys, ?_⟩, fun w e hw he => ?_,
    fun w e hw he hs => ?_⟩
  · rw [hy, hx, List.append_assoc]
  · rw [List.mem_append, not_or] at hw
    exact h2.kept w e hw.2 (h1.kept w e hw.1 he)
  · rw [List.mem_append, not_or] at hw
    exact h1.stopping w e hw.1 (h2.stopping w e hw.2 he hs) hs

/-- effects alone -/
theorem Parts.emitted {p q : Pool} (es : List Effect) (ho : q.outbox = p.outbox ++ es)
    (hes : ∀ e ∈ es, (∀ x, e.Omits x) ∧ e.ends? = none) (hl : q.ledger = p.ledger)
    (hq : q.queue = p.queue) (hr : q.roster = p.roster) : Parts [] p q where
  aloof := ⟨hl, hq, es, ho, fun e he => (hes e he).1⟩
  ended := by
    have hnone : TaskPool.ended es = [] := List.filterMap_eq_nil_iff.mpr fun e he => (hes e he).2
    exact ⟨[], .refl _, by rw [ho, ended_append, hnone]⟩
  kept w e _ he := by rw [hr]; exact he
  stopping w e _ he _ := by rw [← hr]; exact he

theorem requestMetrics_parts (p : Pool) : Parts [] p (requestMetrics m p none).2 := by
  refine .emitted ((p.reachable m).map fun w => .tell w .reportMetrics) rfl (fun e he => ?_)
    rfl rfl rfl
  obtain ⟨w, _, rfl⟩ := List.mem_map.mp he
  exact ⟨fun _ => ⟨rfl, rfl⟩, rfl⟩

theorem hire_parts {p : Pool} (hs : p.roster.Sound) : Parts [] p (p.hire m) := by
  by_cases ha : m.attached = true
  · have hfind (w : WorkerId) : (p.hire m).roster.find? w = if w = p.roster.nextId
        then some (Entry.new p.roster.nextId p.roster.nextId m.now) else p.roster.find? w := by
      rw [hire_of_attached ha]
      exact p.roster.find?_enrol m.now w
    refine ⟨.hire p, ⟨[], .refl _, ?_⟩, fun w e _ he => ?_, fun w e _ he hst => ?_⟩
    · rw [hire_of_attached ha, ended_append]
      rfl
    · rw [hfind, if_neg (Nat.ne_of_lt (hs.lt_of_find? he))]
      exact he
    · rw [hfind] at he
      split at he
      · cases he
        cases hst
      · exact he
  · rw [hire_of_detached (by simpa using ha)]
    exact .refl p

theorem hireMany_parts (n : Nat) {p : Pool} (hs : p.roster.Sound) :
    Parts [] p (hireMany m n p) := by
  induction n generalizing p with
  | zero => exact .refl p
  | succ n ih => exact (hire_parts hs).trans (ih (hire_sound hs))

theorem omits_retirement (p : Pool) (w : WorkerId) : ∀ e ∈ retirement m p w, ∀ x, e.Omits x := by
  intro e he x
  rcases List.mem_append.mp he with he | he
  all_goals
    split at he
    · rw [List.mem_singleton.mp he]
      exact ⟨rfl, rfl⟩
    · cases he

theorem ended_retirement (p : Pool) (w : WorkerId) :
    (TaskPool.ended (retirement m p w)).Sublist [w] := by
  unfold retirement
  split <;> split <;> first | exact .refl _ | exact List.nil_sublist _

theorem stopWorker_parts (p : Pool) (w : WorkerId) : Parts [w] p (stopWorker m none p w) := by
  obtain ⟨f, hf, _, _, hr⟩ := stopWorker_roster (m := m) none p w
  have hother (x : WorkerId) (hx : x ∉ [w]) :
      (stopWorker m none p w).roster.find? x = p.roster.find? x := by
    rw [hr, Roster.find?_modify _ _ hf, if_neg fun h => hx (List.mem_singleton.mpr h)]
  have hkept (x : WorkerId) (e : Entry) (hx : x ∉ [w]) (he : p.roster.find? x = some e) :
      (stopWorker m none p w).roster.find? x = some e := (hother x hx).trans he
  have hstopping (x : WorkerId) (e : Entry) (hx : x ∉ [w])
      (he : (stopWorker m none p w).roster.find? x = some e) (_ : e.status = .stopping) :
      p.roster.find? x = some e := (hother x hx).symm.trans he
  have hsilent (q : Pool) (hl : q.ledger = p.ledger) (hq : q.queue = p.queue)
      (ho : q.outbox = p.outbox) :
      Aloof p q ∧ ∃ vs, vs.Sublist [w] ∧ TaskPool.ended q.outbox = TaskPool.ended p.outbox ++ vs :=
    ⟨.silent hl hq ho, [], List.nil_sublist _, by rw [ho, List.append_nil]⟩
  suffices h : Aloof p (stopWorker m none p w) ∧ ∃ vs, vs.Sublist [w] ∧
      TaskPool.ended (stopWorker m none p w).outbox = TaskPool.ended p.outbox ++ vs from
    ⟨h.1, h.2, hkept, hstopping⟩
  cases he : p.roster.find? w with
  | none =>
    rw [stopWorker_of_gone none he]
    exact hsilent p rfl rfl rfl
  | some e =>
    by_cases hs : e.status = .stopping
    · rw [stopWorker_of_stopping none he hs]
      exact hsilent _ rfl rfl rfl
    · rw [stopWorker_of_live none he hs]
      exact ⟨⟨rfl, rfl, _, rfl, omits_retirement p w⟩, _, ended_retirement p w, ended_append _ _⟩

theorem stopAll_parts (ws : List WorkerId) (p : Pool) :
    Parts ws p (ws.foldl (stopWorker m none) p) := by
  induction ws generalizing p with
  | nil => exact .refl p
  | cons w ws ih => exact (stopWorker_parts p w).trans (ih _)

theorem carryOut_parts {p : Pool} (hs : p.roster.Sound) (d : Decision) :
    Parts d.stopped p (carryOut m p d) := by
  cases d with
  | up count => exact hireMany_parts count hs
  | down workers => exact stopAll_parts workers p
  | hold => exact .refl p

/-- those that the plan wants to end, because there are too many or because they waited too long -/
def leaving (p : Pool) (now : Timestamp) : List WorkerId :=
  (p.gauge.plan p.config now).decision.stopped ++ (p.gauge.plan p.config now).evict

theorem idle_of_mem_leaving {p : Pool} (hs : p.roster.Sound) {now : Timestamp} {w : WorkerId}
    (h : w ∈ p.leaving now) : p.Idle w :=
  (List.mem_append.mp h).elim (idle_of_mem_stopped hs _ _) (idle_of_mem_evict hs now)

/-- **a tick parts with those that the plan names**, and does no more -/
theorem autoscale_parts {p : Pool} (hs : p.roster.Sound) :
    ∃ ws, ws.Sublist (p.leaving m.now) ∧ Parts ws p (autoscale m p) := by
  cases hr : p.running with
  | false =>
    rw [autoscale_of_stopped hr]
    exact ⟨[], List.nil_sublist _, .refl p⟩
  | true =>
    rw [autoscale_of_running hr]
    have hask := requestMetrics_parts (m := m) p
    have hq : (requestMetrics m p none).2.roster.Sound := hs
    exact ⟨_, .refl _, (hask.trans (carryOut_parts hq _)).trans (stopAll_parts _ _)⟩

/-- a worker that is gone, if it was stopping, takes nothing with it -/
theorem Aloof.finishStop (p : Pool) (w : WorkerId) : Aloof p (finishStop m p w) := by
  cases he : p.roster.find? w with
  | none =>
    unfold Pool.finishStop
    rw [he]
    exact .silent rfl rfl rfl
  | some e =>
    rw [finishStop_eq he]
    exact (Aloof.removed p w e).trans (.replace _ _)

end Pool

theorem Bench.Vacant.unfinished {b : Bench} (h : b.Vacant) : b.unfinished = [] := by
  have hnone : b.commands.filterMap Command.task? = [] := by
    refine List.filterMap_eq_nil_iff.mpr fun c hc => ?_
    rw [h.commands c hc]
    rfl
  rw [Bench.unfinished, h.phase, hnone]
  rfl

namespace Workshop

variable {c : Config} {W V : Workshop} {m : Moment} {w : WorkerId}

/-! ## who is not missed -/

/-- what can be heard of a worker: its next report, or that its grace is over -/
inductive Concerns (W : Workshop) (w : WorkerId) : Message → Prop where
  | report (b : Bench) (e : Event) (rest : List Event) (hb : W.bench w = some b)
      (ho : b.outgoing = e :: rest) : Concerns W w (.report w e)
  | deadline : Concerns W w (.ring (.stopDeadline w))

/-- no task has to do with the worker any more -/
structure Unmissed (W : Workshop) (w : WorkerId) : Prop where
  /-- it is stopping, or gone -/
  leaving : ∀ e, W.pool.roster.find? w = some e → e.status = .stopping
  /-- a task that stands at it is to be tried again, after an attempt that has failed there -/
  unmanned : ∀ t k, W.pool.ledger.find? t = some k → k.worker = some w → k.status = .retrying
  aloof : ∀ m msg, W.Concerns w msg → W.pool.Aloof (W.pool.handle m msg)

section
variable (hin : W.InStep) (hst : ∀ e, W.pool.roster.find? w = some e → e.status = .stopping)
include hin hst

/-- whoever is not there but stopping has no task -/
theorem InStep.unmanned {t : TaskId} {k : Task} (ht : W.pool.ledger.find? t = some k)
    (hw : k.worker = some w) : k.status = .retrying := by
  have hlist := (hin.tuned.harmony.listed t _ (Ledger.sight_of_find? ht)).2
  have hbusy (hp : W.pool.roster.post w = some (.busy, some t)) : False := by
    obtain ⟨e, he, hs, _⟩ := Roster.find?_of_post hp
    rw [hst e he] at hs
    cases hs
  rw [hw] at hlist
  generalize k.status = st at hlist
  cases hlist with
  | handed _ _ hp => exact (hbusy hp).elim
  | running _ _ hp => exact (hbusy hp).elim
  | retrying => rfl

/-- and what it still reports is about tasks that are over -/
theorem InStep.over_of_named {b : Bench} (hb : W.bench w = some b) {t : TaskId} (ht : b.Names t) :
    W.pool.ledger.find? t = none := by
  have hfit := hin.tuned.harmony.fits w b hb
  have hstale : Scene.Stale W.pool.ledger.sight (accepted W.history) b := by
    cases he : W.pool.roster.find? w with
    | none =>
      rw [show (W.pool.scene W.bench (accepted W.history)).post w = none by
        show W.pool.roster.post w = none
        rw [Roster.post, he]
        rfl] at hfit
      cases hfit with
      | gone h => exact h
    | some e =>
      rw [show (W.pool.scene W.bench (accepted W.history)).post w = _ from
        Roster.post_of_find? he, hst e he] at hfit
      generalize e.task = o at hfit
      cases hfit with
      | stopping h => exact h
  exact Ledger.sight_eq_none.mp (hstale t ht).2

theorem InStep.concerns_aloof (m : Moment) {msg : Message} (hmsg : W.Concerns w msg) :
    W.pool.Aloof (W.pool.handle m msg) := by
  cases hmsg with
  | deadline =>
    show W.pool.Aloof (Pool.ring m W.pool (.stopDeadline w))
    cases he : W.pool.roster.find? w with
    | none =>
      simp only [Pool.ring, he]
      exact .silent rfl rfl rfl
    | some e =>
      simp only [Pool.ring, he, if_pos (hst e he)]
      exact .finishStop W.pool w
  | report b e rest hb ho =>
    have hover {t : TaskId} (ht : e.task? = some t) : W.pool.ledger.find? t = none :=
      hin.over_of_named hst hb (.inr (.inr ⟨e, ho ▸ List.mem_cons_self .., ht⟩))
    have hcrash (detail : String) : W.pool.Aloof (Pool.crash m W.pool w detail) := by
      unfold Pool.crash
      cases he : W.pool.roster.find? w with
      | none => exact .silent rfl rfl rfl
      | some entry =>
        simp only [if_pos (hst entry he)]
        exact .finishStop W.pool w
    cases e with
    | busy t => exact (Pool.Late.busy w).aloof (hover rfl)
    | result t v => exact (Pool.Late.result w v).aloof (hover rfl)
    | error t detail => exact (Pool.Late.error w detail).aloof (hover rfl)
    | fatal detail => exact hcrash detail
    | exited graceful => exact hcrash _
    | metrics sample => exact .silent rfl rfl rfl
    | ready | idle =>
      show W.pool.Aloof (Pool.report m W.pool w _)
      unfold Pool.report
      cases he : W.pool.roster.find? w with
      | none => exact .silent rfl rfl rfl
      | some entry =>
        simp only [hst entry he, reduceCtorEq, if_false]
        exact .silent rfl rfl rfl

theorem InStep.unmissed : W.Unmissed w :=
  ⟨hst, fun _ _ => hin.unmanned hst, fun m _ => hin.concerns_aloof hst m⟩

end

/-- **whoever was asked to end is not missed**, whatever happens from then on -/
theorem Reachable.unmissed (h : Reachable c W) {e : Entry} (he : W.pool.roster.find? w = some e)
    (hs : e.status = .stopping) (hV : ReflTransGen Step W V) : V.Unmissed w := by
  have hlt := h.inStep.tuned.sound.lt_of_find? he
  have hall : Reachable c V ∧ W.pool.roster.Fades V.pool.roster := by
    induction hV with
    | refl => exact ⟨h, .refl _⟩
    | tail _ hstep ih => exact ⟨ih.1.step hstep, ih.2.trans (hstep.fades ih.1)⟩
  refine hall.1.inStep.unmissed (hall.2.stopping hlt fun e' he' => ?_)
  rw [he] at he'
  cases he'
  exact hs

/-! ## a tick -/

/-- from `W` a tick leads to `V`, and disturbs no task -/
structure Undisturbed (m : Moment) (W V : Workshop) : Prop where
  /-- whoever is asked to end was waiting, without a task and with no command to run one -/
  idle : ∀ w e', V.pool.roster.find? w = some e' → e'.status = .stopping →
    ∃ e, W.pool.roster.find? w = some e ∧ (e.status = .stopping ∨
      (e.status = .idle ∧ e.task = none ∧
        ∃ b, W.bench w = some b ∧ b.Vacant ∧ b.unfinished = []))
  /-- nobody is to end twice, or told so twice -/
  once : (W.pool.leaving m.now).Nodup ∧
    (ended (W.pool.handle m (.ring .autoscaleTick)).outbox).Sublist (W.pool.leaving m.now)
  /-- whoever has something to do keeps at it -/
  busy : ∀ w e, W.pool.roster.find? w = some e → e.status ≠ .idle →
    V.pool.roster.find? w = some e
  tasks : V.pool.ledger = W.pool.ledger ∧ V.pool.queue = W.pool.queue
  /-- no task is handed out, and none ends -/
  silent : ∀ e ∈ (W.pool.handle m (.ring .autoscaleTick)).outbox, ∀ t, e.Omits t
  unmissed : ∀ w e, V.pool.roster.find? w = some e → e.status = .stopping →
    ∀ U, ReflTransGen Step V U → U.Unmissed w

/-- **a tick of the autoscaler disturbs no task**: those that it asks to end have nothing to do, and
are not missed later -/
theorem Reachable.undisturbed (h : Reachable c W) (hm : W.Admits m)
    (ha : Alarm.autoscaleTick ∈ W.rung) (now : Nat) :
    Undisturbed m W ({ W with rung := W.rung.erase .autoscaleTick }.deliver m now
      (.ring .autoscaleTick)) := by
  have hin := h.inStep
  obtain ⟨ws, hws, hparts⟩ := Pool.autoscale_parts (m := m) hin.tuned.sound
  have houtbox : W.pool.outbox = [] := hin.tuned.outbox
  have hidle {w : WorkerId} (hw : w ∈ ws) : W.pool.Idle w :=
    Pool.idle_of_mem_leaving hin.tuned.sound (hws.subset hw)
  obtain ⟨hl, hq, es, ho, homits⟩ := hparts.aloof
  obtain ⟨vs, hvs, hended⟩ := hparts.ended
  refine ⟨fun w e' he' hs => ?_, ⟨Pool.nodup_leaving hin.tuned.sound _ _, ?_⟩, fun w e he hs => ?_,
    ⟨hl, hq⟩, fun e he t => ?_, fun w e he hs U => ?_⟩
  · by_cases hw : w ∈ ws
    · obtain ⟨e, he, hst⟩ := hidle hw
      obtain ⟨b, hb, hvacant⟩ := hin.agreement.idle w e he hst
      refine ⟨e, he, .inr ⟨hst, ?_, b, hb, hvacant, hvacant.unfinished⟩⟩
      rw [← Option.not_isSome_iff_eq_none, hin.agreement.task_iff w e he, hst]
      exact WorkerStatus.noConfusion
    · exact ⟨e', hparts.stopping w e' hw he' hs, .inl hs⟩
  · show (ended (Pool.autoscale m W.pool).outbox).Sublist _
    rw [hended, houtbox]
    exact hvs.trans hws
  · refine hparts.kept w e (fun hw => hs ?_) he
    obtain ⟨e', he', hst⟩ := hidle hw
    rw [he] at he'
    cases he'
    exact hst
  · have he' : e ∈ (Pool.autoscale m W.pool).outbox := he
    rw [ho, houtbox, List.nil_append] at he'
    exact homits e he' t
  · exact (h.step (.alarm m now .autoscaleTick hm ha)).unmissed he hs

/-- a pool that has a worker only when it is needed, with room for one task -/
def onDemand : Config := { minWorkers := 0, maxWorkers := 1, maxQueueSize := 1 }

/-- a task waits, and two ticks are due -/
def pressed : Workshop :=
  let opened := (new onDemand).deliver calmMoment 0 (.call 0 .start)
  { opened.deliver calmMoment 0 (.call 1 (.submit ⟨7⟩ .cacheCleanup .null {})) with
    rung := [.autoscaleTick, .autoscaleTick] }

/-- a worker was started -/
def grown : Workshop :=
  let q := pressed.pool.hire calmMoment
  { pressed with
    pool := { q with outbox := [] }
    bench := stage 0 pressed.bench q.outbox
    timers := wind pressed.timers q.outbox
    rung := [.autoscaleTick]
    history := pressed.history ++ q.outbox }

/-- for which there is nothing left to do -/
def oversized : Workshop :=
  let cancelled := grown.deliver calmMoment 0 (.call 2 (.cancel ⟨7⟩))
  ((cancelled.setBench 1 announced).setBench 1 (announced.pop [])).deliver calmMoment 0
    (.report 1 .ready)

theorem reachable_pressed : Reachable onDemand pressed := by
  have hopened := Reachable.new.step
    (.call calmMoment 0 0 .start (admits_calmMoment (new onDemand)) trivial)
  have hqueued := hopened.step (.call calmMoment 0 1 (.submit ⟨7⟩ .cacheCleanup .null {})
    (admits_calmMoment _) List.not_mem_nil)
  have hrung := hqueued.step (.ring ⟨0, .autoscaleTick, true⟩ (List.mem_singleton_self _))
  exact hrung.step (.ring ⟨0, .autoscaleTick, true⟩ (List.mem_singleton_self _))

/-- that is what the first tick does -/
theorem deliver_pressed : { pressed with rung := [.autoscaleTick] }.deliver calmMoment 0
    (.ring .autoscaleTick) = grown := by
  have hup : (pressed.pool.gauge.plan onDemand ⟨0, 0⟩).decision = .up 1 := by decide +kernel
  have hkeep : (pressed.pool.gauge.plan onDemand ⟨0, 0⟩).evict = [] := by decide +kernel
  have htick : pressed.pool.handle calmMoment (.ring .autoscaleTick)
      = pressed.pool.hire calmMoment := by
    show Pool.autoscale calmMoment pressed.pool = _
    rw [Pool.autoscale_of_running rfl]
    show List.foldl _ (Pool.carryOut _ _ (pressed.pool.gauge.plan onDemand ⟨0, 0⟩).decision)
      (pressed.pool.gauge.plan onDemand ⟨0, 0⟩).evict = _
    rw [hup, hkeep]
    rfl
  unfold deliver grown
  simp only [htick]

theorem reachable_oversized : Reachable onDemand oversized := by
  have hgrown : Reachable onDemand grown := by
    rw [← deliver_pressed]
    exact reachable_pressed.step
      (.alarm calmMoment 0 .autoscaleTick (admits_calmMoment _) (List.mem_cons_self ..))
  have hcancelled := hgrown.step
    (.call calmMoment 0 2 (.cancel ⟨7⟩) (admits_calmMoment _) trivial)
  have hturned := hcancelled.step
    (.turn 1 (.new 1 0) announced rfl (.step 0 0 (announced.worker, [.ready]) rfl))
  exact hturned.step (.report calmMoment 0 1 announced .ready [] (admits_calmMoment _) rfl rfl)

/-- the next tick asks the worker to end -/
theorem undisturbed_oversized : Reachable onDemand oversized ∧
    .autoscaleTick ∈ oversized.rung ∧
    Undisturbed calmMoment oversized ({ oversized with rung := [] }.deliver calmMoment 0
      (.ring .autoscaleTick)) ∧
    oversized.pool.leaving ⟨0, 0⟩ = [1] ∧
    ended (oversized.pool.handle calmMoment (.ring .autoscaleTick)).outbox = [1] :=
  ⟨reachable_oversized, List.mem_singleton_self _,
    reachable_oversized.undisturbed (admits_calmMoment _) (List.mem_singleton_self _) 0,
    by decide +kernel, by decide +kernel⟩

end Workshop

end TaskPool
