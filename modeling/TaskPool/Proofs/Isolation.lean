import TaskPool.Proofs.Lasting
import TaskPool.Proofs.Restart
import TaskPool.Proofs.Winding

/-!
# Late and foreign messages

Nothing that is said of a task once it is over, or of an attempt once it is past, does it or any
other task any harm.

* `Chore.hand`          after the impact, only queued tasks are handed out, to idle workers, and no
                        attempt is timed
* `InStep.untold`       while a task is at a worker, or over, nobody else is told to run it
* `Dated`               a timer for an attempt bears the number of that attempt
* `InStep.spares`       a report resolves and fails no task but one that runs at its sender
* `InStep.departed`     a worker that has no entry any more is not listened to
* `Aloof`, `Late`       what comes too late for a task leaves every task where it is
* `Reachable.isolated`  all of that, in every reachable state

Why the guards suffice although they differ: a report is of the latest attempt as long as its sender
has an entry that is not stopping; the number tells a timeout of an earlier attempt; and identifiers
of tasks and workers are not used again.
-/

namespace TaskPool

open Function Relation

/-! ## what is handed out and timed -/

namespace Effect

/-- the attempt of the task that a timer is set for -/
def times? (id : TaskId) : Effect → Option UInt32
  | .arm _ _ (.taskTimeout t attempt) => if t = id then some attempt else none
  | _ => none

/-- it hands nothing out and times no attempt -/
def Bare : Effect → Prop
  | .tell _ (.task _ _ _) | .arm _ _ (.taskTimeout _ _) => False
  | _ => True

theorem Bare.times? {e : Effect} (h : e.Bare) (id : TaskId) : e.times? id = none := by
  cases e with
  | arm timer delay alarm =>
    cases alarm with
    | taskTimeout => cases h
    | _ => rfl
  | _ => rfl

theorem Bare.told? {e : Effect} (h : e.Bare) (id : TaskId) : e.told? id = none := by
  cases e with
  | tell w command =>
    cases command with
    | task => cases h
    | _ => rfl
  | _ => rfl

end Effect

theorem bare_one {e : Effect} (h : e.Bare) : ∀ x ∈ [e], x.Bare := by
  intro x hx
  rw [List.mem_singleton.mp hx]
  exact h

theorem told_bare {es : List Effect} (h : ∀ e ∈ es, e.Bare) (id : TaskId) : told id es = [] :=
  List.filterMap_eq_nil_iff.mpr fun e he => (h e he).told? id

theorem bare_consequences (cs : List Consequence) : ∀ e ∈ cs.map Consequence.effect, e.Bare := by
  intro e he
  obtain ⟨c, _, rfl⟩ := List.mem_map.mp he
  cases c <;> trivial

theorem bare_replies {es : List Effect} (h : ∀ e ∈ es, ∃ c, e = Effect.reply c .done) :
    ∀ e ∈ es, e.Bare := by
  intro e he
  obtain ⟨c, rfl⟩ := h e he
  trivial

theorem bare_disarms (o : Option TimerId) : ∀ e ∈ o.toList.map Effect.disarm, e.Bare := by
  intro e he
  obtain ⟨i, _, rfl⟩ := List.mem_map.mp he
  trivial

theorem bare_append {es fs : List Effect} (he : ∀ e ∈ es, e.Bare) (hf : ∀ e ∈ fs, e.Bare) :
    ∀ e ∈ es ++ fs, e.Bare :=
  fun e h => (List.mem_append.mp h).elim (he e) (hf e)

namespace Pool

variable {m : Moment} {msg : Message}

theorem bare_farewell (e : Entry) : ∀ x ∈ farewell e, x.Bare :=
  bare_append (bare_disarms _) (bare_one trivial)

/-- no attempt is timed, and only what was queued is handed out -/
structure Hands (p q : Pool) (es : List Effect) : Prop where
  outbox : q.outbox = p.outbox ++ es
  untimed : ∀ e ∈ es, ∀ id, e.times? id = none
  queue : q.queue.tasks ⊆ p.queue.tasks
  queued : ∀ id, id ∉ p.queue.tasks → told id es = []

/-- an idle worker is handed a task that was queued, or nothing is handed out and no attempt timed -/
inductive Hand (p q : Pool) : List Effect → Prop where
  | bare (es : List Effect) (ho : q.outbox = p.outbox ++ es) (hb : ∀ e ∈ es, e.Bare)
      (hq : q.queue.tasks ⊆ p.queue.tasks) : Hand p q es
  | task (w : WorkerId) (e : Entry) (id : TaskId) (kind : Kind) (payload : Json)
      (he : p.roster.find? w = some e) (hs : e.status = .idle)
      (ho : q.outbox = p.outbox ++ [.tell w (.task id kind payload)])
      (hq : p.queue.tasks.Perm (id :: q.queue.tasks)) : Hand p q [.tell w (.task id kind payload)]

/-- where the queue is left alone -/
theorem Hand.unqueued {p q : Pool} {es : List Effect} (ho : q.outbox = p.outbox ++ es)
    (hb : ∀ e ∈ es, e.Bare) (hq : q.queue = p.queue) : Hand p q es :=
  .bare es ho hb (by rw [hq]; exact List.Subset.refl _)

theorem Hand.silent {p q : Pool} (ho : q.outbox = p.outbox) (hq : q.queue = p.queue) :
    Hand p q [] :=
  .unqueued (ho.trans (List.append_nil _).symm) (fun _ h => by cases h) hq

theorem Hand.hands {p q : Pool} {es : List Effect} (h : Hand p q es) : Hands p q es := by
  cases h with
  | bare _ ho hb hq =>
    exact ⟨ho, fun e he => (hb e he).times?, hq, fun id _ => told_bare hb id⟩
  | task w e t kind payload he hs ho hq =>
    refine ⟨ho, fun x hx id => ?_, fun x hx => hq.mem_iff.mpr (List.mem_cons_of_mem _ hx),
      fun id hid => ?_⟩
    · rw [List.mem_singleton.mp hx]
      rfl
    · have hne : t ≠ id := fun ht => hid (ht ▸ hq.mem_iff.mpr (List.mem_cons_self ..))
      exact List.filterMap_cons_none (if_neg hne)

theorem Hands.trans {p q r : Pool} {es fs : List Effect} (h1 : Hands p q es) (h2 : Hands q r fs) :
    Hands p r (es ++ fs) := by
  refine ⟨?_, fun e he => ?_, fun x hx => h1.queue (h2.queue hx), fun id hid => ?_⟩
  · rw [h2.outbox, h1.outbox, List.append_assoc]
  · rcases List.mem_append.mp he with he | he
    · exact h1.untimed e he
    · exact h2.untimed e he
  · rw [told_append, h1.queued id hid, h2.queued id fun hx => hid (h1.queue hx)]
    rfl

theorem tasks_popFor {q rest : Queue} {affinity : Option KindSet} {t : Ticket}
    (h : q.popFor affinity = some (t, rest)) : q.tasks.Perm (t.task :: rest.tasks) :=
  (Queue.popFor_perm h).map Ticket.task

theorem bare_retirement (p : Pool) (w : WorkerId) : ∀ e ∈ retirement m p w, e.Bare := by
  refine bare_append ?_ ?_ <;> split
  · exact bare_one trivial
  · exact fun e he => by cases he
  · exact bare_one trivial
  · exact fun e he => by cases he

theorem Chore.hand {p q : Pool} (h : Chore m msg p q) : ∃ es, Hand p q es := by
  cases h with
  | reply | ask => exact ⟨_, .unqueued rfl (bare_one trivial) rfl⟩
  | wake caller =>
    obtain ⟨stops, replies, hw, hr⟩ := wake_eq p caller
    rw [hw]
    exact ⟨replies, .unqueued rfl (bare_replies hr) rfl⟩
  | promise | note | await | «open» => exact ⟨[], .silent rfl rfl⟩
  | ticks =>
    unfold armTicks
    split
    · exact ⟨_, .unqueued rfl (bare_one trivial) rfl⟩
    · exact ⟨[], .silent rfl rfl⟩
  | dispatch w e affinity t rest task he hs hq =>
    exact ⟨_, .task w e t.task t.kind task.terms.payload he hs rfl (tasks_popFor hq)⟩
  | unknown affinity t rest hq =>
    refine ⟨_, .bare _ rfl (bare_one trivial) fun x hx => ?_⟩
    exact (tasks_popFor hq).mem_iff.mpr (List.mem_cons_of_mem _ hx)
  | bounce w e affinity t rest he hs hq =>
    refine ⟨_, .bare _ rfl (bare_one trivial) fun x hx => ?_⟩
    exact (tasks_popFor hq).mem_iff.mpr (((Queue.push_perm rest t).map Ticket.task).mem_iff.mp hx)
  | retire waiter w e he hs =>
    rw [stopWorker_of_live waiter he hs]
    exact ⟨_, .unqueued rfl (bare_retirement p w) rfl⟩
  | remove w e =>
    obtain ⟨stops, replies, hd, hr⟩ := dispose_eq (p.dropEntry w) e
    rw [hd]
    exact ⟨_, .unqueued rfl (bare_append (bare_farewell e) (bare_replies hr)) rfl⟩
  | cancel id =>
    refine ⟨_, .bare _ rfl (bare_consequences (p.ledger.cancel id).2.2) ?_⟩
    exact ((Queue.remove_sublist p.queue id).map Ticket.task).subset
  | expire id attempt worker ledger consequences =>
    exact ⟨_, .unqueued rfl (bare_consequences consequences) rfl⟩
  | shut =>
    exact ⟨_, .bare _ (List.append_assoc ..) (bare_append (bare_disarms _) (bare_consequences _))
      (List.nil_subset _)⟩
  | hire hr =>
    by_cases ha : m.attached = true
    · rw [hire_of_attached ha]
      exact ⟨_, .unqueued rfl (bare_one trivial) rfl⟩
    · rw [hire_of_detached (by simpa using ha)]
      exact ⟨[], .silent rfl rfl⟩

theorem Chores.hands {p q : Pool} (h : Chores m msg p q) : ∃ es, Hands p q es := by
  induction h with
  | refl => exact ⟨[], (Hand.silent rfl rfl).hands⟩
  | tail _ h ih =>
    obtain ⟨es, hes⟩ := ih
    obtain ⟨fs, hfs⟩ := h.hand
    exact ⟨es ++ fs, hes.trans hfs.hands⟩

/-- what a message does at once times no attempt, unless a worker reports that it has begun one -/
inductive Timing (m : Moment) (p : Pool) : Message → List Effect → Prop where
  | bare (msg : Message) (es : List Effect) (h : ∀ e ∈ es, e.Bare) : Timing m p msg es
  | busy (w : WorkerId) (id : TaskId) (t : Task) (timer : TimerId) (ds : List Effect)
      (ht : p.ledger.find? id = some t) (hs : t.status = .queued) (h : ∀ e ∈ ds, e.Bare) :
      Timing m p (.report w (.busy id))
        (.arm timer t.terms.timeout (.taskTimeout id (t.attempt + 1)) :: ds)

theorem Timing.startAttempt {p q : Pool} {w : WorkerId} {id : TaskId} (hl : q.ledger = p.ledger) :
    ∃ es, (startAttempt m q id w).outbox = q.outbox ++ es ∧
      Timing m p (.report w (.busy id)) es := by
  have h := startAttempt_cases (m := m) q id w
  generalize Pool.startAttempt m q id w = r at h
  cases h with
  | skipped | untimed =>
    exact ⟨[], (List.append_nil _).symm, .bare _ _ fun _ h => by cases h⟩
  | timed t ht hs => exact ⟨_, rfl, .busy w id t _ _ (hl ▸ ht) hs (bare_consequences _)⟩

theorem bare_failTask (p : Pool) (id : TaskId) (cause : FailureCause) :
    ∃ es, (failTask m p id cause).outbox = p.outbox ++ es ∧ ∀ e ∈ es, e.Bare := by
  have h := failTask_cases (m := m) p id cause
  generalize Pool.failTask m p id cause = q at h
  cases h with
  | skipped => exact ⟨[], (List.append_nil _).symm, fun _ h => by cases h⟩
  | exhausted | stranded => exact ⟨_, rfl, bare_consequences _⟩
  | retried => exact ⟨_, rfl, bare_append (bare_consequences _) (bare_one trivial)⟩

theorem bare_dispose (p : Pool) (e : Entry) :
    ∃ es, (p.dispose e).outbox = p.outbox ++ es ∧ ∀ x ∈ es, x.Bare := by
  obtain ⟨stops, replies, hd, hr⟩ := dispose_eq p e
  rw [hd]
  exact ⟨_, rfl, bare_append (bare_farewell e) (bare_replies hr)⟩

theorem Impact.timing {p q : Pool} (h : Impact m p msg q) :
    ∃ es, q.outbox = p.outbox ++ es ∧ Timing m p msg es := by
  have hsilent {msg : Message} : ∃ es, p.outbox = p.outbox ++ es ∧ Timing m p msg es :=
    ⟨[], (List.append_nil _).symm, .bare _ _ fun _ h => by cases h⟩
  cases h with
  | none | accept | ready | idle | retry => exact hsilent
  | busy w t => exact Timing.startAttempt rfl
  | busyLate w t => exact Timing.startAttempt rfl
  | result w t v ledger cs => exact ⟨_, rfl, .bare _ _ (bare_consequences cs)⟩
  | error w t detail =>
    obtain ⟨es, ho, hb⟩ := bare_failTask (m := m)
      (p.updateEntry w fun e => { e with failed := e.failed + 1 }) t (.handler detail)
    exact ⟨es, ho, .bare _ _ hb⟩
  | crash w event detail e =>
    obtain ⟨es, ho, hb⟩ := bare_dispose (p.dropEntry w) e
    exact ⟨es, ho, .bare _ _ hb⟩
  | crashBusy w event detail e t =>
    obtain ⟨es, ho, hb⟩ := bare_dispose (p.dropEntry w) e
    obtain ⟨fs, ho', hb'⟩ := bare_failTask (m := m) ((p.dropEntry w).dispose e) t (.crash w detail)
    refine ⟨es ++ fs, ?_, .bare _ _ (bare_append hb hb')⟩
    rw [ho', ho, List.append_assoc]
    rfl

/-- what a message does at once queues no task but a new one or one that is to be tried again -/
theorem Impact.unqueued {p q : Pool} {id : TaskId} (h : Impact m p msg q)
    (hn : id ∉ p.queue.tasks) (hnew : id ∉ TaskPool.accepted (p.receipt msg))
    (hr : ∀ o, p.ledger.sight id ≠ some (.retrying, o)) : id ∉ q.queue.tasks := by
  have hpush {t : Ticket} (ht : t.task ≠ id) : id ∉ (p.queue.push t).tasks := by
    intro hx
    rcases List.mem_cons.mp (((Queue.push_perm p.queue t).map Ticket.task).mem_iff.mp hx) with hx | hx
    · exact ht hx.symm
    · exact hn hx
  cases h with
  | accept caller x kind payload options hf =>
    rw [accepted_receipt hf] at hnew
    exact hpush fun hx => hnew (List.mem_singleton.mpr hx.symm)
  | retry t ticket ledger hrun hreset =>
    obtain ⟨task, ht, hs, rfl, _⟩ := Ledger.resetForRetry_eq_some hreset
    refine hpush fun hx => hr task.worker ?_
    have hid : t = id := (Ledger.id_of_find? ht).symm.trans hx
    rw [← hid, Ledger.sight_of_find? ht, hs]
  | busy w t | busyLate w t =>
    rw [startAttempt_queue]
    exact hn
  | error w t detail =>
    rw [failTask_queue]
    exact hn
  | crash w event detail e =>
    rw [dispose_queue]
    exact hn
  | crashBusy w event detail e t =>
    rw [failTask_queue, dispose_queue]
    exact hn
  | _ => exact hn

end Pool

namespace Workshop

section
variable {id : TaskId} {W V : Workshop} {m : Moment} {now : Nat} {msg : Message}

/-- a message is handled by the pool of `W`: its impact, its chores, the receipt -/
theorem deliver_divides (m : Moment) (now : Nat) (msg : Message) (hsound : W.pool.roster.Sound)
    (hpool : V.pool = W.pool) (hhistory : V.history = W.history) :
    ∃ p q, Pool.Impact m W.pool msg p ∧ Pool.Chores m msg p q ∧
      (V.deliver m now msg).history = (W.history ++ q.outbox) ++ W.pool.receipt msg := by
  obtain ⟨p, q, hi, hc, hq⟩ := Pool.handle_chores (m := m) hsound msg
  refine ⟨p, q, hi, hc, ?_⟩
  show V.history ++ (V.pool.handle m msg).outbox = _
  rw [hpool, hq, hhistory, List.append_assoc]
  rfl

/-! ## reports of an attempt that is past -/

/-- **while a task is at a worker, or over, nobody else is told to run it** -/
theorem InStep.untold (hin : W.InStep) (hs : Step W V) (hid : id ∈ accepted W.history)
    (hq : W.pool.ledger.sight id ≠ some (.queued, none))
    (hr : ∀ o, W.pool.ledger.sight id ≠ some (.retrying, o)) :
    told id V.history = told id W.history := by
  rcases hin.handles hs id with ⟨_, hhist, _⟩ | ⟨heard, V', m, now, msg, rfl, hh⟩
  · rw [hhist]
  · have hnew : id ∉ accepted (W.pool.receipt msg) := fun hx => hh.fresh id hx hid
    obtain ⟨p, q, hi, hc, hhist⟩ := deliver_divides m now msg hin.tuned.sound hh.pool hh.history
    have hwaits : id ∉ W.pool.queue.tasks := fun hx => hq ((hin.tuned.harmony.waits id).mp hx)
    have hfirst : told id p.outbox = [] := by
      obtain ⟨es, ho, hcourse⟩ := hh.follows hnew p hi
      rw [ho, show W.pool.outbox = [] from hin.tuned.outbox, List.nil_append]
      generalize told id es = us at hcourse
      generalize outcomes id es = vs at hcourse
      cases hcourse with
      | handed t w ht hst hw =>
        rw [Ledger.sight_of_find? ht, hst, hw] at hq
        exact absurd rfl hq
      | _ => rfl
    obtain ⟨es, hes⟩ := hc.hands
    rw [hhist, told_append, told_append, hes.outbox, told_append, hfirst,
      hes.queued id (hi.unqueued hwaits hnew hr), told_eq_nil (Pool.omits_receipt id W.pool msg)]
    simp

/-- the worker has yet to report on the task, or the news of its crash over it is on its way -/
def Outstanding (W : Workshop) (t : TaskId) (w : WorkerId) : Prop :=
  ∃ b, W.bench w = some b ∧ (b.Names t ∨
    ∃ event ∈ b.outgoing, ∃ detail entry, Pool.crashDetail? event = some detail ∧
      W.pool.roster.find? w = some entry ∧ entry.task = some t)

theorem InStep.sight_of_outstanding (hin : W.InStep) {w : WorkerId} (h : W.Outstanding id w) :
    id ∈ accepted W.history ∧ (W.pool.ledger.sight id = none ∨
      W.pool.ledger.sight id = some (.queued, some w) ∨
      W.pool.ledger.sight id = some (.running, some w)) := by
  obtain ⟨b, hb, hn | ⟨event, hm, detail, entry, hd, he, ht⟩⟩ := h
  · exact hin.tuned.harmony.sight_of_names hb hn
  · obtain ⟨b', hb', hfit⟩ := hin.bench_of_find? he
    rw [hb] at hb'
    cases hb'
    have hnews : event ∈ b.news := by
      refine List.mem_filter.mpr ⟨hm, ?_⟩
      cases event with
      | metrics => cases hd
      | _ => rfl
    rw [ht] at hfit
    generalize entry.status = st at hfit
    cases hfit with
    | pending _ _ hk _ hsight => exact ⟨hk, hsight.imp_right .inl⟩
    | acked _ _ hk _ hsight => exact ⟨hk, hsight.imp_right .inr⟩
    | spent _ _ _ hsp =>
      rw [hsp.news, List.mem_singleton] at hnews
      subst hnews
      cases hd

/-! ## timeouts of an attempt that is past -/

/-- every timer for an attempt bears the number of workers that had been told to run the task -/
def Dated (id : TaskId) (es : List Effect) : Prop :=
  ∀ xs e ys attempt, es = xs ++ e :: ys → e.times? id = some attempt →
    0 < (told id xs).length ∧ attempt = UInt32.ofNat (told id xs).length

theorem Dated.append {es fs : List Effect} (h : Dated id es)
    (hf : ∀ xs e ys attempt, fs = xs ++ e :: ys → e.times? id = some attempt →
      0 < (told id (es ++ xs)).length ∧ attempt = UInt32.ofNat (told id (es ++ xs)).length) :
    Dated id (es ++ fs) := by
  intro xs e ys attempt heq ht
  rcases List.append_eq_append_iff.mp heq with ⟨zs, rfl, hfs⟩ | ⟨zs, hes, hzs⟩
  · exact hf zs e ys attempt hfs ht
  · cases zs with
    | nil =>
      have h0 := hf [] e ys attempt hzs.symm ht
      rw [List.append_nil] at hes
      rw [List.append_nil, hes] at h0
      exact h0
    | cons z zs =>
      obtain ⟨rfl, _⟩ := List.cons.inj hzs
      exact h xs e zs attempt hes ht

theorem Dated.untimed {es fs : List Effect} (h : Dated id es)
    (hf : ∀ e ∈ fs, e.times? id = none) : Dated id (es ++ fs) := by
  refine h.append fun xs e ys attempt heq ht => ?_
  have hnone := hf e (heq ▸ List.mem_append_right _ (List.mem_cons_self ..))
  rw [hnone] at ht
  cases ht

theorem Dated.deliver (h : Dated id W.history) (hin : W.InStep) (hpool : V.pool = W.pool)
    (hhistory : V.history = W.history)
    (hbusy : ∀ w t, msg = .report w (.busy id) → W.pool.ledger.find? id = some t →
      t.status = .queued → 0 < (told id W.history).length ∧
        t.attempt + 1 = UInt32.ofNat (told id W.history).length) :
    Dated id (V.deliver m now msg).history := by
  obtain ⟨p, q, hi, hc, hhist⟩ := deliver_divides m now msg hin.tuned.sound hpool hhistory
  obtain ⟨es, ho, htime⟩ := hi.timing
  obtain ⟨fs, hfs⟩ := hc.hands
  have hout : q.outbox = es ++ fs := by
    rw [hfs.outbox, ho, show W.pool.outbox = [] from hin.tuned.outbox, List.nil_append]
  have hfirst : Dated id (W.history ++ es) := by
    cases htime with
    | bare _ _ hb => exact h.untimed fun e he => (hb e he).times? id
    | busy w x t timer ds hf hs hb =>
      refine h.append fun xs e ys attempt heq ht => ?_
      cases xs with
      | nil =>
        obtain ⟨rfl, _⟩ := List.cons.inj heq
        obtain ⟨rfl, hat⟩ := Option.ite_none_right_eq_some.mp ht
        rw [List.append_nil, ← Option.some.inj hat]
        exact hbusy w t rfl hf hs
      | cons x xs =>
        obtain ⟨_, hds⟩ := List.cons.inj heq
        have hm : e ∈ ds := hds ▸ List.mem_append_right _ (List.mem_cons_self ..)
        rw [(hb e hm).times? id] at ht
        cases ht
  rw [hhist, hout, ← List.append_assoc]
  refine (hfirst.untimed fun e he => hfs.untimed e he id).untimed fun e he => ?_
  obtain ⟨caller, x, rfl⟩ := Pool.mem_receipt he
  rfl

theorem Reachable.dated {c : Config} (h : Reachable c W) (id : TaskId) : Dated id W.history := by
  induction h with
  | new =>
    intro xs e ys attempt heq
    exact absurd heq.symm (List.append_ne_nil_of_right_ne_nil _ (List.cons_ne_nil _ _))
  | @step W V h hs ih =>
    have hin := h.inStep
    cases hs with
    | call => exact ih.deliver hin rfl rfl fun _ _ hmsg => by cases hmsg
    | alarm => exact ih.deliver hin rfl rfl fun _ _ hmsg => by cases hmsg
    | report m now w b e rest hm hb ho =>
      refine ih.deliver hin rfl rfl fun v t hmsg ht hs => ?_
      cases hmsg
      have hw : t.worker = some w := by
        have hsight := hin.sight_of_busy hb ho
        rw [Ledger.sight_of_find? ht, hs] at hsight
        exact (Prod.mk.inj (Option.some.inj (hsight.resolve_left fun h => by cases h))).2
      have hn := h.numbered ht
      have hlen := (hn.posted w (by rw [hs]; exact Status.noConfusion) hw).1
      have hattempt := hn.attempt
      rw [hs, if_neg Status.noConfusion] at hattempt
      refine ⟨by omega, ?_⟩
      rw [hattempt, hlen]
      refine UInt32.toNat_inj.mp ?_
      rw [UInt32.toNat_add, UInt32.toNat_ofNat']
      rfl
    | ring | turn | letGo => exact ih

/-- **a timer that was set for an attempt does nothing once another attempt was handed out** -/
theorem Reachable.stale_timeout {c : Config} (h : Reachable c W) {es fs : List Effect}
    {timer : TimerId} {delay : Duration} {attempt : UInt32}
    (hh : W.history = es ++ .arm timer delay (.taskTimeout id attempt) :: fs)
    (hagain : told id fs ≠ []) (m : Moment) :
    W.pool.handle m (.ring (.taskTimeout id attempt)) = W.pool := by
  show Pool.timeOut m W.pool id attempt = W.pool
  unfold Pool.timeOut
  cases hto : W.pool.ledger.timeOut id attempt with
  | none => rfl
  | some r =>
    obtain ⟨t, ht, hs, hat, _⟩ := Ledger.timeOut_eq_some hto
    obtain ⟨hnow, hsize⟩ := (h.numbered ht).attempt_eq hs
    obtain ⟨hpos, hthen⟩ := h.dated id es _ fs attempt hh (if_pos rfl)
    have hlen : (told id W.history).length = (told id es).length + (told id fs).length := by
      rw [hh, ← List.singleton_append, told_append, told_append, List.length_append,
        List.length_append]
      simp [told, Effect.told?]
    have hmore := List.length_pos_iff.mpr hagain
    exact absurd ((hthen.symm.trans hat.symm).trans hnow) (ofNat_ne hpos (by omega) hsize)

end

end Workshop

/-! ## what a report does to other tasks -/

/-- what a failed attempt leaves behind: the task is to be tried again, its retries, its error -/
def Task.marks (t : Task) : Bool × UInt32 × Option String :=
  (t.status == .retrying, t.retries, t.error)

def Ledger.marks (l : Ledger) (x : TaskId) : Option (Bool × UInt32 × Option String) :=
  (l.find? x).map Task.marks

theorem Ledger.marks_modify (l : Ledger) {f : Task → Task} (hf : ∀ t, (f t).id = t.id)
    (id x : TaskId) (hm : x = id → ∀ t, l.find? id = some t → (f t).marks = t.marks) :
    (l.modify id f).marks x = l.marks x := by
  unfold marks
  rw [find?_modify l f hf]
  split
  · rename_i hx
    rw [hx]
    cases ht : l.find? id with
    | none => rfl
    | some t => exact congrArg some (hm hx t ht)
  · rfl

namespace Pool

variable {m : Moment} {msg : Message} {x : TaskId}

/-- the task is neither resolved nor failed -/
def Spares (x : TaskId) (p q : Pool) : Prop :=
  ∃ es, q.outbox = p.outbox ++ es ∧ outcomes x es = [] ∧ q.ledger.marks x = p.ledger.marks x

theorem Spares.trans {p q r : Pool} (h1 : Spares x p q) (h2 : Spares x q r) : Spares x p r := by
  obtain ⟨es, ho, hn, hl⟩ := h1
  obtain ⟨fs, ho', hn', hl'⟩ := h2
  refine ⟨es ++ fs, ?_, ?_, hl'.trans hl⟩
  · rw [ho', ho, List.append_assoc]
  · rw [outcomes_append, hn, hn']
    rfl

theorem Spares.aside {p q : Pool} (es : List Effect) (ho : q.outbox = p.outbox ++ es)
    (hs : ∀ e ∈ es, e.Omits x) (hl : q.ledger = p.ledger) : Spares x p q :=
  ⟨es, ho, outcomes_eq_nil hs, by rw [hl]⟩

theorem Spares.silent {p q : Pool} (ho : q.outbox = p.outbox) (hl : q.ledger = p.ledger) :
    Spares x p q :=
  .aside [] (ho.trans (List.append_nil _).symm) (fun _ h => by cases h) hl

theorem Spares.one {p q : Pool} (e : Effect) (ho : q.outbox = p.outbox ++ [e])
    (he : e.outcome? x = none) (hl : q.ledger.marks x = p.ledger.marks x) : Spares x p q :=
  ⟨[e], ho, List.filterMap_cons_none he, hl⟩

theorem Spares.dispose (p : Pool) (e : Entry) : Spares x p (p.dispose e) := by
  obtain ⟨stops, replies, hd, hr⟩ := dispose_eq p e
  rw [hd]
  exact .aside _ rfl (omits_farewell x e hr) rfl

theorem Spares.hire (p : Pool) : Spares x p (p.hire m) := by
  by_cases ha : m.attached = true
  · rw [hire_of_attached ha]
    exact .one _ rfl rfl rfl
  · rw [hire_of_detached (by simpa using ha)]
    exact .silent rfl rfl

/-- another task is taken out -/
theorem Spares.settle {p q : Pool} {id : TaskId} {t : Task} {o : Outcome}
    (ht : p.ledger.find? id = some t) (hx : x ≠ id)
    (ho : q.outbox = p.outbox ++ (t.resolve o).map Consequence.effect)
    (hl : q.ledger = p.ledger.erase id) : Spares x p q := by
  refine ⟨_, ho, ?_, ?_⟩
  · rw [resolve_effects, outcomes_append, outcomes_eq_nil (omits_disarm x t), List.nil_append]
    exact List.filterMap_cons_none
      (if_neg fun h => hx (h.symm.trans (Ledger.id_of_find? ht)))
  · rw [hl]
    unfold Ledger.marks
    rw [p.ledger.find?_erase_of_ne hx]

theorem Spares.failTask {p : Pool} {id : TaskId} (cause : FailureCause)
    (hx : x ≠ id ∨ p.ledger.sight id = none) : Spares x p (failTask m p id cause) := by
  rcases hx with hx | hn
  · have h := failTask_cases (m := m) p id cause
    generalize Pool.failTask m p id cause = q at h
    cases h with
    | skipped => exact .silent rfl rfl
    | exhausted t ht => exact .settle ht hx rfl rfl
    | stranded t =>
      refine ⟨_, rfl, outcomes_eq_nil (omits_disarm x t), ?_⟩
      exact p.ledger.marks_modify (f := retryLater cause m.now none) (fun _ => rfl) id x
        fun h => absurd h hx
    | retried t =>
      refine ⟨_, rfl, ?_, ?_⟩
      · rw [outcomes_append, outcomes_eq_nil (omits_disarm x t)]
        rfl
      · exact p.ledger.marks_modify (f := retryLater cause m.now (some p.nextTimer)) (fun _ => rfl)
          id x fun h => absurd h hx
  · rw [failTask_unknown cause hn]
    exact .silent rfl rfl

theorem Spares.startAttempt (p : Pool) (id : TaskId) (w : WorkerId) :
    Spares x p (startAttempt m p id w) := by
  have hmarks {t : Task} (hs : t.status = .queued) (timer : Option TimerId) :
      (begun w m.now timer t).marks = t.marks := by
    unfold Task.marks
    rw [hs]
    rfl
  have h := startAttempt_cases (m := m) p id w
  generalize Pool.startAttempt m p id w = q at h
  cases h with
  | skipped => exact .silent rfl rfl
  | untimed t ht hs =>
    refine ⟨[], (List.append_nil _).symm, rfl, ?_⟩
    refine p.ledger.marks_modify (f := fun t => begun w m.now t.timer t) (fun _ => rfl) id x
      fun _ t' ht' => ?_
    rw [ht] at ht'
    cases ht'
    exact hmarks hs _
  | timed t ht hs =>
    refine ⟨_, rfl, ?_, ?_⟩
    · show outcomes x ([_] ++ _) = []
      rw [outcomes_append, outcomes_eq_nil (omits_disarm x t)]
      rfl
    · refine p.ledger.marks_modify (f := begun w m.now (some p.nextTimer)) (fun _ => rfl) id x
        fun _ t' ht' => ?_
      rw [ht] at ht'
      cases ht'
      exact hmarks hs _

/-- what is done besides, when a worker reports, resolves and fails no task -/
theorem Chore.spares {p q : Pool} {w : WorkerId} {e : Event} (h : Chore m (.report w e) p q) :
    Spares x p q := by
  cases h with
  | reply _ _ _ hm | «open» hm | shut hm | cancel _ hm => cases hm.choose_spec
  | wake _ hm | promise _ _ hm | await _ _ hm => cases hm
  | expire _ _ _ _ _ _ hm => cases hm
  | ask => exact .one _ rfl rfl rfl
  | note => exact .silent rfl rfl
  | ticks =>
    unfold armTicks
    split
    · exact .one _ rfl rfl rfl
    · exact .silent rfl rfl
  | dispatch v e affinity t rest task =>
    refine .one _ rfl rfl ?_
    exact p.ledger.marks_modify (f := fun t => { t with worker := some v }) (fun _ => rfl) t.task x
      fun _ _ _ => rfl
  | unknown | bounce => exact .one _ rfl rfl rfl
  | retire waiter v e he hs =>
    rw [stopWorker_of_live waiter he hs]
    refine ⟨_, rfl, ?_, rfl⟩
    unfold retirement
    rw [outcomes_append]
    split <;> split <;> rfl
  | remove v e => exact Spares.dispose (p.dropEntry v) e
  | hire => exact .hire p

theorem Chores.spares {p q : Pool} {w : WorkerId} {e : Event} (h : Chores m (.report w e) p q) :
    Spares x p q := by
  induction h with
  | refl => exact .silent rfl rfl
  | tail _ h ih => exact ih.trans h.spares

end Pool

namespace Workshop

section
variable {W : Workshop} {w : WorkerId} {b : Bench} {e : Event} {rest : List Event}
  (hin : W.InStep)
include hin

theorem InStep.sight_of_result {t : TaskId} {v : Json} (hb : W.bench w = some b)
    (ho : b.outgoing = .result t v :: rest) :
    W.pool.ledger.sight t = none ∨ W.pool.ledger.sight t = some (.running, some w) := by
  cases hin.tuned.harmony.hears hb ho rfl with
  | stale _ _ hst => exact .inl (hst t rfl)
  | result _ _ _ _ _ _ ht => exact ht

/-- **a report resolves and fails no task but one that runs at its sender** -/
theorem InStep.spares (hb : W.bench w = some b) (ho : b.outgoing = e :: rest) {x : TaskId}
    (hx : W.pool.ledger.sight x ≠ some (.running, some w)) (m : Moment) :
    Pool.Spares x W.pool (W.pool.handle m (.report w e)) := by
  have hother {t : TaskId} (ht : W.pool.ledger.sight t = none ∨
      W.pool.ledger.sight t = some (.running, some w)) : x ≠ t ∨ W.pool.ledger.sight t = none := by
    rcases ht with ht | ht
    · exact .inr ht
    · refine .inl fun h => hx ?_
      rw [h]
      exact ht
  obtain ⟨p, q, hi, hc, hq⟩ := Pool.handle_chores (m := m) hin.tuned.sound (.report w e)
  have hfirst : Pool.Spares x W.pool p := by
    cases hi with
    | none => exact .silent rfl rfl
    | ready | idle => exact .silent rfl rfl
    | busy _ t =>
      have hset : Pool.Spares x W.pool (W.pool.updateEntry w fun e => e.setBusy t m.now) :=
        .silent rfl rfl
      exact hset.trans (.startAttempt _ t w)
    | busyLate _ t => exact .startAttempt _ t w
    | result _ t v ledger cs ha hcomplete =>
      obtain ⟨task, ht, _, rfl, rfl⟩ := Ledger.complete_eq_some hcomplete
      have hne := (hother (hin.sight_of_result hb ho)).resolve_right fun hn => by
        rw [Ledger.sight_of_find? ht] at hn
        cases hn
      exact .settle ht hne rfl rfl
    | error _ t detail =>
      have hnote : Pool.Spares x W.pool
          (W.pool.updateEntry w fun e => { e with failed := e.failed + 1 }) := .silent rfl rfl
      exact hnote.trans (.failTask _ (hother (hin.sight_of_error hb ho)))
    | crash _ _ _ entry => exact Pool.Spares.dispose (W.pool.dropEntry w) entry
    | crashBusy _ _ detail entry t hd he hs ht =>
      have hdrop : Pool.Spares x W.pool ((W.pool.dropEntry w).dispose entry) :=
        Pool.Spares.dispose (W.pool.dropEntry w) entry
      refine hdrop.trans (.failTask _ ?_)
      obtain ⟨stops, replies, hdis, _⟩ := Pool.dispose_eq (W.pool.dropEntry w) entry
      rw [hdis]
      exact hother (hin.sight_of_crash hb ho hd he hs ht)
  rw [hq]
  refine (hfirst.trans hc.spares).trans (.aside [] ?_ (fun _ h => by cases h) rfl)
  rfl

/-- one task at most runs at a worker -/
theorem InStep.running_unique {x y : TaskId}
    (hx : W.pool.ledger.sight x = some (.running, some w))
    (hy : W.pool.ledger.sight y = some (.running, some w)) : x = y := by
  have h := (hin.tuned.harmony.running hx).1.symm.trans (hin.tuned.harmony.running hy).1
  exact (Option.some.inj (Prod.mk.inj (Option.some.inj h)).2)

/-- **a worker that has no entry any more is not listened to** -/
theorem InStep.departed (he : W.pool.roster.find? w = none) (m : Moment) (e : Event) :
    W.pool.handle m (.report w e) = W.pool := by
  have hkeep (f : Entry → Entry) : W.pool.updateEntry w f = W.pool := by
    show { W.pool with roster := W.pool.roster.modify w f } = W.pool
    rw [Roster.modify_of_absent he]
  -- a task that the worker still stands in the record of is to be tried again
  have hretrying {t : TaskId} (ha : W.pool.isAssignedTo t w = true) :
      ∃ task, W.pool.ledger.find? t = some task ∧ task.status = .retrying := by
    unfold Pool.isAssignedTo at ha
    cases ht : W.pool.ledger.find? t with
    | none =>
      rw [ht] at ha
      cases ha
    | some task =>
      rw [ht] at ha
      have hw : task.worker = some w := eq_of_beq ha
      have hlist := (hin.tuned.harmony.listed t _ (Ledger.sight_of_find? ht)).2
      have hpost : W.pool.roster.post w = none := by
        rw [Roster.post, he]
        rfl
      rw [hw] at hlist
      refine ⟨task, rfl, ?_⟩
      generalize task.status = st at hlist
      cases hlist with
      | handed _ _ hp | running _ _ hp =>
        have hp' : W.pool.roster.post w = _ := hp
        rw [hpost] at hp'
        cases hp'
      | retrying => rfl
  have hcrash (detail : String) : Pool.crash m W.pool w detail = W.pool := by
    unfold Pool.crash
    rw [he]
  show Pool.report m W.pool w e = W.pool
  cases e with
  | ready | busy | idle =>
    unfold Pool.report
    rw [he]
  | result t v =>
    unfold Pool.report
    simp only [hkeep]
    split
    · rename_i ha
      obtain ⟨task, ht, hs⟩ := hretrying ha
      unfold Ledger.complete
      simp only [ht, if_pos hs]
    · rfl
  | error t detail =>
    unfold Pool.report
    simp only [hkeep]
    split
    · rename_i ha
      obtain ⟨task, ht, hs⟩ := hretrying ha
      unfold Pool.failTask Ledger.fail
      simp only [ht, if_pos hs, Overflowing.unchecked_exact]
    · rfl
  | fatal detail => exact hcrash detail
  | metrics sample => exact hkeep _
  | exited graceful => exact hcrash _

end

end Workshop

/-! ## messages about a task that is over -/

namespace Pool

variable {m : Moment}

/-- every task and every ticket stays where it is, and nothing is said of any task -/
def Aloof (p q : Pool) : Prop :=
  q.ledger = p.ledger ∧ q.queue = p.queue ∧
    ∃ es, q.outbox = p.outbox ++ es ∧ ∀ e ∈ es, ∀ x, e.Omits x

theorem Aloof.silent {p q : Pool} (hl : q.ledger = p.ledger) (hq : q.queue = p.queue)
    (ho : q.outbox = p.outbox) : Aloof p q :=
  ⟨hl, hq, [], ho.trans (List.append_nil _).symm, fun _ h => by cases h⟩

theorem Aloof.trans {p q r : Pool} (h1 : Aloof p q) (h2 : Aloof q r) : Aloof p r := by
  obtain ⟨hl, hq, es, ho, hs⟩ := h1
  obtain ⟨hl', hq', fs, ho', hs'⟩ := h2
  refine ⟨hl'.trans hl, hq'.trans hq, es ++ fs, ?_, fun e he => ?_⟩
  · rw [ho', ho, List.append_assoc]
  · rcases List.mem_append.mp he with he | he
    · exact hs e he
    · exact hs' e he

theorem Aloof.removed (p : Pool) (w : WorkerId) (e : Entry) :
    Aloof p ((p.dropEntry w).dispose e) := by
  obtain ⟨stops, replies, hd, hr⟩ := dispose_eq (p.dropEntry w) e
  rw [hd]
  exact ⟨rfl, rfl, _, rfl, fun x hx id => omits_farewell id e hr x hx⟩

theorem Aloof.hire (p : Pool) : Aloof p (p.hire m) := by
  by_cases ha : m.attached = true
  · rw [hire_of_attached ha]
    refine ⟨rfl, rfl, _, rfl, fun e he x => ?_⟩
    rw [List.mem_singleton.mp he]
    exact ⟨rfl, rfl⟩
  · rw [hire_of_detached (by simpa using ha)]
    exact .silent rfl rfl rfl

theorem Aloof.replace (p : Pool) (b : Prop) [Decidable b] :
    Aloof p (if b then p.hire m else p) := by
  split
  · exact .hire p
  · exact .silent rfl rfl rfl

/-- a worker crashes over a task that is over -/
theorem Aloof.crash {p : Pool} {t : TaskId} (ht : p.ledger.find? t = none) {w : WorkerId}
    {e : Entry} (he : p.roster.find? w = some e) (htask : e.task = some t) (detail : String) :
    Aloof p (crash m p w detail) := by
  have hgone := Aloof.removed p w e
  unfold Pool.crash
  rw [he]
  by_cases hs : e.status = .stopping
  · simp only [if_pos hs]
    rw [finishStop_eq he]
    exact hgone.trans (.replace _ _)
  · simp only [if_neg hs, htask]
    have hover : ((p.dropEntry w).dispose e).ledger.sight t = none := by
      rw [hgone.1]
      exact Ledger.sight_eq_none.mpr ht
    rw [failTask_unknown _ hover]
    exact hgone.trans (.replace _ _)

/-- a message that comes too late for the task -/
inductive Late (p : Pool) (t : TaskId) : Message → Prop where
  | busy (w : WorkerId) : Late p t (.report w (.busy t))
  | result (w : WorkerId) (v : Json) : Late p t (.report w (.result t v))
  | error (w : WorkerId) (detail : String) : Late p t (.report w (.error t detail))
  | crash (w : WorkerId) (event : Event) (detail : String) (e : Entry)
      (hd : crashDetail? event = some detail) (he : p.roster.find? w = some e)
      (ht : e.task = some t) : Late p t (.report w event)
  | timeout (attempt : UInt32) : Late p t (.ring (.taskTimeout t attempt))
  | retry : Late p t (.ring (.retryDue t))

theorem Late.aloof {p : Pool} {t : TaskId} {msg : Message} (h : Late p t msg)
    (ht : p.ledger.find? t = none) : Aloof p (p.handle m msg) := by
  have hnobody (q : Pool) (hq : q.ledger = p.ledger) (w : WorkerId) :
      ¬ q.isAssignedTo t w = true := by
    unfold isAssignedTo
    rw [hq, ht]
    exact Bool.false_ne_true
  cases h with
  | busy w =>
    have hskip (q : Pool) (hq : q.ledger = p.ledger) : startAttempt m q t w = q :=
      startAttempt_unknown w (Ledger.sight_eq_none.mpr (hq ▸ ht))
    show Aloof p (report m p w (.busy t))
    unfold report
    cases p.roster.find? w with
    | none => exact .silent rfl rfl rfl
    | some e =>
      dsimp only
      split
      · rw [hskip p rfl]
        exact .silent rfl rfl rfl
      · rw [hskip (p.updateEntry w fun e => e.setBusy t m.now) rfl]
        exact .silent rfl rfl rfl
  | result w v =>
    have hno := hnobody (p.updateEntry w fun e => { e with processed := e.processed + 1 }) rfl w
    show Aloof p (report m p w (.result t v))
    unfold report
    simp only [if_neg hno]
    exact .silent rfl rfl rfl
  | error w detail =>
    have hno := hnobody (p.updateEntry w fun e => { e with failed := e.failed + 1 }) rfl w
    show Aloof p (report m p w (.error t detail))
    unfold report
    simp only [if_neg hno]
    exact .silent rfl rfl rfl
  | crash w event detail e hd he htask =>
    cases event with
    | fatal => exact .crash ht he htask _
    | exited => exact .crash ht he htask _
    | _ => cases hd
  | timeout attempt =>
    show Aloof p (timeOut m p t attempt)
    unfold timeOut Ledger.timeOut
    rw [ht]
    exact .silent rfl rfl rfl
  | retry =>
    show Aloof p (Pool.retry m p t)
    unfold Pool.retry Ledger.resetForRetry
    rw [ht]
    split <;> exact .silent rfl rfl rfl

end Pool

namespace Workshop

/-! ## all of it -/

/-- what late and foreign messages cannot do -/
structure Isolated (W : Workshop) : Prop where
  /-- a task whose outcome was delivered stays over, and what comes too late for it moves no task -/
  settled : ∀ t o, .deliver t o ∈ W.history →
    (∀ V, ReflTransGen Step W V → V.pool.ledger.find? t = none ∧ t ∉ V.pool.queue.tasks ∧
      told t V.history = told t W.history ∧ outcomes t V.history = [o]) ∧
    ∀ m msg, W.pool.Late t msg → W.pool.Aloof (W.pool.handle m msg)
  /-- as long as something of an attempt is still to be reported, there is no later attempt -/
  latest : ∀ t w, W.Outstanding t w → (∀ V, Step W V → told t V.history = told t W.history) ∧
    (W.pool.ledger.find? t ≠ none → (told t W.history).getLast? = some w)
  /-- a report resolves and fails no task but one that runs at its sender, and there is one at most;
  so does the news of a crash -/
  reports : ∀ m w b e rest, W.bench w = some b → b.outgoing = e :: rest →
    (∀ x, W.pool.ledger.sight x ≠ some (.running, some w) →
      W.pool.Spares x (W.pool.handle m (.report w e))) ∧
    ∀ x y, W.pool.ledger.sight x = some (.running, some w) →
      W.pool.ledger.sight y = some (.running, some w) → x = y
  /-- the timeout of an attempt does nothing once another attempt was handed out -/
  timeouts : ∀ t es timer delay attempt fs,
    W.history = es ++ .arm timer delay (.taskTimeout t attempt) :: fs → told t fs ≠ [] →
      ∀ m, W.pool.handle m (.ring (.taskTimeout t attempt)) = W.pool
  /-- whatever is said to come from a worker whose entry is gone does nothing -/
  departed : ∀ w, W.pool.roster.find? w = none →
    ∀ m e, W.pool.handle m (.report w e) = W.pool

/-- **late and foreign messages do no harm**, in every reachable state -/
theorem Reachable.isolated {c : Config} {W : Workshop} (h : Reachable c W) : W.Isolated := by
  have hin := h.inStep
  refine ⟨fun t o ho => ?_, fun t w hout => ?_, fun m w b e rest hb ho => ?_, ?_, ?_⟩
  · exact ⟨fun V hV => h.over_for_good ho hV, fun m msg hl => hl.aloof (h.over ho).1⟩
  · obtain ⟨hid, hsight⟩ := hin.sight_of_outstanding hout
    refine ⟨fun V hs => hin.untold hs hid ?_ ?_, fun hflight => ?_⟩
    · rcases hsight with hsight | hsight | hsight <;> rw [hsight] <;> simp
    · rcases hsight with hsight | hsight | hsight <;> rw [hsight] <;> simp
    · obtain ⟨t', ht⟩ := Option.ne_none_iff_exists'.mp hflight
      rw [Ledger.sight_of_find? ht] at hsight
      rcases hsight with hsight | hsight | hsight
      · cases hsight
      all_goals
        obtain ⟨hst, hw⟩ := Prod.mk.inj (Option.some.inj hsight)
        exact ((h.numbered ht).posted w (by rw [hst]; exact Status.noConfusion) hw).2
  · exact ⟨fun x hx => hin.spares hb ho hx m, fun x y => hin.running_unique⟩
  · exact fun t es timer delay attempt fs hh hagain m => h.stale_timeout hh hagain m
  · exact fun w he m e => hin.departed he m e

/-- the worker of `bereft` has panicked; its exit is still to be reported -/
theorem isolated_bereft : Reachable Chronicle.single bereft ∧
    bereft.pool.roster.find? 1 = none ∧
    bereft.pool.handle calmMoment (.report 1 (.exited false)) = bereft.pool ∧
    outcomes ⟨7⟩ bereft.history = [.error (.workerCrashed 1 "out of disk")] := by
  have h := employs_bereft.reachable
  have hgone : bereft.pool.roster.find? 1 = none := by decide
  have hout : .deliver ⟨7⟩ (.error (.workerCrashed 1 "out of disk")) ∈ bereft.history :=
    mem_outcomes.mp (List.mem_singleton_self _)
  exact ⟨h, hgone, (Reachable.isolated h).departed 1 hgone calmMoment (.exited false),
    (((Reachable.isolated h).settled _ _ hout).1 bereft .refl).2.2.2⟩

end Workshop

end TaskPool
