import TaskPool.Proofs.Agreement

/-!
# No worker idles while a task waits

* `Pool.Diligent`        where a ticket waits, no worker is idle
* `Eases`                no ticket where there was none, and no idle worker more
* `Move.eases`           so it is with every move
* `Staged.assign_eq`     an idle worker is handed a ticket whenever there is one
* `Impact.stirs`         the messages that bring a ticket or free a worker, and all the others
* `handle_diligent`      every message leaves the pool diligent
* `Reachable.diligent`   so the pool always is, and a task that comes while a worker is idle is
                         accepted and handed out in the same step

Why one attempt for each worker is enough: an attempt fails only where there is no ticket, since
an idle worker always takes commands and a ticket is always of a task in flight.
-/

namespace TaskPool

open Relation

theorem Roster.mem_idleIds {r : Roster} {w : WorkerId} :
    w ∈ r.idleIds ↔ ∃ e ∈ r.entries, e.status = .idle ∧ e.worker = w := by
  simp [idleIds, withStatus, and_assoc]

namespace Pool

variable {m : Moment} {now : Nat} {bench : WorkerId → Option Bench} {taken : List TaskId}

/-- where a ticket waits, no worker is idle -/
def Diligent (p : Pool) : Prop := p.queue.waiting ≠ [] → ∀ w, ¬ p.Idle w

theorem idle_iff_mem_idleIds {p : Pool} (hs : p.roster.Sound) {w : WorkerId} :
    p.Idle w ↔ w ∈ p.roster.idleIds := by
  rw [Roster.mem_idleIds]
  constructor
  · rintro ⟨e, he, hi⟩
    exact ⟨e, Roster.mem_of_find? he, hi, Roster.worker_of_find? he⟩
  · rintro ⟨e, he, hi, rfl⟩
    exact ⟨e, hs.find?_of_mem he, hi⟩

/-! ## what makes no work and no idle worker -/

structure Eases (p q : Pool) : Prop where
  queue : q.queue.waiting ≠ [] → p.queue.waiting ≠ []
  idle : ∀ w, q.Idle w → p.Idle w

theorem Eases.refl (p : Pool) : Eases p p := ⟨id, fun _ => id⟩

theorem Eases.trans {p q r : Pool} (h1 : Eases p q) (h2 : Eases q r) : Eases p r :=
  ⟨h1.queue ∘ h2.queue, fun w h => h1.idle w (h2.idle w h)⟩

theorem Eases.keeps_diligent {p q : Pool} (h : Eases p q) (hd : p.Diligent) : q.Diligent :=
  fun hq w hi => hd (h.queue hq) w (h.idle w hi)

theorem Eases.same {p q : Pool} (hq : q.queue = p.queue) (hr : q.roster = p.roster) :
    Eases p q := by
  refine ⟨fun h => hq ▸ h, fun w hi => ?_⟩
  unfold Idle at hi ⊢
  rwa [hr] at hi

theorem Eases.modify {p q : Pool} (w : WorkerId) (f : Entry → Entry)
    (hq : q.queue.waiting ≠ [] → p.queue.waiting ≠ []) (hr : q.roster = p.roster.modify w f)
    (hf : ∀ e, (f e).worker = e.worker) (hi : ∀ e, (f e).status = .idle → e.status = .idle) :
    Eases p q := by
  refine ⟨hq, fun x hx => ?_⟩
  obtain ⟨e, he, hst⟩ := hx
  rw [hr] at he
  rcases Roster.find?_modify_some he hf with ⟨_, e0, h0, rfl⟩ | ⟨_, h0⟩
  · exact ⟨e0, h0, hi e0 hst⟩
  · exact ⟨e, h0, hst⟩

theorem Eases.removed (p : Pool) (w : WorkerId) (e : Entry) :
    Eases p ((p.dropEntry w).dispose e) := by
  obtain ⟨s, r, h, _⟩ := dispose_eq (p.dropEntry w) e
  rw [h]
  refine ⟨id, fun x hx => ?_⟩
  obtain ⟨e', he', hst⟩ := hx
  have he'' : (p.roster.erase w).find? x = some e' := he'
  rw [Roster.find?_erase] at he''
  split at he''
  · cases he''
  · exact ⟨e', he'', hst⟩

theorem Eases.failTask (p : Pool) (id : TaskId) (cause : FailureCause) :
    Eases p (failTask m p id cause) := by
  have h := failTask_cases (m := m) p id cause
  generalize Pool.failTask m p id cause = q at h
  cases h <;> exact .same rfl rfl

theorem Eases.startAttempt (p : Pool) (id : TaskId) (w : WorkerId) :
    Eases p (startAttempt m p id w) := by
  have h := startAttempt_cases (m := m) p id w
  generalize Pool.startAttempt m p id w = q at h
  cases h <;> exact .same rfl rfl

theorem Eases.hire (p : Pool) : Eases p (p.hire m) := by
  by_cases ha : m.attached = true
  · rw [hire_of_attached ha]
    refine ⟨id, fun w hw => ?_⟩
    obtain ⟨e, he, hst⟩ := hw
    have he' : (p.roster.enrol m.now).find? w = some e := he
    rw [Roster.find?_enrol] at he'
    split at he'
    · cases he'
      cases hst
    · exact ⟨e, he', hst⟩
  · rw [hire_of_detached (by simpa using ha)]
    exact .refl p

theorem waiting_ne_nil_of_popFor {q rest : Queue} {affinity : Option KindSet} {t : Ticket}
    (h : q.popFor affinity = some (t, rest)) : q.waiting ≠ [] := by
  intro hq
  rw [Queue.popFor_eq_none.mpr hq] at h
  cases h

theorem Move.eases {p q : Pool} (h : Move m p q) : Eases p q := by
  cases h with
  | reply | ask | promise | «open» | expire => exact .same rfl rfl
  | wake caller =>
    obtain ⟨s, r, h, _⟩ := wake_eq p caller
    rw [h]
    exact .same rfl rfl
  | note w f hf =>
    refine .modify w f id rfl hf.worker fun e he => ?_
    rwa [hf.status] at he
  | ticks =>
    unfold armTicks
    split <;> exact .same rfl rfl
  | dispatch w e affinity t rest task he hi hq =>
    refine .modify w (fun e => e.setBusy t.task m.now) (fun _ => waiting_ne_nil_of_popFor hq) rfl
      (fun _ => rfl) fun e he => ?_
    cases he
  | unknown affinity t rest hq | bounce w e affinity t rest _ _ hq =>
    exact ⟨fun _ => waiting_ne_nil_of_popFor hq, fun _ => id⟩
  | retire waiter w e he hst _ =>
    rw [stopWorker_of_live waiter he hst]
    refine .modify w _ id rfl ?_ ?_
    · exact fun _ => rfl
    · intro e he
      cases he
  | remove w e => exact .removed p w e
  | cancel t =>
    refine ⟨fun hq hp => hq ?_, fun _ => id⟩
    have hsub := p.queue.remove_sublist t
    rw [hp] at hsub
    exact List.sublist_nil.mp hsub
  | shut => exact ⟨fun h => absurd rfl h, fun _ => id⟩

theorem Moves.eases {p q : Pool} (h : Moves m p q) : Eases p q := by
  induction h with
  | refl => exact .refl p
  | tail _ h ih =>
    rcases h with h | rfl
    · exact ih.trans h.eases
    · exact ih.trans (.hire _)

/-! ## an idle worker is handed a ticket -/

theorem Staged.assign_eq {p : Pool} (h : Staged m now bench taken p) {w : WorkerId} {e : Entry}
    (he : p.roster.find? w = some e) (hi : e.status = .idle) {t : Ticket} {rest : Queue}
    (hq : p.queue.popFor (if p.config.affinity then e.affinity else none) = some (t, rest)) :
    ∃ task, p.ledger.find? t.task = some task ∧ assign m p w =
      { p with
        queue := rest
        roster := p.roster.modify w fun e => e.setBusy t.task m.now
        ledger := p.ledger.markDispatched t.task w
        outbox := p.outbox ++ [.tell w (.task t.task t.kind task.terms.payload)] } := by
  obtain ⟨task, ht, _⟩ := h.task_of_popFor hq
  refine ⟨task, ht, ?_⟩
  unfold assign
  simp only [he, if_pos hi, hq, ht, if_pos (h.reaches_of_idle he hi)]

/-- after an attempt to hand a worker a ticket, it is not idle or there was none -/
theorem Staged.assign_not_idle {p : Pool} (h : Staged m now bench taken p) {w : WorkerId}
    (hq : p.queue.waiting ≠ []) : ¬ (assign m p w).Idle w := by
  cases he : p.roster.find? w with
  | none =>
    have hsame : assign m p w = p := by
      unfold assign
      rw [he]
    rw [hsame]
    rintro ⟨e, he', _⟩
    rw [he] at he'
    cases he'
  | some e =>
    by_cases hi : e.status = .idle
    · cases hpop : p.queue.popFor (if p.config.affinity then e.affinity else none) with
      | none => exact absurd (Queue.popFor_eq_none.mp hpop) hq
      | some r =>
        obtain ⟨task, _, heq⟩ := h.assign_eq he hi hpop
        rw [heq]
        rintro ⟨e', he', hi'⟩
        rcases Roster.find?_modify_some he' (fun _ => rfl) with ⟨_, e0, _, rfl⟩ | ⟨hne, _⟩
        · cases hi'
        · exact hne rfl
    · have hsame : assign m p w = p := by
        unfold assign
        rw [he]
        simp only [if_neg hi]
      rw [hsame]
      rintro ⟨e', he', hi'⟩
      rw [he] at he'
      cases he'
      exact hi hi'

theorem Staged.assignEach_not_idle {ws : List WorkerId} {p : Pool}
    (h : Staged m now bench taken p) (hq : (assignEach m ws p).queue.waiting ≠ [])
    {w : WorkerId} (hw : w ∈ ws) : ¬ (assignEach m ws p).Idle w := by
  induction ws generalizing p with
  | nil => cases hw
  | cons x xs ih =>
    rw [assignEach] at hq ⊢
    split at hq
    · rename_i hempty
      exact absurd (List.isEmpty_iff.mp hempty) hq
    · rename_i hempty
      rw [if_neg hempty]
      have hx : Staged m now bench taken (assign m p x) := Moves.staged h (assign_steady p x).moves
      rcases List.mem_cons.mp hw with rfl | hw
      · -- what comes after its turn makes no worker idle
        have hlater := ((assignEach_steady (m := m) xs (assign m p w)).moves).eases
        have hp : p.queue.waiting ≠ [] := fun h0 => hempty (List.isEmpty_iff.mpr h0)
        exact fun hi => h.assign_not_idle hp (hlater.idle w hi)
      · exact ih hx hq hw

/-- a ticket that is put into the queue goes to an idle worker, as long as there is one -/
theorem Staged.enqueue_diligent {p : Pool} {t : Ticket}
    (h : Staged m now bench taken { p with queue := p.queue.push t }) :
    (enqueue m p t).Diligent := by
  intro hq w hi
  have heases := (assignEach_steady (m := m) p.roster.idleIds
    { p with queue := p.queue.push t }).moves.eases
  have hmem := (idle_iff_mem_idleIds h.sound).mp (heases.idle w hi)
  exact h.assignEach_not_idle hq hmem hi

/-- so does a ticket that waits when a worker gets idle -/
theorem Staged.assign_diligent {p : Pool} (hd : p.Diligent) {w : WorkerId} {f : Entry → Entry}
    (hf : ∀ e, (f e).worker = e.worker) (h : Staged m now bench taken (p.updateEntry w f)) :
    (assign m (p.updateEntry w f) w).Diligent := by
  intro hq x hi
  have heases := ((assign_steady (m := m) (p.updateEntry w f) w).moves).eases
  have hp : p.queue.waiting ≠ [] := heases.queue hq
  obtain ⟨e, he, hst⟩ := heases.idle x hi
  rcases Roster.find?_modify_some he hf with ⟨rfl, _⟩ | ⟨_, h0⟩
  · exact h.assign_not_idle hp hi
  · exact hd hp x ⟨e, h0, hst⟩

/-! ## every message -/

/-- the message brings a ticket or frees a worker, and all that it does then is to hand out -/
inductive Stirs (m : Moment) (p : Pool) (msg : Message) : Pool → Prop where
  | queued (ledger : Ledger) (t : Ticket)
      (h : p.handle m msg = (enqueue m { p with ledger := ledger } t).emitAll (p.receipt msg)) :
      Stirs m p msg
        { p with
          ledger := ledger
          queue := p.queue.push t }
  | freed (w : WorkerId)
      (h : p.handle m msg = assign m (p.updateEntry w fun e => e.setIdle m.now) w) :
      Stirs m p msg (p.updateEntry w fun e => e.setIdle m.now)

/-- any other message brings no ticket and frees no worker -/
theorem Impact.stirs {p q : Pool} {msg : Message} (h : Impact m p msg q) :
    Eases p q ∨ Stirs m p msg q := by
  cases h with
  | none => exact .inl (.refl p)
  | accept caller id kind payload options hr =>
    refine .inr (.queued _ _ ?_)
    simp only [handle, call, receipt, hr]
    rfl
  | retry t ticket ledger hr h =>
    refine .inr (.queued ledger ticket ?_)
    simp only [handle, ring, Pool.retry, if_pos hr, h, receipt, emitAll_nil]
  | ready w e he hs | idle w e he hs =>
    refine .inr (.freed w ?_)
    simp only [handle, report, he, if_pos hs]
  | busy w t e =>
    have hset : Eases p (p.updateEntry w fun e => e.setBusy t m.now) :=
      .modify w (fun e => e.setBusy t m.now) id rfl (fun _ => rfl) fun e he => by cases he
    exact .inl (hset.trans (.startAttempt _ t w))
  | busyLate w t => exact .inl (.startAttempt p t w)
  | result w =>
    exact .inl (.modify w (fun e => { e with processed := e.processed + 1 }) id rfl
      (fun _ => rfl) fun _ => id)
  | error w t detail =>
    have hset : Eases p (p.updateEntry w fun e => { e with failed := e.failed + 1 }) :=
      .modify w (fun e => { e with failed := e.failed + 1 }) id rfl (fun _ => rfl) fun _ => id
    exact .inl (hset.trans (.failTask _ t (.handler detail)))
  | crash w _ _ e => exact .inl (.removed p w e)
  | crashBusy w _ detail e t =>
    exact .inl ((Eases.removed p w e).trans (.failTask _ t (.crash w detail)))

/-- **every message leaves the pool diligent** -/
theorem handle_diligent {p : Pool} (hs : p.roster.Sound) (hd : p.Diligent) {msg : Message}
    (hi : ∀ q, Impact m p msg q → Staged m now bench taken q) : (p.handle m msg).Diligent := by
  obtain ⟨p1, p2, himp, hm, _, hq⟩ := handle_splits (m := m) hs msg
  have hst := hi p1 himp
  rcases himp.stirs with heases | hstirs
  · rw [hq]
    exact (heases.trans hm.eases).keeps_diligent hd
  · cases hstirs with
    | queued ledger t h =>
      rw [h]
      exact hst.enqueue_diligent
    | freed w h =>
      rw [h]
      exact Staged.assign_diligent hd (fun _ => rfl) hst

/-! ## a task that comes while a worker is idle -/

theorem assignEach_of_empty {p : Pool} (h : p.queue.waiting = []) (ws : List WorkerId) :
    assignEach m ws p = p := by
  cases ws with
  | nil => rfl
  | cons w ws =>
    rw [assignEach, if_pos]
    exact List.isEmpty_iff.mpr h

/-- a submission to `p` left `q`: the task was accepted, and handed to `w` at once -/
structure HandedOver (p q : Pool) (caller : CallId) (id : TaskId) (kind : Kind) (payload : Json)
    (w : WorkerId) : Prop where
  idle : p.Idle w
  outbox : q.outbox = [.tell w (.task id kind payload), .reply caller (.accepted id)]
  post : q.roster.post w = some (.busy, some id)
  sight : q.ledger.sight id = some (.queued, some w)
  queue : q.queue.waiting = []

theorem refusal?_of_diligent {p : Pool} (hd : p.Diligent) (hr : p.running = true)
    (hmax : 1 ≤ p.config.maxQueueSize) {w : WorkerId} (hi : p.Idle w) :
    p.refusal? = none ∧ p.queue.waiting = [] := by
  have hq : p.queue.waiting = [] := by
    by_contra hne
    exact hd hne w hi
  refine ⟨?_, hq⟩
  have hsize : p.queue.size = 0 := by
    unfold Queue.size
    rw [hq]
    rfl
  unfold refusal?
  rw [hsize, if_neg (by simp [hr]), if_neg (by omega)]

/-- the first idle worker takes the new task, and nothing waits any more -/
theorem handedOver {p : Pool} (ho : p.outbox = []) {caller : CallId} {id : TaskId} {kind : Kind}
    {payload : Json} {options : Options} (hr : p.refusal? = none) (hq : p.queue.waiting = [])
    (hnew : p.ledger.find? id = none)
    (hi : ∀ q, Impact m p (.call caller (.submit id kind payload options)) q →
      Staged m now bench taken q) {x : WorkerId} (hx : p.Idle x) :
    ∃ w, HandedOver p (p.handle m (.call caller (.submit id kind payload options))) caller id kind
      payload w := by
  have hst := hi _ (.accept caller id kind payload options hr)
  set task := Task.new id (terms p.config kind payload options) m.now
  set q := { p with
    ledger := p.ledger.insert task
    queue := p.queue.push task.ticket }
  have heq : p.handle m (.call caller (.submit id kind payload options))
      = (assignEach m q.roster.idleIds q).reply caller (.accepted id) := by
    simp only [handle, call, hr]
    rfl
  have hone : q.queue = ⟨[task.ticket]⟩ := by
    show (⟨Queue.place task.ticket p.queue.waiting⟩ : Queue) = _
    rw [hq]
    rfl
  have hmem : x ∈ q.roster.idleIds := (idle_iff_mem_idleIds hst.sound).mp hx
  cases hids : q.roster.idleIds with
  | nil =>
    rw [hids] at hmem
    cases hmem
  | cons w ws =>
    have hw : q.Idle w := (idle_iff_mem_idleIds hst.sound).mpr (hids ▸ List.mem_cons_self ..)
    obtain ⟨e, he, hidle⟩ := hw
    obtain ⟨task', ht', hassign⟩ := hst.assign_eq he hidle (hone ▸ Queue.popFor_singleton _ _)
    have hfind : q.ledger.find? id = some task := by
      show (p.ledger.insert task).find? id = _
      rw [Ledger.find?_insert p.ledger hnew]
      exact if_pos rfl
    have htask : task' = task := Option.some.inj (ht'.symm.trans hfind)
    have hstep : assignEach m (w :: ws) q = assign m q w := by
      rw [assignEach, if_neg (by rw [hone]; exact Bool.false_ne_true), hassign]
      exact assignEach_of_empty rfl ws
    refine ⟨w, ⟨e, he, hidle⟩, ?_, ?_, ?_, ?_⟩
    · rw [heq, hids, hstep, hassign, htask]
      show (p.outbox ++ [_]) ++ [_] = _
      rw [ho]
      rfl
    · rw [heq, hids, hstep, hassign]
      show (p.roster.modify w fun e => e.setBusy id m.now).post w = _
      rw [Roster.post_modify p.roster (fun e => e.setBusy id m.now) (fun _ => rfl) w he,
        Function.update_self]
      rfl
    · rw [heq, hids, hstep, hassign]
      show (q.ledger.modify id fun t => { t with worker := some w }).sight id = _
      rw [Ledger.sight_modify q.ledger (fun t => { t with worker := some w }) (fun _ => rfl) id
        hfind, Function.update_self]
      rfl
    · rw [heq, hids, hstep, hassign]
      rfl

end Pool

/-! ## whole runs -/

namespace Workshop

theorem Reachable.pool_diligent {c : Config} {W : Workshop} (h : Reachable c W) :
    W.pool.Diligent := by
  induction h with
  | new =>
    intro hq
    exact absurd rfl hq
  | step hr hs ih =>
    have hin := hr.inStep
    have hsound := hin.tuned.sound
    cases hs with
    | call m now caller request hm hd =>
      exact Pool.handle_diligent hsound ih fun q hi => hin.staged_call now hm hd hi
    | report m now w b e rest hm hb ho =>
      exact Pool.handle_diligent hsound ih fun q hi => hin.staged_report now hm hb ho hi
    | alarm m now a hm ha =>
      exact Pool.handle_diligent hsound ih fun q hi => hin.staged_alarm now hm hi
    | ring | turn | letGo => exact ih

/-- **no worker idles while a task waits**: between two messages either no ticket waits or no
worker is idle; so a task that is submitted to a running pool while some worker is idle is never
refused, and a worker is told to run it in the same step, whatever the workers prefer -/
theorem Reachable.diligent {c : Config} {W : Workshop} (h : Reachable c W) :
    (W.pool.queue.waiting ≠ [] → ∀ e ∈ W.pool.roster.entries, e.status ≠ .idle) ∧
      ∀ (m : Moment) (caller : CallId) (id : TaskId) (kind : Kind) (payload : Json)
        (options : Options), W.Admits m → id ∉ accepted W.history →
        W.pool.running = true → 1 ≤ c.maxQueueSize →
        (∃ e ∈ W.pool.roster.entries, e.status = .idle) →
        ∃ w, W.pool.HandedOver
          (W.pool.handle m (.call caller (.submit id kind payload options))) caller id kind payload
          w := by
  have hd := h.pool_diligent
  have hin := h.inStep
  have hidle {e : Entry} (he : e ∈ W.pool.roster.entries) (hi : e.status = .idle) :
      W.pool.Idle e.worker := ⟨e, hin.tuned.sound.find?_of_mem he, hi⟩
  refine ⟨fun hq e he hi => hd hq e.worker (hidle he hi), ?_⟩
  intro m caller id kind payload options hm hnew hrun hmax hex
  obtain ⟨e, he, hi⟩ := hex
  rw [← h.manned.config] at hmax
  obtain ⟨hr, hq⟩ := Pool.refusal?_of_diligent hd hrun hmax (hidle he hi)
  have hfind : W.pool.ledger.find? id = none := by
    cases hf : W.pool.ledger.find? id with
    | none => rfl
    | some t => exact absurd (hin.tuned.harmony.listed id _ (Ledger.sight_of_find? hf)).1 hnew
  have hdraw : W.Draws (.submit id kind payload options) := hnew
  exact Pool.handedOver hin.tuned.outbox hr hq hfind (fun q hi => hin.staged_call 0 hm hdraw hi)
    (hidle he hi)

/-- in `staffed` the worker is idle, so it takes the task -/
theorem diligent_staffed : Reachable Chronicle.single staffed ∧ staffed.pool.running = true ∧
    ∃ w, staffed.pool.HandedOver
      (staffed.pool.handle calmMoment (.call 1 (.submit ⟨7⟩ .cacheCleanup .null {}))) 1 ⟨7⟩
      .cacheCleanup .null w := by
  have hnew : (⟨7⟩ : TaskId) ∉ accepted staffed.history := List.not_mem_nil
  have hidle : ∃ e ∈ staffed.pool.roster.entries, e.status = .idle :=
    ⟨_, List.mem_singleton_self _, rfl⟩
  exact ⟨reachable_staffed, rfl, reachable_staffed.diligent.2 calmMoment 1 ⟨7⟩ .cacheCleanup .null {}
    (admits_calmMoment staffed) hnew rfl (by decide) hidle⟩

end Workshop

end TaskPool
