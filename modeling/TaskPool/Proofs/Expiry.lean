import TaskPool.Proofs.Leaving
import TaskPool.Proofs.Quiescence

/-!
# When the time of an attempt is up

A timeout that comes while its attempt runs ends the task for good.  The worker that ran it is asked
to stop, has its grace to leave, and another worker takes its place.

* `Workshop.Runs`        a worker runs a task
* `Pool.Evicts`          what the timeout of an attempt that runs makes of the pool
* `timeOut_evicts`       any other timeout leaves the pool as it was
* `Reachable.numbers`    workers are numbered in the order in which they were started
* `Path.leaving`         who was asked to stop is handed nothing, whatever happens
* `Reachable.expired`    what becomes of the task, of its worker, and of its place
* `unreplaced`           nobody takes the place if nobody can send to the pool any more

Why one worker takes the place, whatever is still heard of the one that leaves: the message that
takes the entry out is the one that starts somebody, and the messages after it find no entry.
-/

namespace TaskPool

open Function Relation

namespace Pool

variable {m : Moment}

/-- the task is over, and its worker is asked to stop and marked; nobody else is touched -/
structure Evicts (t : TaskId) (k : Task) (w : WorkerId) (p q : Pool) : Prop where
  outbox : ∃ es, q.outbox = p.outbox ++ es ∧ .deliver t (.error (.timeout k.terms.timeout)) ∈ es ∧
    ∀ e ∈ es, e.Bare
  worker : ∃ e, q.roster.find? w = some e ∧ e.status = .stopping ∧ e.replaceOnExit = true
  others : ∀ v, v ≠ w → q.roster.find? v = p.roster.find? v

section
variable {p : Pool} {t : TaskId} {k : Task} {w : WorkerId} {e : Entry}
  (hk : p.ledger.find? t = some k) (hs : k.status = .running) (hw : k.worker = some w)
  (he : p.roster.find? w = some e) (hb : e.status = .busy) (ht : e.task = some t)
include hk hs hw he hb ht

/-- the worker is held up by the attempt whose time is up -/
theorem timeOut_eq :
    timeOut m p t k.attempt = stopWorker m none
      ((p.post (p.ledger.erase t) [.deliver t (.error (.timeout k.terms.timeout))]).updateEntry w
        fun e => { e with replaceOnExit := true }) w := by
  have hstuck (q : Pool) (hq : q.roster = p.roster) : q.isStuckOn w t = true := by
    unfold isStuckOn
    rw [hq, he]
    simp [hb, ht]
  unfold timeOut Ledger.timeOut
  simp only [hk, hs, hw, and_self, if_true, Ledger.id_of_find? hk]
  exact if_pos (hstuck _ rfl)

theorem timeOut_evicts : Evicts t k w p (timeOut m p t k.attempt) := by
  rw [timeOut_eq hk hs hw he hb ht]
  set rest := p.post (p.ledger.erase t) [.deliver t (.error (.timeout k.terms.timeout))]
  set q := rest.updateEntry w fun e => { e with replaceOnExit := true }
  have hfind := Roster.find?_modify p.roster
    (fun e : Entry => { e with replaceOnExit := true }) (fun _ => rfl) w
  have hq : q.roster.find? w = some { e with replaceOnExit := true } := by
    refine (hfind w).trans ?_
    rw [if_pos rfl, he]
    rfl
  have hlive : e.status ≠ .stopping := by
    rw [hb]
    exact WorkerStatus.noConfusion
  obtain ⟨f, hf, hmark, hst, hr⟩ := stopWorker_roster (m := m) none q w
  refine ⟨⟨_ :: retirement m q w, ?_, List.mem_cons_self .., ?_⟩, ?_, fun v hv => ?_⟩
  · rw [stopWorker_of_live none hq hlive]
    exact List.append_assoc p.outbox _ _
  · exact List.forall_mem_cons.mpr ⟨trivial, bare_retirement q w⟩
  · refine ⟨f { e with replaceOnExit := true }, ?_, hst _ hq, hmark _⟩
    rw [hr, Roster.find?_modify _ _ hf, if_pos rfl, hq]
    rfl
  · rw [hr, Roster.find?_modify _ _ hf, if_neg hv]
    exact (hfind v).trans (if_neg hv)

end

end Pool

namespace Workshop

variable {c : Config} {W : Workshop} {t : TaskId} {n : UInt32}

/-- the worker was the last to be told of the task, and is busy with it -/
structure Runs (W : Workshop) (t : TaskId) (k : Task) (w : WorkerId) : Prop where
  task : W.pool.ledger.find? t = some k
  status : k.status = .running
  told : (told t W.history).getLast? = some w
  busy : ∃ e, W.pool.roster.find? w = some e ∧ e.status = .busy ∧ e.task = some t

/-- a timeout ends the attempt that it is for if that runs, and else does nothing -/
theorem Reachable.timeOut (h : Reachable c W) (m : Moment) :
    W.pool.handle m (.ring (.taskTimeout t n)) = W.pool ∨ ∃ k w, k.attempt = n ∧ W.Runs t k w ∧
      W.pool.Evicts t k w (W.pool.handle m (.ring (.taskTimeout t n))) := by
  show Pool.timeOut m W.pool t n = _ ∨ _
  cases hout : W.pool.ledger.timeOut t n with
  | none =>
    left
    unfold Pool.timeOut
    rw [hout]
  | some r =>
    right
    obtain ⟨k, hk, hs, rfl, _⟩ := Ledger.timeOut_eq_some hout
    have hlist := (h.inStep.tuned.harmony.listed t _ (Ledger.sight_of_find? hk)).2
    rw [hs] at hlist
    generalize ho : k.worker = o at hlist
    cases hlist with
    | running w b hp =>
      obtain ⟨e, he, hb, ht⟩ := Roster.find?_of_post hp
      have hlast := ((h.numbered hk).posted w (by rw [hs]; exact Status.noConfusion) ho).2
      exact ⟨k, w, rfl, ⟨hk, hs, hlast, e, he, hb, ht⟩, Pool.timeOut_evicts hk hs ho he hb ht⟩

/-- workers are numbered in the order in which they were started -/
theorem Reachable.numbers (h : Reachable c W) :
    ∃ n, W.pool.roster.nextId = 1 + n ∧ hired W.history = List.range' 1 n := by
  induction h with
  | new => exact ⟨0, rfl, rfl⟩
  | @step W W' h hs ih =>
    obtain ⟨n, hn, hh⟩ := ih
    rcases hs.heard with ⟨hpool, hhist⟩ | ⟨m, msg, _, _, hpool, hhist⟩
    · rw [hpool, hhist]
      exact ⟨n, hn, hh⟩
    · have hin := h.inStep
      obtain ⟨k, hk, hh'⟩ := Pool.handle_numbers (m := m) hin.tuned.sound msg
      rw [show W.pool.outbox = [] from hin.tuned.outbox, hn] at hh'
      refine ⟨n + k, ?_, ?_⟩
      · rw [hpool, ← Nat.add_assoc, ← hn]
        exact hk
      · rw [hhist, hired_append, hh, hh']
        exact List.range'_append_1

/-- the number of the worker that is started next is new -/
theorem Reachable.fresh (h : Reachable c W) : W.pool.roster.nextId ∉ hired W.history := by
  obtain ⟨n, hn, hh⟩ := h.numbers
  rw [hn, hh, List.mem_range'_1]
  omega

end Workshop

namespace Workday

open Workshop (calmMoment working)

variable {c : Config} {D E F : Workday} {o : Option Message} {ms : List Message} {t : TaskId}
  {n : UInt32} {k : Task} {w : WorkerId}

/-! ## after a worker was asked to stop -/

theorem Step.leaving (hr : Reachable c D) (hs : D.Step o E) (hw : w < D.shop.pool.roster.nextId)
    (hst : ∀ e, D.shop.pool.roster.find? w = some e → e.status = .stopping) :
    handed w E.shop.history = handed w D.shop.history := by
  cases o with
  | some msg =>
    have hin := hr.shop.inStep
    obtain ⟨m, _, hhist, _⟩ := hs.heard
    rw [hhist, handed_append, (Pool.handle_leaving (m := m) hin.tuned.sound hw hst msg).1,
      show D.shop.pool.outbox = [] from hin.tuned.outbox]
    exact List.append_nil _
  | none => cases hs <;> rfl

/-- **who was asked to stop is handed nothing**, whatever happens -/
theorem Path.leaving (hr : Reachable c E) (hp : E.Path ms F) (hw : w < E.shop.pool.roster.nextId)
    (hst : ∀ e, E.shop.pool.roster.find? w = some e → e.status = .stopping) :
    handed w F.shop.history = handed w E.shop.history := by
  induction hp with
  | refl => rfl
  | step hp hs ih =>
    have hfades := hp.fades hr
    exact (hs.leaving (hr.path hp) (Nat.lt_of_lt_of_le hw hfades.next)
      (hfades.stopping hw hst)).trans ih

/-- a pool that runs does so until it is stopped -/
theorem Path.on (hr : Reachable c E) (hp : E.Path ms F) (hrun : E.shop.pool.running = true)
    (hms : ∀ caller, .call caller .stop ∉ ms) : F.shop.pool.running = true := by
  induction hp with
  | refl => exact hrun
  | @step F G ms o hp hs ih =>
    have hon := ih fun caller hin => hms caller (List.mem_append_left _ hin)
    cases o with
    | some msg =>
      obtain ⟨m, hpool, _⟩ := hs.heard
      rw [hpool]
      refine Pool.handle_on (m := m) (hr.path hp).shop.mustered hon ?_
      rintro caller rfl
      exact hms caller (List.mem_append_right _ (List.mem_singleton_self _))
    | none => cases hs <;> exact hon

/-- the message that takes the entry of a worker out that is marked starts another one, if somebody
can still send to the pool -/
theorem Path.replaced (hr : Reachable c E) (hp : E.Path ms F) (hrun : E.shop.pool.running = true)
    (hms : ∀ caller, .call caller .stop ∉ ms) {e : Entry} (he : E.shop.pool.roster.find? w = some e)
    (hst : e.status = .stopping) (hmark : e.replaceOnExit = true) {m : Moment} {msg : Message}
    (hthere : F.shop.pool.roster.find? w ≠ none)
    (hgone : (F.shop.pool.handle m msg).roster.find? w = none) :
    hired (F.shop.pool.handle m msg).outbox
      = if m.attached then [F.shop.pool.roster.nextId] else [] := by
  have hin := (hr.path hp).shop.inStep
  have hlt := hr.shop.inStep.tuned.sound.lt_of_find? he
  obtain ⟨e', he'⟩ := Option.ne_none_iff_exists'.mp hthere
  obtain ⟨hst', hsame⟩ := (hp.fades hr).kept w hlt e e' he hst he'
  have hall : ∀ x, F.shop.pool.roster.find? w = some x → x.status = .stopping := by
    intro x hx
    rw [he'] at hx
    cases hx
    exact hst'
  have hlt' := hin.tuned.sound.lt_of_find? he'
  have hleaver := (Pool.handle_leaving (m := m) hin.tuned.sound hlt' hall msg).2 hthere hgone
  rw [Pool.hired_leaver hleaver he' hst', hsame, hmark, hp.on hr hrun hms,
    show F.shop.pool.outbox = [] from hin.tuned.outbox]
  simp [hired]

/-- whoever is gone stays so, and is not heard of any more -/
theorem Path.unheard (hr : Reachable c E) (hp : E.Path ms F) (hw : w < E.shop.pool.roster.nextId)
    (hgone : E.shop.pool.roster.find? w = none) (m : Moment) {msg : Message}
    (hmsg : msg.leaver? = some w) : F.shop.pool.handle m msg = F.shop.pool :=
  Pool.handle_of_absent hmsg ((hp.fades hr).gone w hw hgone)

/-! ## what becomes of it -/

/-- at `D` the worker runs the task; the next step, to `E`, is the timeout of the attempt -/
structure Expired (c : Config) (D : Workday) (t : TaskId) (k : Task) (w : WorkerId) (E : Workday) :
    Prop where
  runs : D.shop.Runs t k w
  stopping : ∃ e, E.shop.pool.roster.find? w = some e ∧ e.status = .stopping
  others : ∀ v, v ≠ w → E.shop.pool.roster.find? v = D.shop.pool.roster.find? v
  /-- that is the only outcome, however often the task was still to be tried -/
  outcome : ∀ ms F, E.Path ms F →
    outcomes t F.shop.history = [.error (.timeout k.terms.timeout)]
  undispatched : ∀ ms F, E.Path ms F → told t F.shop.history = told t D.shop.history
  unhanded : ∀ ms F, E.Path ms F → handed w F.shop.history = handed w D.shop.history
  /-- its grace has passed, and the pool has caught up with it -/
  gone : ∀ ms F, E.Path ms F → F.CaughtUp w → D.clock + c.stopGrace.nanos ≤ F.clock →
    F.shop.pool.roster.find? w = none
  /-- no report of the worker starts anybody as long as it has its entry -/
  meanwhile : ∀ ms F m e, E.Path ms F →
    (F.shop.pool.handle m (.report w e)).roster.find? w ≠ none →
      hired (F.shop.pool.handle m (.report w e)).outbox = []
  /-- the message that takes the entry out starts one worker, whose number is new, if the pool was
  not stopped before and somebody can still send to it -/
  replaced : ∀ ms F m msg, E.Path ms F → (∀ caller, .call caller .stop ∉ ms) →
    F.shop.pool.roster.find? w ≠ none → (F.shop.pool.handle m msg).roster.find? w = none →
      hired (F.shop.pool.handle m msg).outbox
          = (if m.attached then [F.shop.pool.roster.nextId] else []) ∧
        F.shop.pool.roster.nextId ∉ hired F.shop.history
  /-- after that, whatever tells of the end of the worker does nothing -/
  once : ∀ ms F, E.Path ms F → F.shop.pool.roster.find? w = none → ∀ ns G, F.Path ns G →
    ∀ m msg, msg.leaver? = some w → G.shop.pool.handle m msg = G.shop.pool

/-- a timeout that takes effect evicts the worker of an attempt that runs -/
theorem Reachable.evicts (h : Reachable c D) (hs : D.Step (some (.ring (.taskTimeout t n))) E)
    (hx : E.shop.pool ≠ D.shop.pool) : ∃ k w q, k.attempt = n ∧ D.shop.Runs t k w ∧
      D.shop.pool.Evicts t k w q ∧ E.shop.pool = { q with outbox := [] } ∧
      E.shop.history = D.shop.history ++ q.outbox := by
  obtain ⟨m, hpool, hhist, _⟩ := hs.heard
  rcases h.shop.timeOut m with hsame | ⟨k, w, hn, hruns, hev⟩
  · refine absurd (hpool.trans ?_) hx
    rw [hsame, ← show D.shop.pool.outbox = [] from h.shop.inStep.tuned.outbox]
  · exact ⟨k, w, _, hn, hruns, hev, hpool, hhist⟩

/-- **a timeout that takes effect is final, and costs one worker its place**, which another takes -/
theorem Reachable.expired (h : Reachable c D) (hs : D.Step (some (.ring (.taskTimeout t n))) E)
    (hx : E.shop.pool ≠ D.shop.pool) : ∃ k w, k.attempt = n ∧ D.Expired c t k w E := by
  obtain ⟨k, w, q, hn, hruns, hev, hpool, hhist⟩ := h.evicts hs hx
  obtain ⟨es, hes, hdeliver, hbare⟩ := hev.outbox
  obtain ⟨e, he', hst, hmark⟩ := hev.worker
  have hE := h.step hs
  have he : E.shop.pool.roster.find? w = some e := by
    rw [hpool]
    exact he'
  have hlt := hE.shop.inStep.tuned.sound.lt_of_find? he
  have hall : ∀ x, E.shop.pool.roster.find? w = some x → x.status = .stopping := by
    intro x hx
    rw [he] at hx
    cases hx
    exact hst
  rw [hes, show D.shop.pool.outbox = [] from h.shop.inStep.tuned.outbox, List.nil_append] at hhist
  have hover : .deliver t (.error (.timeout k.terms.timeout)) ∈ E.shop.history := by
    rw [hhist]
    exact List.mem_append_right _ hdeliver
  have hrun : E.shop.pool.running = true := by
    obtain ⟨m, hpool, _⟩ := hs.heard
    rw [hpool]
    exact Pool.handle_on (m := m) h.shop.mustered (Pool.running_of_find? h.shop.closed hruns.task)
      fun _ hmsg => by cases hmsg
  have hcalled : CalledSince c (.stopDeadline w) D.clock E := by
    obtain ⟨e0, he0, hb, _⟩ := hruns.busy
    refine .begin h hs trivial rfl (Pool.want?_of_live he0 ?_) ?_
    · rw [hb]
      exact WorkerStatus.noConfusion
    · rw [Pool.want?_of_stopping he hst]
      exact Option.some_ne_none _
  refine ⟨k, w, hn, hruns, ⟨e, he, hst⟩, fun v hv => ?_, fun ms F hp => ?_, fun ms F hp => ?_,
    fun ms F hp => ?_, fun ms F hp => hcalled.gone hp, fun ms F m x hp hx => ?_,
    fun ms F m msg hp hms hthere hgone => ?_, fun ms F hp hgone ns G hp' m msg => ?_⟩
  · rw [hpool]
    exact hev.others v hv
  · exact (hE.shop.over_for_good hover hp.shop).2.2.2
  · rw [(hE.shop.over_for_good hover hp.shop).2.2.1, hhist, told_append, told_bare hbare,
      List.append_nil]
  · rw [hp.leaving hE hlt hall, hhist, handed_append, handed_bare hbare, List.append_nil]
  · have hin := (hE.path hp).shop.inStep
    rw [Pool.report_calm hin.tuned.sound hx, show F.shop.pool.outbox = [] from hin.tuned.outbox]
    rfl
  · exact ⟨hp.replaced hE hrun hms he hst hmark hthere hgone, (hE.path hp).shop.fresh⟩
  · have hlt' := Nat.lt_of_lt_of_le hlt (hp.fades hE).next
    exact hp'.unheard (hE.path hp) hlt' hgone m

/-! ## a timeout, and what comes of it -/

/-- a timer goes off just when its time has come -/
def alarmed (D : Workday) (x : Timer) : Workday where
  shop :=
    { D.shop with
      timers := D.shop.timers.filter fun y => y.id != x.id
      rung := D.shop.rung ++ [x.alarm] }
  clock := D.due x.id
  due := D.due
  callers := D.callers

theorem path_alarmed {x : Timer} (hx : x ∈ D.shop.timers) (hr : x.repeats = false)
    (hd : D.clock ≤ D.due x.id) : D.Path [] (D.alarmed x) := by
  have hlater := Path.refl.step (.pass (D := D) (D.due x.id) hd)
  have hrung := hlater.step (.ring x 0 hx (Nat.le_refl _))
  rw [hr] at hrung
  exact hrung

/-- the time of the attempt of `begun` is up -/
def overdue : Workday := begun.alarmed ⟨0, .taskTimeout ⟨7⟩ 1, false⟩

def evicted : Workday :=
  overdue.hear { overdue.shop with rung := [] } calmMoment (.ring (.taskTimeout ⟨7⟩ 1))

/-- the worker goes on, up to the deadline of its grace -/
def overstayed : Workday := evicted.alarmed ⟨1, .stopDeadline 1, false⟩

theorem reachable_overdue : Reachable Chronicle.single overdue :=
  reachable_begun.path (path_alarmed (.head _) rfl (by decide))

theorem step_evicted : overdue.Step (some (.ring (.taskTimeout ⟨7⟩ 1))) evicted :=
  .hear calmMoment (.ring (.taskTimeout ⟨7⟩ 1)) _ (trusts_calmMoment overdue)
    (.alarm (.taskTimeout ⟨7⟩ 1) (List.mem_singleton_self _)) (by decide)

theorem path_overstayed : evicted.Path [] overstayed := path_alarmed (.head _) rfl (by decide)

theorem pool_evicted : evicted.shop.pool ≠ overdue.shop.pool := by
  intro hsame
  have hnone : overdue.shop.pool.ledger.find? ⟨7⟩ = none := hsame ▸ rfl
  cases hnone

/-- worker 2 comes when worker 1 has to go -/
theorem expired_overdue : Reachable Chronicle.single overdue ∧
    evicted.shop.pool ≠ overdue.shop.pool ∧
    (∃ k, overdue.shop.pool.ledger.find? ⟨7⟩ = some k ∧
      outcomes ⟨7⟩ overstayed.shop.history = [.error (.timeout k.terms.timeout)]) ∧
    hired (overstayed.shop.pool.handle calmMoment (.ring (.stopDeadline 1))).outbox = [2] := by
  obtain ⟨k, w, _, h⟩ := Reachable.expired reachable_overdue step_evicted pool_evicted
  obtain rfl : w = 1 := (Option.some.inj h.runs.told).symm
  have hnext := h.replaced [] overstayed calmMoment (.ring (.stopDeadline 1)) path_overstayed
    (fun _ => List.not_mem_nil) (by decide) (by decide)
  exact ⟨reachable_overdue, pool_evicted,
    ⟨k, h.runs.task, h.outcome [] overstayed path_overstayed⟩, hnext.1⟩

/-! ## when nobody is left who can send to the pool -/

def collapsed : Bench :=
  let stuck := (working.pop []).tell .terminate
  { stuck with worker := (stuck.worker.finish 0 (.panic (some "out of disk"))).1 }

def perished : Bench :=
  { collapsed with
    reported := true
    outgoing := (Ending.panicked "out of disk").events }

/-- nobody holds on to the pool any more, and the worker has panicked -/
def abandoned : Workday :=
  { evicted with
    shop := ({ evicted.shop with held := false }.setBench 1 collapsed).setBench 1 perished }

/-- the deadline of its grace goes off before the pool hears of that -/
def deserted : Workday := abandoned.alarmed ⟨1, .stopDeadline 1, false⟩

theorem path_deserted : evicted.Path [] deserted := by
  have hleft := Path.refl.step (.letGo (D := evicted))
  have hcollapsed := hleft.step (.turn 1 ((working.pop []).tell .terminate) collapsed rfl
    (.finish 0 (.panic (some "out of disk"))))
  have hperished := hcollapsed.step
    (.turn 1 collapsed perished rfl (.watch (.panicked "out of disk") rfl rfl))
  exact hperished.trans (path_alarmed (D := abandoned) (.head _) rfl (by decide))

theorem trusts_deserted : deserted.Trusts ⟨⟨0, 0⟩, [], false⟩ := by
  refine ⟨⟨fun hheld => (nomatch hheld), fun w hw => (nomatch hw)⟩, fun ht => absurd rfl ht,
    fun w b hb hr => ?_⟩
  have hreach := (reachable_overdue.step step_evicted).path path_deserted
  have hlt : w < 2 := hreach.shop.lt_nextId hb
  rcases Nat.le_one_iff_eq_zero_or_eq_one.mp (Nat.le_of_lt_succ hlt) with rfl | rfl
  · cases hb
  · cases hb
    cases hr

/-- **the place is not taken if nobody can send to the pool any more** when the worker is gone -/
theorem unreplaced : ¬ ∀ (c : Config) (D E F : Workday) (t : TaskId) (n : UInt32) (k : Task)
    (w : WorkerId) (ms : List Message) (m : Moment) (msg : Message) (W : Workshop), Reachable c D →
    D.Step (some (.ring (.taskTimeout t n))) E → E.shop.pool ≠ D.shop.pool → D.shop.Runs t k w →
    E.Path ms F → (∀ caller, .call caller .stop ∉ ms) → F.Trusts m → F.shop.Takes msg W →
    F.shop.pool.roster.find? w ≠ none → (F.hear W m msg).shop.pool.roster.find? w = none →
      ∃ v, hired (F.hear W m msg).shop.history = hired F.shop.history ++ [v] := by
  intro hall
  obtain ⟨k, w, _, _, hruns, _⟩ := reachable_overdue.evicts step_evicted pool_evicted
  obtain rfl : w = 1 := (Option.some.inj hruns.told).symm
  obtain ⟨v, hv⟩ := hall Chronicle.single overdue evicted deserted ⟨7⟩ 1 k 1 []
    ⟨⟨0, 0⟩, [], false⟩ (.ring (.stopDeadline 1)) _ reachable_overdue step_evicted pool_evicted
    hruns path_deserted (fun _ => List.not_mem_nil) trusts_deserted
    (.alarm (.stopDeadline 1) (List.mem_singleton_self _)) (by decide) (by decide)
  have hone : [1] = [1] ++ [v] := hv
  cases hone

end Workday

end TaskPool
