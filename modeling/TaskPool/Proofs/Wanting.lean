import TaskPool.Proofs.Diary
import TaskPool.Proofs.Lasting
import TaskPool.Proofs.Restart
import TaskPool.Proofs.Workday

/-!
# What the records call for

A task that runs calls for the timeout of its attempt, a task that is to be tried again calls for
its next attempt, and a worker that is stopping calls for the deadline of its grace.

* `Pool.want?`           the timer that is kept for an alarm, and when the alarm is due
* `Pool.Past`            an alarm that was called for once and can only come too late
* `Message.Begins`       the messages that give rise to an alarm
* `ring_of_unwanted`     an alarm that is not called for changes nothing
* `want?_handled`        an alarm that was handled is not called for, unless another attempt is

Why the number of retries tells: attempts are numbered from one, and an attempt that failed has
raised the number of retries to its own.
-/

namespace TaskPool

open Function Relation

/-! ## what the records call for -/

def Alarm.task? : Alarm → Option TaskId
  | .taskTimeout t _ | .retryDue t => some t
  | _ => none

def Task.want? (k : Task) : Alarm → Option Want
  | .taskTimeout _ n =>
    if k.status = .running ∧ k.attempt = n then some ⟨k.timer, k.terms.timeout⟩ else none
  | .retryDue _ => if k.status = .retrying then some ⟨k.timer, k.terms.retryDelay⟩ else none
  | _ => none

def Entry.want? (grace : Duration) (e : Entry) : Option Want :=
  if e.status = .stopping then some ⟨e.stopTimer, grace⟩ else none

/-- what the timers of a task depend on -/
def Task.dial (k : Task) : Status × UInt32 × UInt32 × Option TimerId × Terms :=
  (k.status, k.attempt, k.retries, k.timer, k.terms)

/-- what the timer of a worker depends on -/
def Entry.dial (e : Entry) : Bool × Option TimerId := (e.status == .stopping, e.stopTimer)

theorem Task.want?_of_dial {k k' : Task} (h : k'.dial = k.dial) (a : Alarm) :
    k'.want? a = k.want? a := by
  simp only [dial, Prod.mk.injEq] at h
  obtain ⟨hs, ha, _, ht, hterms⟩ := h
  unfold want?
  rw [hs, ha, ht, hterms]

theorem Entry.want?_of_dial {e e' : Entry} (h : e'.dial = e.dial) (grace : Duration) :
    e'.want? grace = e.want? grace := by
  simp only [dial, Prod.mk.injEq] at h
  have hs : e'.status = .stopping ↔ e.status = .stopping := by
    rw [← beq_iff_eq (α := WorkerStatus), h.1, beq_iff_eq]
  unfold want?
  rw [h.2]
  by_cases he : e.status = .stopping
  · rw [if_pos he, if_pos (hs.mpr he)]
  · rw [if_neg he, if_neg fun hn => he (hs.mp hn)]

/-- who is not on its way out keeps no timer that depends on what it does -/
theorem Entry.dial_of_live {e e' : Entry} (hs : e.status ≠ .stopping) (hs' : e'.status ≠ .stopping)
    (ht : e'.stopTimer = e.stopTimer) : e'.dial = e.dial := by
  rw [dial, dial, ht, beq_eq_false_iff_ne.mpr hs, beq_eq_false_iff_ne.mpr hs']

/-- an idle task keeps no timer -/
def Task.Bare (k : Task) : Prop := k.status ≠ .running → k.status ≠ .retrying → k.timer = none

theorem Task.bare_of_want? {k : Task} {a : Alarm} (h : k.want? a ≠ none) : k.Bare := by
  intro hrun hret
  refine absurd ?_ h
  cases a with
  | taskTimeout => exact if_neg fun hx => hrun hx.1
  | retryDue => exact if_neg hret
  | _ => rfl

/-- whoever keeps a timer calls for its alarm -/
theorem Task.Bare.want? {k : Task} (h : k.Bare) {i : TimerId} (hi : k.timer = some i) (t : TaskId) :
    ∃ a d, a.task? = some t ∧ a ≠ .autoscaleTick ∧ k.want? a = some ⟨some i, d⟩ := by
  by_cases hrun : k.status = .running
  · refine ⟨.taskTimeout t k.attempt, k.terms.timeout, rfl, Alarm.noConfusion, ?_⟩
    rw [Task.want?, if_pos ⟨hrun, rfl⟩, hi]
  · by_cases hret : k.status = .retrying
    · refine ⟨.retryDue t, k.terms.retryDelay, rfl, Alarm.noConfusion, ?_⟩
      rw [Task.want?, if_pos hret, hi]
    · rw [h hrun hret] at hi
      cases hi

/-- a task that calls for an alarm keeps the timer for it -/
theorem Task.kept_of_want? {k : Task} {a : Alarm} {w : Want} (h : k.want? a = some w) :
    w.kept = k.timer := by
  cases a with
  | taskTimeout t n =>
    simp only [want?] at h
    split at h
    · cases h
      rfl
    · cases h
  | retryDue t =>
    simp only [want?] at h
    split at h
    · cases h
      rfl
    · cases h
  | _ => cases h

/-- the message gives rise to the alarm -/
def Message.Begins (msg : Message) : Alarm → Prop
  | .taskTimeout t _ => ∃ w, msg = .report w (.busy t)
  | .retryDue t => (∃ w detail, msg = .report w (.error t detail)) ∨
      ∃ w event detail, msg = .report w event ∧ Pool.crashDetail? event = some detail
  | _ => True

namespace Pool

/-- what the records call for -/
def want? (p : Pool) : Alarm → Option Want
  | .taskTimeout t n => (p.ledger.find? t).bind (Task.want? · (.taskTimeout t n))
  | .retryDue t => (p.ledger.find? t).bind (Task.want? · (.retryDue t))
  | .stopDeadline w => (p.roster.find? w).bind (Entry.want? p.config.stopGrace)
  | .autoscaleTick => none

/-- it was called for once, and can only come too late -/
def Past (p : Pool) (taken : List TaskId) : Alarm → Prop
  | .taskTimeout t n => t ∈ taken ∧ ∀ k, p.ledger.find? t = some k → n ≠ 0 ∧ n ≤ k.retries
  | .retryDue t => t ∈ taken ∧ p.ledger.find? t = none
  | .stopDeadline w => w < p.roster.nextId ∧ p.roster.find? w = none
  | .autoscaleTick => False

theorem want?_task (p : Pool) {a : Alarm} {t : TaskId} (ha : a.task? = some t) :
    p.want? a = (p.ledger.find? t).bind (Task.want? · a) := by
  cases a with
  | taskTimeout | retryDue =>
    cases ha
    rfl
  | _ => cases ha

/-- an alarm is called for by one record -/
theorem want?_congr {p q : Pool} (a : Alarm)
    (hl : ∀ t, a.task? = some t → (q.ledger.find? t).bind (Task.want? · a)
      = (p.ledger.find? t).bind (Task.want? · a))
    (hr : ∀ w, a = .stopDeadline w → (q.roster.find? w).bind (Entry.want? q.config.stopGrace)
      = (p.roster.find? w).bind (Entry.want? p.config.stopGrace)) : q.want? a = p.want? a := by
  cases a with
  | taskTimeout t n => exact hl t rfl
  | retryDue t => exact hl t rfl
  | stopDeadline w => exact hr w rfl
  | autoscaleTick => rfl

theorem want?_stopDeadline {p : Pool} {w : WorkerId} {x : Want}
    (h : p.want? (.stopDeadline w) = some x) :
    ∃ e, p.roster.find? w = some e ∧ e.status = .stopping ∧
      x = ⟨e.stopTimer, p.config.stopGrace⟩ := by
  obtain ⟨e, he, hx⟩ := Option.bind_eq_some_iff.mp h
  unfold Entry.want? at hx
  split at hx
  · rename_i hs
    cases hx
    exact ⟨e, he, hs, rfl⟩
  · cases hx

theorem want?_of_stopping {p : Pool} {w : WorkerId} {e : Entry} (he : p.roster.find? w = some e)
    (hs : e.status = .stopping) :
    p.want? (.stopDeadline w) = some ⟨e.stopTimer, p.config.stopGrace⟩ := by
  show (p.roster.find? w).bind _ = _
  rw [he]
  exact if_pos hs

theorem want?_of_live {p : Pool} {w : WorkerId} {e : Entry} (he : p.roster.find? w = some e)
    (hs : e.status ≠ .stopping) : p.want? (.stopDeadline w) = none := by
  show (p.roster.find? w).bind _ = _
  rw [he]
  exact if_neg hs

theorem want?_of_unlisted {p : Pool} {a : Alarm} {t : TaskId} (ha : a.task? = some t)
    (ht : p.ledger.find? t = none) : p.want? a = none := by
  rw [want?_task p ha, ht]
  rfl

/-- the past only grows -/
theorem Past.mono {p q : Pool} {taken taken' : List TaskId} {a : Alarm} (h : p.Past taken a)
    (ht : taken ⊆ taken')
    (hl : ∀ t ∈ taken, ∀ k', q.ledger.find? t = some k' →
      ∃ k, p.ledger.find? t = some k ∧ k.retries ≤ k'.retries)
    (hn : p.roster.nextId ≤ q.roster.nextId)
    (hr : ∀ w, w < p.roster.nextId → p.roster.find? w = none → q.roster.find? w = none) :
    q.Past taken' a := by
  cases a with
  | taskTimeout t n =>
    refine ⟨ht h.1, fun k' hk' => ?_⟩
    obtain ⟨k, hk, hle⟩ := hl t h.1 k' hk'
    obtain ⟨hn0, hnk⟩ := h.2 k hk
    exact ⟨hn0, Nat.le_trans hnk hle⟩
  | retryDue t =>
    refine ⟨ht h.1, ?_⟩
    cases hq : q.ledger.find? t with
    | none => rfl
    | some k' =>
      obtain ⟨k, hk, _⟩ := hl t h.1 k' hq
      rw [h.2] at hk
      cases hk
  | stopDeadline w => exact ⟨Nat.lt_of_lt_of_le h.1 hn, hr w h.1 h.2⟩
  | autoscaleTick => exact h

/-! ## alarms that come too late, and those that do not -/

/-- **an alarm that the records do not call for changes nothing** -/
theorem ring_of_unwanted {p : Pool} {a : Alarm} (ha : a ≠ .autoscaleTick) (hw : p.want? a = none)
    (m : Moment) : p.handle m (.ring a) = p := by
  cases a with
  | taskTimeout t n =>
    show timeOut m p t n = p
    unfold timeOut
    cases ht : p.ledger.timeOut t n with
    | none => rfl
    | some r =>
      obtain ⟨worker, ledger, cs⟩ := r
      obtain ⟨k, hk, hs, hn, _⟩ := Ledger.timeOut_eq_some ht
      rw [want?_task p rfl, hk] at hw
      have hno : ¬ (k.status = .running ∧ k.attempt = n) := fun hyes => by
        have hw' : k.want? (.taskTimeout t n) = none := hw
        rw [Task.want?, if_pos hyes] at hw'
        cases hw'
      exact absurd ⟨hs, hn⟩ hno
  | retryDue t =>
    show retry m p t = p
    unfold retry
    split
    · cases ht : p.ledger.resetForRetry t with
      | none => rfl
      | some r =>
        obtain ⟨k, hk, hs, _⟩ := Ledger.resetForRetry_eq_some ht
        rw [want?_task p rfl, hk] at hw
        have hw' : k.want? (.retryDue t) = none := hw
        rw [Task.want?, if_pos hs] at hw'
        cases hw'
    · rfl
  | stopDeadline w =>
    cases he : p.roster.find? w with
    | none => simp only [handle, ring, he]
    | some e =>
      have hs : e.status ≠ .stopping := by
        intro hs
        rw [want?_of_stopping he hs] at hw
        cases hw
      simp only [handle, ring, he, if_neg hs]
  | autoscaleTick => exact absurd rfl ha

/-- nothing calls any more for a timeout or a deadline that was handled -/
theorem want?_handled {p : Pool} (hs : p.roster.Sound) {a : Alarm} (ha : ∀ t, a ≠ .retryDue t)
    (m : Moment) : (p.handle m (.ring a)).want? a = none := by
  cases a with
  | taskTimeout t n =>
    by_cases hw : p.want? (.taskTimeout t n) = none
    · rw [ring_of_unwanted Alarm.noConfusion hw]
      exact hw
    · obtain ⟨x, hx⟩ := Option.ne_none_iff_exists'.mp hw
      obtain ⟨k, hk, hkw⟩ := Option.bind_eq_some_iff.mp hx
      have hyes : k.status = .running ∧ k.attempt = n :=
        Classical.byContradiction fun hno => by
          rw [Task.want?, if_neg hno] at hkw
          cases hkw
      refine want?_of_unlisted rfl ?_
      show (timeOut m p t n).ledger.find? t = none
      have hledger : (timeOut m p t n).ledger = p.ledger.erase t := by
        unfold timeOut Ledger.timeOut
        rw [hk]
        simp only [if_pos hyes]
        cases k.worker with
        | none => rfl
        | some w =>
          dsimp only
          split
          · exact stopWorker_ledger none _ w
          · rfl
      rw [hledger, Ledger.find?_erase, if_pos rfl]
  | retryDue t => exact absurd rfl (ha t)
  | stopDeadline w =>
    by_cases hw : p.want? (.stopDeadline w) = none
    · rw [ring_of_unwanted Alarm.noConfusion hw]
      exact hw
    · obtain ⟨x, hx⟩ := Option.ne_none_iff_exists'.mp hw
      obtain ⟨e, he, hst, _⟩ := want?_stopDeadline hx
      have hq : p.handle m (.ring (.stopDeadline w)) = finishStop m p w := by
        simp only [handle, ring, he, if_pos hst]
      rw [hq]
      show ((finishStop m p w).roster.find? w).bind _ = none
      rw [finishStop_gone hs]
      rfl
  | autoscaleTick => rfl

end Pool

end TaskPool
