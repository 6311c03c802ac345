import TaskPool.Proofs.Size

/-!
# What is on record about a worker

Beside what a worker is doing its entry says what is known about it: how many attempts it ran, which
kinds of task it is to prefer, and what it used when it was asked last.

* `Entry.profile`        this part of an entry
* `Pool.jot p msg`       what a message tells about a worker is written into its entry
* `Pool.Upholds p q`     entries keep their profiles from `p` to `q`, and new ones have a blank one
* `handle_upholds`       apart from what it tells, no message changes a profile

Why the changes of a message are written down first: a report of a worker that has nothing to do
with its task any more is counted all the same, so they depend on nothing that comes after.
-/

namespace TaskPool

structure Profile where
  processed : Nat
  failed : Nat
  affinity : Option KindSet
  cpu : Option Float
  memory : Option Nat

/-- nothing is known -/
def Profile.blank : Profile := ⟨0, 0, none, none, none⟩

def Entry.profile (e : Entry) : Profile := ⟨e.processed, e.failed, e.affinity, e.cpu, e.memory⟩

namespace Roster

def profile (r : Roster) (w : WorkerId) : Option Profile := (r.find? w).map Entry.profile

theorem profile_eq_some {r : Roster} {w : WorkerId} {x : Profile} (h : r.profile w = some x) :
    ∃ e, r.find? w = some e ∧ e.profile = x := Option.map_eq_some_iff.mp h

theorem profile_of_find? {r : Roster} {w : WorkerId} {e : Entry} (h : r.find? w = some e) :
    r.profile w = some e.profile := by
  rw [profile, h]
  rfl

end Roster

namespace Pool

/-- what a message tells about a worker is written into its entry -/
def jot (p : Pool) : Message → Pool
  | .report w (.result _ _) => p.updateEntry w fun e => { e with processed := e.processed + 1 }
  | .report w (.error _ _) => p.updateEntry w fun e => { e with failed := e.failed + 1 }
  | .report w (.metrics sample) => p.updateEntry w fun e => e.recordMetrics sample
  | .call _ (.setAffinity w kinds) => p.updateEntry w fun e => { e with affinity := some kinds }
  | .call _ (.clearAffinity w) => p.updateEntry w fun e => { e with affinity := none }
  | _ => p

/-- from `p` to `q` entries keep their profiles, and those that come new have a blank one -/
structure Upholds (p q : Pool) : Prop where
  sound : q.roster.Sound
  next : p.roster.nextId ≤ q.roster.nextId
  profiles : ∀ w x, q.roster.profile w = some x →
    p.roster.profile w = some x ∨ (p.roster.nextId ≤ w ∧ x = .blank)

variable {m : Moment}

namespace Upholds

theorem trans {p q r : Pool} (h1 : Upholds p q) (h2 : Upholds q r) : Upholds p r := by
  refine ⟨h2.sound, Nat.le_trans h1.next h2.next, ?_⟩
  intro w x hx
  rcases h2.profiles w x hx with hq | ⟨hle, hblank⟩
  · exact h1.profiles w x hq
  · exact .inr ⟨Nat.le_trans h1.next hle, hblank⟩

/-- what happens outside the roster is no matter -/
theorem trans_same {p q r : Pool} (h : Upholds p q) (hr : r.roster = q.roster) : Upholds p r := by
  refine ⟨hr ▸ h.sound, ?_, ?_⟩
  · rw [hr]
    exact h.next
  · intro w x hx
    rw [hr] at hx
    exact h.profiles w x hx

section
variable {p q : Pool} (h : p.roster.Sound)
include h

theorem same (hr : q.roster = p.roster) : Upholds p q :=
  trans_same ⟨h, Nat.le_refl _, fun _ _ hx => .inl hx⟩ hr

theorem refl : Upholds p p := .same h rfl

theorem modify {w : WorkerId} {f : Entry → Entry} (hr : q.roster = p.roster.modify w f)
    (hf : ∀ e, (f e).worker = e.worker) (hp : ∀ e, (f e).profile = e.profile) : Upholds p q := by
  refine ⟨hr ▸ h.modify f hf w, by rw [hr]; exact Nat.le_refl _, ?_⟩
  intro v x hx
  obtain ⟨e, he, rfl⟩ := Roster.profile_eq_some hx
  rw [hr] at he
  left
  rcases Roster.find?_modify_some he hf with ⟨_, e0, h0, rfl⟩ | ⟨_, h0⟩
  · rw [Roster.profile_of_find? h0, hp]
  · exact Roster.profile_of_find? h0

theorem removed (w : WorkerId) (e : Entry) : Upholds p ((p.dropEntry w).dispose e) := by
  have hr : ((p.dropEntry w).dispose e).roster = p.roster.erase w := dispose_roster _ e
  refine ⟨hr ▸ h.erase w, by rw [hr]; exact Nat.le_refl _, ?_⟩
  intro v x hx
  rw [hr, Roster.profile, Roster.find?_erase] at hx
  split at hx
  · cases hx
  · exact .inl hx

theorem hire : Upholds p (p.hire m) := by
  by_cases ha : m.attached = true
  · rw [hire_of_attached ha]
    refine ⟨h.enrol m.now, Nat.le_succ _, ?_⟩
    intro w x hx
    have hx' : ((p.roster.enrol m.now).find? w).map Entry.profile = some x := hx
    rw [Roster.find?_enrol] at hx'
    split at hx'
    · rename_i hw
      cases hx'
      exact .inr ⟨Nat.le_of_eq hw.symm, rfl⟩
    · exact .inl hx'
  · rw [hire_of_detached (by simpa using ha)]
    exact .refl h

theorem hireMany (n : Nat) : Upholds p (hireMany m n p) := by
  induction n generalizing p with
  | zero => exact .refl h
  | succ n ih =>
    have hone := Upholds.hire (m := m) h
    exact hone.trans (ih hone.sound)

theorem assign (w : WorkerId) : Upholds p (assign m p w) := by
  unfold Pool.assign
  split
  · exact .refl h
  · split
    · split
      · exact .refl h
      · rename_i t rest _
        split
        · exact .same h rfl
        · split
          · exact .modify h rfl (fun _ => rfl) fun _ => rfl
          · exact .same h rfl
    · exact .refl h

theorem assignEach (ws : List WorkerId) : Upholds p (assignEach m ws p) := by
  induction ws generalizing p with
  | nil => exact .refl h
  | cons w ws ih =>
    rw [Pool.assignEach]
    split
    · exact .refl h
    · have hone := Upholds.assign (m := m) h w
      exact hone.trans (ih hone.sound)

theorem enqueue {ledger : Ledger} (t : Ticket) :
    Upholds p (enqueue m { p with ledger := ledger } t) := by
  have hpush : Upholds p { p with
      ledger := ledger
      queue := p.queue.push t } := .same h rfl
  exact hpush.trans (.assignEach hpush.sound _)

theorem stopWorker (waiter : Option CallId) (w : WorkerId) :
    Upholds p (stopWorker m waiter p w) := by
  cases he : p.roster.find? w with
  | none =>
    rw [stopWorker_of_gone waiter he]
    obtain ⟨s, r, hw, _⟩ := foldl_wake_eq waiter.toList p
    rw [hw]
    exact .same h rfl
  | some e =>
    by_cases hs : e.status = .stopping
    · rw [stopWorker_of_stopping waiter he hs]
      exact .modify h rfl (fun _ => rfl) fun _ => rfl
    · rw [stopWorker_of_live waiter he hs]
      exact .modify h rfl (fun _ => rfl) fun _ => rfl

theorem stopAll (waiter : Option CallId) (ws : List WorkerId) :
    Upholds p (ws.foldl (Pool.stopWorker m waiter) p) := by
  induction ws generalizing p with
  | nil => exact .refl h
  | cons w ws ih =>
    have hone := Upholds.stopWorker (m := m) h waiter w
    exact hone.trans (ih hone.sound)

theorem finishStop (w : WorkerId) : Upholds p (finishStop m p w) := by
  cases he : p.roster.find? w with
  | none =>
    unfold Pool.finishStop
    rw [he]
    exact .refl h
  | some e =>
    have hgone := Upholds.removed h w e
    rw [finishStop_eq he]
    split
    · exact hgone.trans (.hire hgone.sound)
    · exact hgone

theorem crash (w : WorkerId) (detail : String) : Upholds p (crash m p w detail) := by
  unfold Pool.crash
  cases he : p.roster.find? w with
  | none => exact .refl h
  | some e =>
    by_cases hs : e.status = .stopping
    · simp only [if_pos hs]
      exact .finishStop h w
    · simp only [if_neg hs]
      have hgone := Upholds.removed h w e
      -- what becomes of the task of the worker is no matter
      have hfill {q : Pool} (hq : Upholds p q) : Upholds p (if q.running then q.hire m else q) := by
        split
        · exact hq.trans (.hire hq.sound)
        · exact hq
      cases e.task with
      | none => exact hfill hgone
      | some t => exact hfill (hgone.trans_same (failTask_roster _ t _))

theorem start : Upholds p (start m p) := by
  unfold Pool.start
  split
  · exact .refl h
  · have hopen : Upholds p { p with running := true } := .same h rfl
    have hmany := hopen.trans (.hireMany (m := m) hopen.sound
      (p.config.minWorkers - p.roster.live.length))
    dsimp only
    split
    · exact hmany.trans_same (armTicks_roster _)
    · exact hmany

theorem stop (caller : CallId) : Upholds p (stop m p caller) := by
  rw [stop_eq]
  split
  · exact .same h rfl
  · have hshut : Upholds p { p.shut with
        stops := p.shut.stops ++ [⟨caller, p.shut.roster.ids.length⟩] } := .same h rfl
    exact hshut.trans (.stopAll hshut.sound _ _)

theorem timeOut (task : TaskId) (attempt : UInt32) : Upholds p (timeOut m p task attempt) := by
  unfold Pool.timeOut
  split
  · exact .refl h
  · rename_i worker ledger consequences _
    have hpost : Upholds p (p.post ledger consequences) := .same h rfl
    cases worker with
    | none => exact hpost
    | some w =>
      dsimp only
      split
      · have hmark : Upholds (p.post ledger consequences)
            ((p.post ledger consequences).updateEntry w
              fun e => { e with replaceOnExit := true }) :=
          .modify hpost.sound rfl (fun _ => rfl) fun _ => rfl
        exact (hpost.trans hmark).trans (.stopWorker hmark.sound none w)
      · exact hpost

theorem retry (task : TaskId) : Upholds p (retry m p task) := by
  unfold Pool.retry
  split
  · split
    · exact .refl h
    · exact .enqueue h _
  · exact .refl h

theorem autoscale : Upholds p (autoscale m p) := by
  by_cases hr : p.running = true
  · rw [autoscale_of_running hr]
    have hask : Upholds p (requestMetrics m p none).2 := .same h rfl
    generalize (requestMetrics m p none).2 = q at *
    generalize (p.gauge.plan p.config m.now).decision = d
    have hdone : Upholds q (carryOut m q d) := by
      cases d with
      | up n => exact .hireMany hask.sound n
      | down ws => exact .stopAll hask.sound none ws
      | hold => exact .refl hask.sound
    exact (hask.trans hdone).trans (.stopAll hdone.sound none _)
  · rw [autoscale_of_stopped (by simpa using hr)]
    exact .refl h

end

end Upholds

/-! ## every message -/

section
variable {p : Pool} (h : p.roster.Sound)
include h

theorem jot_sound (msg : Message) : (p.jot msg).roster.Sound := by
  unfold jot
  split
  · exact h.modify (fun e => { e with processed := e.processed + 1 }) (fun _ => rfl) _
  · exact h.modify (fun e => { e with failed := e.failed + 1 }) (fun _ => rfl) _
  · rename_i sample
    exact h.modify (fun e => e.recordMetrics sample) (fun _ => rfl) _
  · rename_i kinds
    exact h.modify (fun e => { e with affinity := some kinds }) (fun _ => rfl) _
  · exact h.modify (fun e => { e with affinity := none }) (fun _ => rfl) _
  · exact h

theorem call_upholds (caller : CallId) (r : Request) :
    Upholds (p.jot (.call caller r)) (call m p caller r) := by
  have hjot := jot_sound h (.call caller r)
  cases r with
  | start => exact (Upholds.start h).trans_same rfl
  | stop => exact .stop h caller
  | submit id kind payload options =>
    unfold call
    dsimp only
    split
    · exact .same h rfl
    · have hsub : Upholds p (submit m p id (terms p.config kind payload options)) := .enqueue h _
      exact hsub.trans_same rfl
  | _ => exact .same hjot rfl

theorem report_upholds (w : WorkerId) (event : Event) :
    Upholds (p.jot (.report w event)) (report m p w event) := by
  have hjot := jot_sound h (.report w event)
  have hidle : Upholds p (Pool.assign m (p.updateEntry w fun e => e.setIdle m.now) w) := by
    have hset : Upholds p (p.updateEntry w fun e => e.setIdle m.now) :=
      .modify h rfl (fun _ => rfl) fun _ => rfl
    exact hset.trans (.assign hset.sound w)
  cases event with
  | ready | idle =>
    simp only [report]
    split
    · exact .refl h
    · split
      · exact hidle
      · exact .refl h
  | busy t =>
    simp only [report]
    split
    · exact .refl h
    · have hset : Upholds p (p.updateEntry w fun e => e.setBusy t m.now) :=
        .modify h rfl (fun _ => rfl) fun _ => rfl
      split
      · exact .same h (startAttempt_roster p t w)
      · exact hset.trans_same (startAttempt_roster _ t w)
  | result t v =>
    simp only [report]
    split
    · split
      · exact .refl hjot
      · exact .same hjot rfl
    · exact .refl hjot
  | error t detail =>
    simp only [report]
    split
    · exact .same hjot (failTask_roster _ t _)
    · exact .refl hjot
  | fatal detail => exact .crash h w detail
  | metrics sample => exact .refl hjot
  | exited graceful => exact .crash h w _

/-- **apart from what it tells about a worker, no message changes what is on record** -/
theorem handle_upholds (msg : Message) : Upholds (p.jot msg) (p.handle m msg) := by
  cases msg with
  | call caller r => exact call_upholds h caller r
  | report w event => exact report_upholds h w event
  | ring alarm =>
    cases alarm with
    | taskTimeout t attempt => exact .timeOut h t attempt
    | retryDue t => exact .retry h t
    | stopDeadline w =>
      show Upholds p (ring m p (.stopDeadline w))
      unfold ring
      dsimp only
      split
      · exact .refl h
      · split
        · exact .finishStop h w
        · exact .refl h
    | autoscaleTick => exact .autoscale h

end

theorem jot_nextId (p : Pool) (msg : Message) :
    (p.jot msg).roster.nextId = p.roster.nextId := by
  unfold jot
  split <;> rfl

end Pool

end TaskPool
