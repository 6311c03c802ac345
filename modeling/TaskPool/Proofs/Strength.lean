import TaskPool.Proofs.Agreement
import TaskPool.Proofs.Plan

/-!
# How many workers there are to be

A stopping worker whose place is to be taken still counts: it leaves, and another one comes.

* `Pool.pending`      the stopping workers whose place is to be taken
* `Pool.strength`     the live workers and those
* `Mustered`          what keeps the count right: only a worker that is asked to stop is marked for
                      replacement, and none is kept as crashed
* `Shifts k p q`      the pool stays mustered and gets stronger by `k`
* `handle_balances`   of all messages, only a start, a stop and a tick change the strength
* `autoscale_shifts`  a tick changes it by what its plan says
* `Reachable.strength_kept`   so it is throughout, and a running pool has its minimum

Why a crash and a late exit balance: either takes one entry that counts out of the roster, and
either starts one worker; whoever is told of the same death again finds no entry.
-/

namespace TaskPool

open Relation

namespace Entry

/-- a stopping worker whose place is to be taken -/
def isPending (e : Entry) : Bool := e.status == .stopping && e.replaceOnExit

def counts (e : Entry) : Bool := e.isLive || e.isPending

/-- not kept as crashed, and not marked for replacement before it is asked to stop -/
structure Regular (e : Entry) : Prop where
  uncrashed : e.status ≠ .crashed
  unmarked : e.status ≠ .stopping → e.replaceOnExit = false

theorem Regular.counts_of_live {e : Entry} (h : e.Regular) (hs : e.status ≠ .stopping) :
    e.counts = true := by
  rw [counts, Pool.isLive_of_status hs h.uncrashed]
  rfl

theorem counts_of_stopping {e : Entry} (hs : e.status = .stopping) :
    e.counts = e.replaceOnExit := by
  simp [counts, isPending, isLive, hs, WorkerStatus.isLive]

end Entry

namespace Roster

theorem countP_counts (es : List Entry) :
    es.countP Entry.counts = es.countP Entry.isLive + es.countP Entry.isPending := by
  induction es with
  | nil => rfl
  | cons e es ih =>
    rw [List.countP_cons, List.countP_cons, List.countP_cons, ih]
    have hone : (if e.counts = true then 1 else 0)
        = (if e.isLive = true then 1 else 0) + (if e.isPending = true then 1 else 0) := by
      unfold Entry.counts Entry.isPending Entry.isLive
      cases e.status <;> simp [WorkerStatus.isLive]
    omega

/-- from `r` to `r'`, whoever was asked to stop stays so, and marked as it was, until it is gone
for good -/
structure Fades (r r' : Roster) : Prop where
  next : r.nextId ≤ r'.nextId
  gone : ∀ w < r.nextId, r.find? w = none → r'.find? w = none
  kept : ∀ w < r.nextId, ∀ e e', r.find? w = some e → e.status = .stopping →
    r'.find? w = some e' → e'.status = .stopping ∧ e'.replaceOnExit = e.replaceOnExit

theorem Fades.refl (r : Roster) : Fades r r := by
  refine ⟨Nat.le_refl _, fun _ _ => id, fun w _ e e' he hst he' => ?_⟩
  rw [he] at he'
  cases he'
  exact ⟨hst, rfl⟩

theorem Fades.trans {r r' r'' : Roster} (h1 : Fades r r') (h2 : Fades r' r'') : Fades r r'' := by
  have hlt {w : WorkerId} (hw : w < r.nextId) : w < r'.nextId := Nat.lt_of_lt_of_le hw h1.next
  refine ⟨Nat.le_trans h1.next h2.next, fun w hw hn => ?_, fun w hw e e'' he hst he'' => ?_⟩
  · exact h2.gone w (hlt hw) (h1.gone w hw hn)
  · cases he' : r'.find? w with
    | none =>
      rw [h2.gone w (hlt hw) he'] at he''
      cases he''
    | some e' =>
      obtain ⟨hst', hm'⟩ := h1.kept w hw e e' he hst he'
      obtain ⟨hst'', hm''⟩ := h2.kept w (hlt hw) e' e'' he' hst' he''
      exact ⟨hst'', hm''.trans hm'⟩

theorem Fades.modify (r : Roster) {a : WorkerId} {f : Entry → Entry}
    (hf : ∀ e, (f e).worker = e.worker) (h : ∀ e, r.find? a = some e → e.status = .stopping →
      (f e).status = .stopping ∧ (f e).replaceOnExit = e.replaceOnExit) :
    Fades r (r.modify a f) := by
  refine ⟨Nat.le_refl _, fun w _ hn => ?_, fun w _ e e' he hst he' => ?_⟩
  · rw [find?_modify r f hf]
    split
    · rw [hn]
      rfl
    · exact hn
  · rcases find?_modify_some he' hf with ⟨rfl, e0, h0, rfl⟩ | ⟨_, h0⟩
    · rw [he] at h0
      cases h0
      exact h e he hst
    · rw [he] at h0
      cases h0
      exact ⟨hst, rfl⟩

theorem Fades.erase (r : Roster) (a : WorkerId) : Fades r (r.erase a) := by
  refine ⟨Nat.le_refl _, fun w _ hn => ?_, fun w _ e e' he hst he' => ?_⟩
  · rw [find?_erase]
    split
    · rfl
    · exact hn
  · rw [find?_erase] at he'
    split at he'
    · cases he'
    · rw [he] at he'
      cases he'
      exact ⟨hst, rfl⟩

theorem fades_enrol (r : Roster) (now : Timestamp) :
    Fades r (r.enrol now) := by
  have hold {w : WorkerId} (hw : w < r.nextId) : (r.enrol now).find? w = r.find? w := by
    rw [Roster.find?_enrol, if_neg (Nat.ne_of_lt hw)]
  refine ⟨Nat.le_succ _, fun w hw hn => (hold hw).trans hn, fun w hw e e' he hst he' => ?_⟩
  rw [hold hw, he] at he'
  cases he'
  exact ⟨hst, rfl⟩

end Roster

namespace Pool

variable {m : Moment}

/-- the stopping workers whose place is to be taken -/
def pending (p : Pool) : Nat := p.roster.entries.countP Entry.isPending

/-- the live workers, and the stopping ones whose place is to be taken -/
def strength (p : Pool) : Nat := p.staff + p.pending

theorem strength_eq (p : Pool) : p.strength = p.roster.entries.countP Entry.counts := by
  rw [Roster.countP_counts, strength, staff, Roster.length_live]
  rfl

structure Mustered (p : Pool) : Prop where
  sound : p.roster.Sound
  regular : ∀ e ∈ p.roster.entries, e.Regular

/-- `q` is in order like `p`, and stronger by `k` -/
structure Shifts (k : Int) (p q : Pool) : Prop where
  mustered : q.Mustered
  running : q.running = p.running
  fades : p.roster.Fades q.roster
  strength : (q.strength : Int) = p.strength + k

theorem Shifts.refl {p : Pool} (h : p.Mustered) : Shifts 0 p p :=
  ⟨h, rfl, .refl _, (Int.add_zero _).symm⟩

theorem Shifts.trans {k l : Int} {p q r : Pool} (h1 : Shifts k p q) (h2 : Shifts l q r) :
    Shifts (k + l) p r := by
  refine ⟨h2.mustered, h2.running.trans h1.running, h1.fades.trans h2.fades, ?_⟩
  have hq := h1.strength
  have hr := h2.strength
  omega

theorem Shifts.of_eq {k l : Int} {p q : Pool} (h : Shifts k p q) (hk : k = l) : Shifts l p q :=
  hk ▸ h

/-- whoever is asked to stop, its entry stays, stopping and marked as it was, and so do the
others -/
theorem stopWorker_roster (waiter : Option CallId) (p : Pool) (w : WorkerId) :
    ∃ f : Entry → Entry, (∀ e, (f e).worker = e.worker) ∧
      (∀ e, (f e).replaceOnExit = e.replaceOnExit) ∧
      (∀ e, p.roster.find? w = some e → (f e).status = .stopping) ∧
      (stopWorker m waiter p w).roster = p.roster.modify w f := by
  cases hw : p.roster.find? w with
  | none =>
    refine ⟨id, fun _ => rfl, fun _ => rfl, fun _ he => (nomatch he), ?_⟩
    rw [stopWorker_of_gone waiter hw, Roster.modify_of_absent hw]
    obtain ⟨s, r, hr, _⟩ := foldl_wake_eq waiter.toList p
    rw [hr]
  | some e =>
    by_cases hst : e.status = .stopping
    · rw [stopWorker_of_stopping waiter hw hst]
      refine ⟨fun e => { e with waiters := e.waiters ++ waiter.toList }, fun _ => rfl,
        fun _ => rfl, fun e' he' => ?_, rfl⟩
      cases he'
      exact hst
    · rw [stopWorker_of_live waiter hw hst]
      refine ⟨fun e =>
        { e with
          waiters := e.waiters ++ waiter.toList
          status := .stopping
          task := none
          stopTimer := stopTimerOf m p }, fun _ => rfl, fun _ => rfl, fun _ _ => rfl, rfl⟩

/-- asking one worker to stop leaves another one idle -/
theorem stopWorker_idle (waiter : Option CallId) {p : Pool} {w x : WorkerId} (hx : p.Idle x)
    (hne : x ≠ w) :
    (stopWorker m waiter p w).Idle x := by
  obtain ⟨e, he, hi⟩ := hx
  obtain ⟨f, hf, _, _, hr⟩ := stopWorker_roster (m := m) waiter p w
  refine ⟨e, ?_, hi⟩
  rw [hr, Roster.find?_modify _ _ hf, if_neg hne]
  exact he

/-- what the roster and the switch do not see is no matter -/
theorem Shifts.to {k : Int} {p q r : Pool} (h : Shifts k p q) (hr : r.roster = q.roster)
    (hrun : r.running = q.running) : Shifts k p r := by
  refine ⟨⟨hr ▸ h.mustered.sound, hr ▸ h.mustered.regular⟩, hrun.trans h.running, hr ▸ h.fades, ?_⟩
  have hsame : r.strength = q.strength := by rw [strength_eq, strength_eq, hr]
  rw [hsame]
  exact h.strength

/-- in a pool that runs and is held the strength stays -/
def Balances (m : Moment) (p q : Pool) : Prop :=
  ∃ k, Shifts k p q ∧ (m.attached = true → p.running = true → k = 0)

theorem Shifts.balances {p q : Pool} (h : Shifts 0 p q) : Balances m p q :=
  ⟨0, h, fun _ _ => rfl⟩

theorem Balances.strength {p q : Pool} (h : Balances m p q) (ha : m.attached = true)
    (hr : p.running = true) : q.strength = p.strength := by
  obtain ⟨k, hk, hz⟩ := h
  have hs := hk.strength
  rw [hz ha hr] at hs
  omega

/-! ## one entry at a time -/

section
variable {p q : Pool} (h : p.Mustered)
include h

theorem Shifts.same (hr : q.roster = p.roster) (hrun : q.running = p.running) :
    Shifts 0 p q := (Shifts.refl h).to hr hrun

/-- the entry of a worker changes, and none other -/
theorem Shifts.modify {w : WorkerId} {e : Entry} (he : p.roster.find? w = some e)
    {f : Entry → Entry} (hf : ∀ e, (f e).worker = e.worker)
    (hr : q.roster = p.roster.modify w f) (hrun : q.running = p.running) (hreg : (f e).Regular)
    (hfade : e.status = .stopping →
      (f e).status = .stopping ∧ (f e).replaceOnExit = e.replaceOnExit) :
    Shifts ((if (f e).counts then 1 else 0) - if e.counts then 1 else 0) p q := by
  obtain ⟨xs, ys, hsplit, hmod, _⟩ := h.sound.split he
  have hmem : ∀ x ∈ xs ++ ys, x.Regular := by
    intro x hx
    apply h.regular
    rw [hsplit]
    rcases List.mem_append.mp hx with hx | hx
    · exact List.mem_append_left _ hx
    · exact List.mem_append_right _ (List.mem_cons_of_mem _ hx)
  refine ⟨⟨hr ▸ h.sound.modify f hf w, fun x hx => ?_⟩, hrun, ?_, ?_⟩
  · rw [hr, hmod f] at hx
    rcases List.mem_append.mp hx with hx | hx
    · exact hmem x (List.mem_append_left _ hx)
    · rcases List.mem_cons.mp hx with rfl | hx
      · exact hreg
      · exact hmem x (List.mem_append_right _ hx)
  · rw [hr]
    refine .modify p.roster hf fun x hx => ?_
    rw [he] at hx
    cases hx
    exact hfade
  · rw [strength_eq, strength_eq, hr, hmod f, hsplit, List.countP_append, List.countP_append,
      List.countP_cons, List.countP_cons]
    split_ifs <;> omega

/-- a change that shows neither in the status nor in the mark -/
theorem Shifts.note (w : WorkerId) (f : Entry → Entry) (hf : ∀ e, (f e).worker = e.worker)
    (hs : ∀ e, (f e).status = e.status) (hm : ∀ e, (f e).replaceOnExit = e.replaceOnExit) :
    Shifts 0 p (p.updateEntry w f) := by
  cases he : p.roster.find? w with
  | none => exact .same h (Roster.modify_of_absent he f) rfl
  | some e =>
    have hreg := h.regular e (Roster.mem_of_find? he)
    have hcounts : (f e).counts = e.counts := by
      unfold Entry.counts Entry.isPending Entry.isLive
      rw [hs, hm]
    have hreg' : (f e).Regular := by
      constructor
      · rw [hs]
        exact hreg.uncrashed
      · rw [hs, hm]
        exact hreg.unmarked
    refine Shifts.of_eq (.modify h he hf rfl rfl hreg' fun hst => ⟨(hs e).trans hst, hm e⟩) ?_
    rw [hcounts, Int.sub_self]

/-- a live worker gets another status and stays live -/
theorem Shifts.live {w : WorkerId} {e : Entry} (he : p.roster.find? w = some e)
    (hst : e.status ≠ .stopping) {f : Entry → Entry} (hf : ∀ e, (f e).worker = e.worker)
    (hl : ∀ e, (f e).isLive = true) (hm : ∀ e, (f e).replaceOnExit = e.replaceOnExit)
    (hr : q.roster = p.roster.modify w f) (hrun : q.running = p.running) : Shifts 0 p q := by
  have hreg := h.regular e (Roster.mem_of_find? he)
  have hreg' : (f e).Regular := by
    constructor
    · intro hc
      have hlive := hl e
      rw [Entry.isLive, hc] at hlive
      cases hlive
    · intro _
      rw [hm]
      exact hreg.unmarked hst
  have hcounts : (f e).counts = true := by rw [Entry.counts, hl, Bool.true_or]
  refine Shifts.of_eq (.modify h he hf hr hrun hreg' fun hs => absurd hs hst) ?_
  rw [hcounts, hreg.counts_of_live hst, Int.sub_self]

theorem Shifts.removed {w : WorkerId} {e : Entry} (he : p.roster.find? w = some e) :
    Shifts (-if e.counts then 1 else 0) p ((p.dropEntry w).dispose e) := by
  obtain ⟨xs, ys, hsplit, _, herase⟩ := h.sound.split he
  have hr : ((p.dropEntry w).dispose e).roster = p.roster.erase w := dispose_roster _ e
  refine ⟨⟨sound_removed h.sound w e, fun x hx => ?_⟩, ?_, hr ▸ .erase p.roster w, ?_⟩
  · rw [hr] at hx
    exact h.regular x (List.mem_filter.mp hx).1
  · obtain ⟨s, r, hd, _⟩ := dispose_eq (p.dropEntry w) e
    rw [hd]
    rfl
  · rw [strength_eq, strength_eq, hr, herase, hsplit, List.countP_append, List.countP_append,
      List.countP_cons]
    split_ifs <;> omega

/-- a worker is started, if there is somebody who can still send to the pool -/
theorem Shifts.hire : Shifts (if m.attached then 1 else 0) p (p.hire m) := by
  by_cases ha : m.attached = true
  · rw [hire_of_attached ha, if_pos ha]
    refine ⟨⟨h.sound.enrol m.now, fun x hx => ?_⟩, rfl, p.roster.fades_enrol m.now, ?_⟩
    · have hx' : x ∈ (p.roster.enrol m.now).entries := hx
      rw [h.sound.entries_enrol] at hx'
      rcases List.mem_append.mp hx' with hx' | hx'
      · exact h.regular x hx'
      · rw [List.mem_singleton.mp hx']
        exact ⟨WorkerStatus.noConfusion, fun _ => rfl⟩
    · rw [strength_eq, strength_eq]
      show ((p.roster.enrol m.now).entries.countP Entry.counts : Int) = _
      rw [h.sound.entries_enrol, List.countP_append]
      rfl
  · rw [hire_of_detached (by simpa using ha), if_neg ha]
    exact .refl h

theorem Shifts.hireMany (n : Nat) :
    Shifts (if m.attached then n else 0) p (hireMany m n p) := by
  induction n generalizing p with
  | zero =>
    refine (Shifts.refl h).of_eq ?_
    split <;> rfl
  | succ n ih =>
    have hone := Shifts.hire (m := m) h
    refine (hone.trans (ih hone.mustered)).of_eq ?_
    split <;> omega

/-! ## handing out tasks, attempts -/

theorem Shifts.assign (w : WorkerId) : Shifts 0 p (assign m p w) := by
  unfold Pool.assign
  split
  · exact .refl h
  · rename_i e he
    split
    · rename_i hi
      split
      · exact .refl h
      · rename_i t rest _
        split
        · exact .same h rfl rfl
        · split
          · have hst : e.status ≠ .stopping := by
              rw [hi]
              exact WorkerStatus.noConfusion
            exact .live (f := fun e => e.setBusy t.task m.now) h he hst (fun _ => rfl)
              (fun _ => rfl) (fun _ => rfl) rfl rfl
          · exact .same h rfl rfl
    · exact .refl h

theorem Shifts.assignEach (ws : List WorkerId) : Shifts 0 p (assignEach m ws p) := by
  induction ws generalizing p with
  | nil => exact .refl h
  | cons w ws ih =>
    rw [Pool.assignEach]
    split
    · exact .refl h
    · have hone := Shifts.assign (m := m) h w
      exact hone.trans (ih hone.mustered)

theorem Shifts.enqueue {ledger : Ledger} (t : Ticket) :
    Shifts 0 p (enqueue m { p with ledger := ledger } t) := by
  have hpush : Shifts 0 p { p with
      ledger := ledger
      queue := p.queue.push t } := .same h rfl rfl
  exact hpush.trans (.assignEach hpush.mustered _)

theorem Shifts.failTask (id : TaskId) (cause : FailureCause) :
    Shifts 0 p (failTask m p id cause) := by
  refine .same h (failTask_roster p id cause) ?_
  have hc := failTask_cases (m := m) p id cause
  generalize Pool.failTask m p id cause = r at hc
  cases hc <;> rfl

theorem Shifts.startAttempt (id : TaskId) (w : WorkerId) :
    Shifts 0 p (startAttempt m p id w) := by
  refine .same h (startAttempt_roster p id w) ?_
  have hc := startAttempt_cases (m := m) p id w
  generalize Pool.startAttempt m p id w = r at hc
  cases hc <;> rfl

/-! ## workers that go -/

/-- a worker that is asked to stop is not replaced, unless it was marked before -/
theorem Shifts.stopWorker_live (waiter : Option CallId) {w : WorkerId} {e : Entry}
    (he : p.roster.find? w = some e) (hst : e.status ≠ .stopping) :
    Shifts (-1) p (stopWorker m waiter p w) := by
  have hreg := h.regular e (Roster.mem_of_find? he)
  rw [stopWorker_of_live waiter he hst]
  set f : Entry → Entry := fun e =>
    { e with
      waiters := e.waiters ++ waiter.toList
      status := .stopping
      task := none
      stopTimer := stopTimerOf m p }
  have hcounts : (f e).counts = false := by
    rw [Entry.counts_of_stopping rfl]
    exact hreg.unmarked hst
  have hreg' : (f e).Regular := ⟨WorkerStatus.noConfusion, fun hn => absurd rfl hn⟩
  refine Shifts.of_eq
    (.modify (f := f) h he (fun _ => rfl) rfl rfl hreg' fun hs => absurd hs hst) ?_
  rw [hcounts, hreg.counts_of_live hst]
  rfl

theorem Shifts.stopWorker_mustered (waiter : Option CallId) (w : WorkerId) :
    ∃ k, Shifts k p (stopWorker m waiter p w) := by
  cases he : p.roster.find? w with
  | none =>
    rw [stopWorker_of_gone waiter he]
    obtain ⟨s, r, hw, _⟩ := foldl_wake_eq waiter.toList p
    rw [hw]
    exact ⟨0, .same h rfl rfl⟩
  | some e =>
    by_cases hst : e.status = .stopping
    · rw [stopWorker_of_stopping waiter he hst]
      exact ⟨0, .note h w _ (fun _ => rfl) (fun _ => rfl) fun _ => rfl⟩
    · exact ⟨-1, .stopWorker_live h waiter he hst⟩

theorem Shifts.stopAll_mustered (waiter : Option CallId) (ws : List WorkerId) :
    ∃ k, Shifts k p (ws.foldl (stopWorker m waiter) p) := by
  induction ws generalizing p with
  | nil => exact ⟨0, .refl h⟩
  | cons w ws ih =>
    obtain ⟨k, hk⟩ := Shifts.stopWorker_mustered (m := m) h waiter w
    obtain ⟨l, hl⟩ := ih hk.mustered
    exact ⟨k + l, hk.trans hl⟩

/-- each of the idle workers that are asked to stop is one less -/
theorem Shifts.stopAll_idle (ws : List WorkerId) (hd : ws.Nodup) (hi : ∀ w ∈ ws, p.Idle w) :
    Shifts (-ws.length) p (ws.foldl (stopWorker m none) p) := by
  induction ws generalizing p with
  | nil => exact .refl h
  | cons w ws ih =>
    obtain ⟨hout, hd⟩ := List.nodup_cons.mp hd
    obtain ⟨e, he, hidle⟩ := hi w (List.mem_cons_self ..)
    have hst : e.status ≠ .stopping := by
      rw [hidle]
      exact WorkerStatus.noConfusion
    have hone := Shifts.stopWorker_live (m := m) h none he hst
    have hrest : ∀ x ∈ ws, (stopWorker m none p w).Idle x := by
      intro x hx
      apply stopWorker_idle none (hi x (List.mem_cons_of_mem _ hx))
      rintro rfl
      exact hout hx
    refine (hone.trans (ih hone.mustered hd hrest)).of_eq ?_
    rw [List.length_cons]
    push_cast
    omega

/-- a stopping worker is gone, and its place is taken if it was marked -/
theorem finishStop_balances {w : WorkerId} {e : Entry} (he : p.roster.find? w = some e)
    (hst : e.status = .stopping) : Balances m p (finishStop m p w) := by
  have hrem := Shifts.removed h he
  rw [Entry.counts_of_stopping hst] at hrem
  rw [finishStop_eq he]
  split
  · rename_i hr
    refine ⟨_, hrem.trans (.hire (m := m) hrem.mustered), fun ha _ => ?_⟩
    rw [hr.1, if_pos ha]
    rfl
  · rename_i hr
    refine ⟨_, hrem, fun _ hrun => ?_⟩
    have hunmarked : e.replaceOnExit = false := by
      cases hm : e.replaceOnExit with
      | false => rfl
      | true => exact absurd ⟨hm, hrun⟩ hr
    rw [hunmarked]
    rfl

/-- a worker is gone unasked, and its place is taken -/
theorem crash_balances (w : WorkerId) (detail : String) :
    Balances m p (crash m p w detail) := by
  unfold crash
  cases he : p.roster.find? w with
  | none => exact (Shifts.refl h).balances
  | some e =>
    by_cases hst : e.status = .stopping
    · simp only [if_pos hst]
      exact finishStop_balances h he hst
    · simp only [if_neg hst]
      have hrem := Shifts.removed h he
      rw [(h.regular e (Roster.mem_of_find? he)).counts_of_live hst] at hrem
      -- what becomes of the task of the worker is no matter
      have hfill {q : Pool} (hq : Shifts (-1) p q) :
          Balances m p (if q.running then q.hire m else q) := by
        by_cases hrun : q.running = true
        · rw [if_pos hrun]
          refine ⟨_, hq.trans (.hire (m := m) hq.mustered), fun ha _ => ?_⟩
          rw [if_pos ha]
          rfl
        · rw [if_neg hrun]
          refine ⟨_, hq, fun _ hp => ?_⟩
          exact absurd (hq.running.trans hp) hrun
      cases e.task with
      | none => exact hfill hrem
      | some t => exact hfill (hrem.trans (.failTask hrem.mustered t _))

/-- a worker that is stuck is asked to stop, and marked -/
theorem Shifts.timeOut (task : TaskId) (attempt : UInt32) :
    Shifts 0 p (timeOut m p task attempt) := by
  unfold Pool.timeOut
  cases ht : p.ledger.timeOut task attempt with
  | none => exact .refl h
  | some r =>
    obtain ⟨worker, ledger, consequences⟩ := r
    have hpost : Shifts 0 p (p.post ledger consequences) := .same h rfl rfl
    cases worker with
    | none => exact hpost
    | some w =>
      show Shifts 0 p (if (p.post ledger consequences).isStuckOn w task then _ else _)
      split
      · rename_i hstuck
        obtain ⟨e, he, hb, _⟩ : ∃ e, p.roster.find? w = some e ∧ e.status = .busy ∧ _ :=
          task_of_isStuckOn hstuck
        have hst : e.status ≠ .stopping := by
          rw [hb]
          exact WorkerStatus.noConfusion
        set q := (p.post ledger consequences).updateEntry w
          fun e => { e with replaceOnExit := true }
        have hq : q.roster.find? w = some { e with replaceOnExit := true } := by
          show (p.roster.modify w _).find? w = _
          rw [Roster.find?_modify, if_pos rfl, he]
          · rfl
          · exact fun _ => rfl
        rw [stopWorker_of_live none hq hst]
        set f : Entry → Entry := fun e =>
          { e with
            waiters := e.waiters ++ []
            status := .stopping
            task := none
            stopTimer := stopTimerOf m q
            replaceOnExit := true }
        have hr : q.roster.modify w (fun e =>
            { e with
              waiters := e.waiters ++ (none : Option CallId).toList
              status := .stopping
              task := none
              stopTimer := stopTimerOf m q }) = p.roster.modify w f :=
          Roster.modify_modify p.roster w _ _ fun _ => rfl
        have hreg' : (f e).Regular := ⟨WorkerStatus.noConfusion, fun hn => absurd rfl hn⟩
        refine Shifts.of_eq
          (.modify (f := f) h he (fun _ => rfl) hr rfl hreg' fun hs => absurd hs hst) ?_
        rw [(h.regular e (Roster.mem_of_find? he)).counts_of_live hst]
        rfl
      · exact hpost

/-! ## messages that leave the strength alone -/

theorem Shifts.submit (id : TaskId) (t : Terms) : Shifts 0 p (submit m p id t) :=
  .enqueue h _

/-- a worker that is ready, or idle again, may be handed a ticket at once -/
theorem Shifts.rest {w : WorkerId} {e : Entry} (he : p.roster.find? w = some e)
    (hst : e.status ≠ .stopping) :
    Shifts 0 p (Pool.assign m (p.updateEntry w fun e => e.setIdle m.now) w) := by
  have hidle : Shifts 0 p (p.updateEntry w fun e => e.setIdle m.now) :=
    .live (f := fun e => e.setIdle m.now) h he hst (fun _ => rfl) (fun _ => rfl) (fun _ => rfl)
      rfl rfl
  exact hidle.trans (.assign hidle.mustered w)

theorem report_balances (w : WorkerId) (event : Event) :
    Balances m p (report m p w event) := by
  cases event with
  | ready =>
    unfold report
    cases he : p.roster.find? w with
    | none => exact (Shifts.refl h).balances
    | some e =>
      by_cases hs : e.status = .starting
      · simp only [if_pos hs]
        exact (Shifts.rest h he (by rw [hs]; exact WorkerStatus.noConfusion)).balances
      · simp only [if_neg hs]
        exact (Shifts.refl h).balances
  | idle =>
    unfold report
    cases he : p.roster.find? w with
    | none => exact (Shifts.refl h).balances
    | some e =>
      by_cases hs : e.status = .busy
      · simp only [if_pos hs]
        exact (Shifts.rest h he (by rw [hs]; exact WorkerStatus.noConfusion)).balances
      · simp only [if_neg hs]
        exact (Shifts.refl h).balances
  | busy t =>
    unfold report
    cases he : p.roster.find? w with
    | none => exact (Shifts.refl h).balances
    | some e =>
      by_cases hs : e.status = .stopping
      · simp only [if_pos hs]
        exact (Shifts.startAttempt h t w).balances
      · simp only [if_neg hs]
        have hset : Shifts 0 p (p.updateEntry w fun e => e.setBusy t m.now) :=
          .live (f := fun e => e.setBusy t m.now) h he hs (fun _ => rfl) (fun _ => rfl)
            (fun _ => rfl) rfl rfl
        exact (hset.trans (.startAttempt hset.mustered t w)).balances
  | result t v =>
    have hnote : Shifts 0 p (p.updateEntry w fun e => { e with processed := e.processed + 1 }) :=
      .note h w _ (fun _ => rfl) (fun _ => rfl) fun _ => rfl
    unfold report
    dsimp only
    generalize p.updateEntry w (fun e => { e with processed := e.processed + 1 }) = q at *
    split
    · split
      · exact hnote.balances
      · rename_i ledger consequences _
        have hpost := hnote.to (r := q.post ledger consequences) rfl rfl
        exact hpost.balances
    · exact hnote.balances
  | error t detail =>
    have hnote : Shifts 0 p (p.updateEntry w fun e => { e with failed := e.failed + 1 }) :=
      .note h w _ (fun _ => rfl) (fun _ => rfl) fun _ => rfl
    unfold report
    dsimp only
    split
    · exact (hnote.trans (.failTask hnote.mustered t _)).balances
    · exact hnote.balances
  | fatal detail => exact crash_balances h w detail
  | metrics sample =>
    have hnote : Shifts 0 p (p.updateEntry w fun e => e.recordMetrics sample) :=
      .note h w _ (fun _ => rfl) (fun _ => rfl) fun _ => rfl
    exact hnote.balances
  | exited graceful => exact crash_balances h w (exitDetail graceful)

end

end Pool

/-- the number of live workers changes with this message, by intent -/
def Message.scales : Message → Bool
  | .call _ .start | .call _ .stop | .ring .autoscaleTick => true
  | _ => false

namespace Pool

variable {m : Moment} {p : Pool} (h : p.Mustered)
include h

theorem Shifts.call {caller : CallId} {r : Request}
    (hc : (Message.call caller r).scales = false) : Shifts 0 p (call m p caller r) := by
  cases r with
  | start | stop => cases hc
  | submit id kind payload options =>
    unfold Pool.call
    dsimp only
    split
    · exact .same h rfl rfl
    · have hsub := Shifts.submit (m := m) h id (terms p.config kind payload options)
      exact hsub.to rfl rfl
  | cancel | status | statuses | workers | stats | getAffinity | requestMetrics =>
    exact .same h rfl rfl
  | setAffinity w kinds =>
    have hnote : Shifts 0 p (p.updateEntry w fun e => { e with affinity := some kinds }) :=
      .note h w _ (fun _ => rfl) (fun _ => rfl) fun _ => rfl
    exact hnote.to rfl rfl
  | clearAffinity w =>
    have hnote : Shifts 0 p (p.updateEntry w fun e => { e with affinity := none }) :=
      .note h w _ (fun _ => rfl) (fun _ => rfl) fun _ => rfl
    exact hnote.to rfl rfl

/-- **only a start, a stop and a tick change the strength** of a running pool -/
theorem handle_balances {msg : Message} (hc : msg.scales = false) :
    Balances m p (p.handle m msg) := by
  cases msg with
  | call caller r => exact (Shifts.call h hc).balances
  | report w event => exact report_balances h w event
  | ring alarm =>
    cases alarm with
    | taskTimeout t attempt => exact (Shifts.timeOut h t attempt).balances
    | retryDue t =>
      show Balances m p (retry m p t)
      unfold retry
      split
      · split
        · exact (Shifts.refl h).balances
        · exact (Shifts.enqueue h _).balances
      · exact (Shifts.refl h).balances
    | stopDeadline w =>
      show Balances m p (ring m p (.stopDeadline w))
      simp only [ring]
      split
      · exact (Shifts.refl h).balances
      · rename_i e he
        split
        · rename_i hst
          exact finishStop_balances h he hst
        · exact (Shifts.refl h).balances
    | autoscaleTick => cases hc

end Pool

namespace Pool

variable {m : Moment}

/-! ## a tick -/

/-- **a tick changes the strength by what its plan adds and takes** -/
theorem autoscale_shifts {p : Pool} (h : p.Mustered) (hr : p.running = true) :
    Shifts ((if m.attached then ((p.gauge.plan p.config m.now).decision.added : Int) else 0)
      - ((p.gauge.plan p.config m.now).decision.stopped.length
        + (p.gauge.plan p.config m.now).evict.length)) p (autoscale m p) := by
  have hask : Shifts 0 p (requestMetrics m p none).2 := .same h rfl rfl
  have hnd := nodup_leaving h.sound p.config m.now
  obtain ⟨hstop, hevict⟩ := idle_of_plan h.sound m
  rw [autoscale_of_running hr]
  generalize (requestMetrics m p none).2 = q at *
  generalize (p.gauge.plan p.config m.now).evict = evict at *
  generalize (p.gauge.plan p.config m.now).decision = d at *
  have hq := hask.mustered
  cases d with
  | up n =>
    have hmany := Shifts.hireMany (m := m) hq n
    have hout := Shifts.stopAll_idle (m := m) hmany.mustered evict hnd
      fun w hw => hireMany_idle n hq.sound (hevict w hw)
    refine ((hask.trans hmany).trans hout).of_eq ?_
    show _ = (if m.attached then (n : Int) else 0) - ((([] : List WorkerId).length : Int) + _)
    rw [List.length_nil]
    omega
  | down ids =>
    have hall : ∀ w ∈ ids ++ evict, q.Idle w := by
      intro w hw
      rcases List.mem_append.mp hw with hw | hw
      · exact hstop w hw
      · exact hevict w hw
    have hout := Shifts.stopAll_idle (m := m) hq (ids ++ evict) hnd hall
    rw [List.foldl_append] at hout
    refine (hask.trans hout).of_eq ?_
    show _ = (if m.attached then ((0 : Nat) : Int) else 0) - ((ids.length : Int) + _)
    rw [List.length_append]
    split <;> omega
  | hold =>
    have hout := Shifts.stopAll_idle (m := m) hq evict hnd hevict
    refine (hask.trans hout).of_eq ?_
    show _ = (if m.attached then ((0 : Nat) : Int) else 0)
      - ((([] : List WorkerId).length : Int) + _)
    rw [List.length_nil]
    split <;> omega

/-! ## a start and a stop -/

theorem staff_le_strength (p : Pool) : p.staff ≤ p.strength := Nat.le_add_right _ _

/-- a start makes up the minimum of live workers, whatever comes besides -/
theorem start_shifts {p : Pool} (h : p.Mustered) (hr : p.running = false) :
    Shifts (if m.attached then ((p.config.minWorkers - p.staff : Nat) : Int) else 0)
      { p with running := true } (start m p) := by
  have hopen : ({ p with running := true } : Pool).Mustered := ⟨h.sound, h.regular⟩
  have hmany := Shifts.hireMany (m := m) hopen (p.config.minWorkers - p.staff)
  have heq : start m p
      = if (hireMany m (p.config.minWorkers - p.staff) { p with running := true }).config.autoscaling
        then (hireMany m (p.config.minWorkers - p.staff) { p with running := true }).armTicks m
        else hireMany m (p.config.minWorkers - p.staff) { p with running := true } := by
    unfold start
    rw [if_neg (by simp [hr])]
    rfl
  rw [heq]
  generalize hireMany m (p.config.minWorkers - p.staff) { p with running := true } = q at *
  cases hauto : q.config.autoscaling with
  | false => exact hmany
  | true =>
    refine hmany.to (armTicks_roster q) ?_
    show (q.armTicks m).running = q.running
    unfold armTicks
    split <;> rfl

theorem stop_shifts {p : Pool} (h : p.Mustered) (caller : CallId) :
    ∃ k, Shifts k { p with running := false } (stop m p caller) := by
  have hshut : Shifts 0 { p with running := false } p.shut :=
    .same ⟨h.sound, h.regular⟩ rfl rfl
  rw [stop_eq]
  generalize p.shut = q at *
  cases q.roster.ids with
  | nil => exact ⟨0, hshut.to (r := q.reply caller .done) rfl rfl⟩
  | cons w ws =>
    have hpromise := hshut.to (r := { q with stops := q.stops ++ [⟨caller, (w :: ws).length⟩] })
      rfl rfl
    obtain ⟨k, hk⟩ := Shifts.stopAll_mustered (m := m) hpromise.mustered (some caller) (w :: ws)
    exact ⟨_, hpromise.trans hk⟩

/-! ## every message -/

theorem start_of_running {p : Pool} (hr : p.running = true) : start m p = p := by
  unfold start
  rw [if_pos hr]

/-- whatever comes, the pool stays in order, and the workers that were asked to stop stay so -/
theorem handle_shifts {p : Pool} (h : p.Mustered) (msg : Message) :
    ∃ k running, Shifts k { p with running := running } (p.handle m msg) := by
  by_cases hc : msg.scales = false
  · obtain ⟨k, hk, _⟩ := handle_balances (m := m) h hc
    exact ⟨k, p.running, hk⟩
  · cases msg with
    | report w event => exact absurd rfl hc
    | call caller r =>
      cases r with
      | start =>
        cases hr : p.running with
        | true =>
          refine ⟨0, p.running, ?_⟩
          show Shifts 0 p ((start m p).reply caller .done)
          rw [start_of_running hr]
          exact .same h rfl rfl
        | false =>
          have hs := start_shifts (m := m) h hr
          exact ⟨_, true, hs.to (r := (start m p).reply caller .done) rfl rfl⟩
      | stop =>
        obtain ⟨k, hk⟩ := stop_shifts (m := m) h caller
        exact ⟨k, false, hk⟩
      | _ => exact absurd rfl hc
    | ring alarm =>
      cases alarm with
      | autoscaleTick =>
        cases hr : p.running with
        | true => exact ⟨_, p.running, autoscale_shifts (m := m) h hr⟩
        | false =>
          refine ⟨0, p.running, ?_⟩
          show Shifts 0 p (autoscale m p)
          rw [autoscale_of_stopped hr]
          exact .refl h
      | _ => exact absurd rfl hc

/-- a pool that is held has its minimum while it runs -/
theorem handle_enough {p : Pool} (h : p.Mustered) (ha : m.attached = true)
    (hmin : p.running = true → p.config.minWorkers ≤ p.strength) (msg : Message)
    (hrun : (p.handle m msg).running = true) :
    p.config.minWorkers ≤ (p.handle m msg).strength := by
  by_cases hc : msg.scales = false
  · have hb := handle_balances (m := m) h hc
    have hr : p.running = true := by
      obtain ⟨k, hk, _⟩ := hb
      exact hk.running ▸ hrun
    rw [hb.strength ha hr]
    exact hmin hr
  · cases msg with
    | report w event => exact absurd rfl hc
    | call caller r =>
      cases r with
      | start =>
        show _ ≤ (start m p).strength
        cases hr : p.running with
        | true =>
          rw [start_of_running hr]
          exact hmin hr
        | false =>
          have hs := (start_shifts (m := m) h hr).strength
          have hsame : ({ p with running := true } : Pool).strength = p.strength := rfl
          have hle := p.staff_le_strength
          rw [hsame, if_pos ha] at hs
          omega
      | stop =>
        obtain ⟨k, hk⟩ := stop_shifts (m := m) h caller
        have hstopped : (p.handle m (.call caller .stop)).running = false := hk.running
        rw [hstopped] at hrun
        cases hrun
      | _ => exact absurd rfl hc
    | ring alarm =>
      cases alarm with
      | autoscaleTick =>
        show _ ≤ (autoscale m p).strength
        cases hr : p.running with
        | false =>
          rw [show p.handle m (.ring .autoscaleTick) = p from autoscale_of_stopped hr, hr] at hrun
          cases hrun
        | true =>
          -- the plan goes by the live workers, and there are at least as many that count
          have hs := (autoscale_shifts (m := m) h hr).strength
          have hleave := p.gauge.leaving_le p.config m.now
          have hle := p.staff_le_strength
          have henough := hmin hr
          rw [size_gauge] at hleave
          rw [if_pos ha] at hs
          omega
      | _ => exact absurd rfl hc

end Pool

/-! ## whole runs -/

namespace Workshop

theorem Reachable.mustered {c : Config} {W : Workshop} (h : Reachable c W) :
    W.pool.Mustered := by
  induction h with
  | new => exact ⟨.empty, fun e he => by cases he⟩
  | step _ hs ih =>
    rcases hs.heard with ⟨hpool, _⟩ | ⟨m, msg, _, _, hpool, _⟩
    · rw [hpool]
      exact ih
    · obtain ⟨k, running, hk⟩ := Pool.handle_shifts (m := m) ih msg
      rw [hpool]
      exact ⟨hk.mustered.sound, hk.mustered.regular⟩

theorem Step.fades {c : Config} {W V : Workshop} (h : Reachable c W) (hs : Step W V) :
    W.pool.roster.Fades V.pool.roster := by
  rcases hs.heard with ⟨hpool, _⟩ | ⟨m, msg, _, _, hpool, _⟩
  · rw [hpool]
    exact .refl _
  · obtain ⟨k, running, hk⟩ := Pool.handle_shifts (m := m) h.mustered msg
    rw [hpool]
    exact hk.fades

theorem Reachable.enough {c : Config} {W : Workshop} (h : Reachable c W) (hh : W.held = true) :
    W.pool.running = true → c.minWorkers ≤ W.pool.strength := by
  induction h with
  | new =>
    intro hr
    cases hr
  | @step V V' hreach hs ih =>
    have hheld := hs.held hh
    have hmin := ih hheld
    have hm := hreach.mustered
    rw [← hreach.manned.config] at hmin ⊢
    rcases hs.heard with ⟨hpool, _⟩ | ⟨m, msg, ha, _, hpool, _⟩
    · rw [hpool]
      exact hmin
    · rw [hpool]
      exact Pool.handle_enough hm (ha.attached hheld) hmin msg

/-- **outside scaling, the strength of a pool is kept**: while somebody holds on to a running pool,
no message but a start, a stop or a tick changes the number of live workers and of those whose
place is to be taken; a tick changes it by what its plan adds and takes; and it is never below the
minimum -/
theorem Reachable.strength_kept {c : Config} {W : Workshop} (h : Reachable c W)
    (hh : W.held = true) (hr : W.pool.running = true) :
    (∀ (m : Moment) (msg : Message), W.Admits m → msg.scales = false →
      (W.pool.handle m msg).strength = W.pool.strength) ∧
    (∀ m : Moment, W.Admits m →
      (W.pool.handle m (.ring .autoscaleTick)).strength
          + (W.pool.gauge.plan c m.now).decision.stopped.length
          + (W.pool.gauge.plan c m.now).evict.length
        = W.pool.strength + (W.pool.gauge.plan c m.now).decision.added) ∧
    c.minWorkers ≤ W.pool.strength := by
  have hm := h.mustered
  refine ⟨fun m msg ha hc => ?_, fun m ha => ?_, h.enough hh hr⟩
  · exact (Pool.handle_balances hm hc).strength (ha.attached hh) hr
  · have hs := (Pool.autoscale_shifts (m := m) hm hr).strength
    rw [h.manned.config, if_pos (ha.attached hh)] at hs
    show (Pool.autoscale m W.pool).strength + _ + _ = _
    omega

/-- the one worker of `staffed` crashes, and another one is started -/
theorem strength_kept_staffed : Reachable Chronicle.single staffed ∧ staffed.held = true ∧
    staffed.pool.running = true ∧ staffed.pool.strength = 1 ∧
    (staffed.pool.handle calmMoment (.report 1 (.fatal "out of memory"))).strength
      = staffed.pool.strength :=
  ⟨reachable_staffed, rfl, rfl, rfl, (reachable_staffed.strength_kept rfl rfl).1 calmMoment
    (.report 1 (.fatal "out of memory")) (admits_calmMoment staffed) rfl⟩

end Workshop

end TaskPool
