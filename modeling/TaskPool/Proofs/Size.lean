import TaskPool.Proofs.Outcome
import Mathlib.Data.List.Induction

/-!
# How many workers are live

The bound `maxWorkers` is checked where the pool starts and where it grows, on the live workers
alone.  A stopping worker that is to be replaced is not counted there, and nothing is checked when
its replacement comes; this file says that this is the only way past the bound.

* `Pool.staff`        the number of live workers
* `Leaner`            what moves do to it: it does not grow
* `Overfills`         a stopping worker leaves a pool that is full, and is replaced
* `handle_staff`      one step keeps the bound unless it overfills the pool
* `staff_le_max_iff`  so does a whole run
* `staff_exceeds_max`   and there are runs that do
-/

namespace TaskPool

open Relation

/-! ## live entries -/

namespace Roster

theorem length_live (r : Roster) : r.live.length = r.entries.countP Entry.isLive := by
  rw [live, List.countP_eq_length_filter]

theorem live_modify_le (r : Roster) (f : Entry → Entry) (a : WorkerId)
    (h : ∀ e ∈ r.entries, e.worker = a → (f e).isLive = true → e.isLive = true) :
    (r.modify a f).live.length ≤ r.live.length := by
  rw [length_live, length_live]
  show (r.entries.map fun e => if e.worker = a then f e else e).countP Entry.isLive ≤ _
  rw [List.countP_map]
  refine List.countP_mono_left fun e he hl => ?_
  by_cases hw : e.worker = a
  · exact h e he hw (by simpa [hw] using hl)
  · simpa [hw] using hl

theorem live_erase (r : Roster) (a : WorkerId) :
    (r.erase a).live = r.live.filter fun e => e.worker != a := by
  show (r.entries.filter _).filter _ = (r.entries.filter _).filter _
  rw [List.filter_filter, List.filter_filter]
  refine List.filter_congr fun e _ => Bool.and_comm _ _

theorem live_erase_le (r : Roster) (a : WorkerId) : (r.erase a).live.length ≤ r.live.length := by
  rw [live_erase]
  exact List.length_filter_le _ _

theorem live_erase_lt {r : Roster} {a : WorkerId} {e : Entry} (he : r.find? a = some e)
    (hl : e.isLive = true) : (r.erase a).live.length < r.live.length := by
  rw [live_erase]
  refine List.length_filter_lt_length_iff_exists.mpr
    ⟨e, List.mem_filter.mpr ⟨mem_of_find? he, hl⟩, ?_⟩
  simp [worker_of_find? he]

theorem Sound.live_erase_eq {r : Roster} (hs : r.Sound) {a : WorkerId} {e : Entry}
    (he : r.find? a = some e) (hl : e.isLive = false) : (r.erase a).live = r.live := by
  rw [live_erase]
  refine List.filter_eq_self.mpr fun x hx => ?_
  obtain ⟨hx, hlx⟩ := List.mem_filter.mp hx
  have hne : x.worker ≠ a := by
    intro hw
    have := hs.find?_of_mem hx
    rw [hw, he] at this
    cases this
    rw [hl] at hlx
    cases hlx
  simpa using hne

theorem Sound.live_enrol {r : Roster} (hs : r.Sound) (now : Timestamp) :
    (r.enrol now).live.length = r.live.length + 1 := by
  rw [length_live, length_live, hs.entries_enrol, List.countP_append]
  rfl

end Roster

namespace Pool

variable {m : Moment}

/-- the number of live workers -/
def staff (p : Pool) : Nat := p.roster.live.length

/-- an entry is dropped when its worker crashes, so none is kept as crashed -/
def Uncrashed (p : Pool) : Prop := ∀ e ∈ p.roster.entries, e.status ≠ .crashed

/-! ## what does not add to the staff -/

structure Leaner (p q : Pool) : Prop where
  config : q.config = p.config
  staff : q.staff ≤ p.staff
  uncrashed : p.Uncrashed → q.Uncrashed

theorem Leaner.refl (p : Pool) : Leaner p p := ⟨rfl, Nat.le_refl _, id⟩

theorem Leaner.trans {p q r : Pool} (h1 : Leaner p q) (h2 : Leaner q r) : Leaner p r :=
  ⟨h2.config.trans h1.config, Nat.le_trans h2.staff h1.staff, h2.uncrashed ∘ h1.uncrashed⟩

theorem Leaner.same {p q : Pool} (hc : q.config = p.config) (hr : q.roster = p.roster) :
    Leaner p q := by
  refine ⟨hc, ?_, ?_⟩
  · show q.roster.live.length ≤ p.roster.live.length
    exact Nat.le_of_eq (by rw [hr])
  · intro h e he
    exact h e (hr ▸ he)

theorem Leaner.modify {p q : Pool} (f : Entry → Entry) (w : WorkerId)
    (hc : q.config = p.config) (hr : q.roster = p.roster.modify w f)
    (hl : ∀ e ∈ p.roster.entries, e.worker = w → (f e).isLive = true → e.isLive = true)
    (hu : ∀ e ∈ p.roster.entries, e.worker = w → e.status ≠ .crashed → (f e).status ≠ .crashed) :
    Leaner p q := by
  refine ⟨hc, ?_, ?_⟩
  · show q.roster.live.length ≤ p.roster.live.length
    rw [hr]
    exact Roster.live_modify_le p.roster f w hl
  · intro h e he
    rw [hr] at he
    obtain ⟨x, hx, rfl⟩ := List.mem_map.mp he
    split
    · rename_i hw
      exact hu x hx hw (h x hx)
    · exact h x hx

theorem Leaner.dispose (p : Pool) (e : Entry) : Leaner p (p.dispose e) := by
  obtain ⟨s, r, h, _⟩ := dispose_eq p e
  rw [h]
  exact .same rfl rfl

theorem Leaner.dropEntry (p : Pool) (w : WorkerId) : Leaner p (p.dropEntry w) :=
  ⟨rfl, Roster.live_erase_le p.roster w, fun h e he => h e (List.mem_filter.mp he).1⟩

theorem Leaner.failTask (p : Pool) (id : TaskId) (cause : FailureCause) :
    Leaner p (failTask m p id cause) := by
  refine .same ?_ (failTask_roster p id cause)
  have h := failTask_cases (m := m) p id cause
  generalize Pool.failTask m p id cause = q at h
  cases h <;> rfl

theorem Leaner.startAttempt (p : Pool) (id : TaskId) (w : WorkerId) :
    Leaner p (startAttempt m p id w) := by
  refine .same ?_ (startAttempt_roster p id w)
  have h := startAttempt_cases (m := m) p id w
  generalize Pool.startAttempt m p id w = q at h
  cases h <;> rfl

theorem Leaner.cancel (p : Pool) (id : TaskId) : Leaner p (p.cancel id).2 := .same rfl rfl

theorem Leaner.armTicks (p : Pool) : Leaner p (p.armTicks m) := by
  unfold Pool.armTicks
  split <;> exact .same rfl rfl

/-- the entry of a live worker may be changed to that of another live worker -/
theorem Leaner.ofLive {p q : Pool} (hs : p.roster.Sound) {w : WorkerId} {e : Entry}
    (he : p.roster.find? w = some e) (hl : e.isLive = true) (f : Entry → Entry)
    (hf : ∀ e, (f e).status ≠ .crashed) (hc : q.config = p.config)
    (hr : q.roster = p.roster.modify w f) : Leaner p q := by
  refine .modify f w hc hr ?_ fun e _ _ _ => hf e
  intro x hx hw _
  have := hs.find?_of_mem hx
  rw [hw, he] at this
  cases this
  exact hl

theorem Move.leaner {p q : Pool} (h : Move m p q) (hs : p.roster.Sound) : Leaner p q := by
  cases h with
  | reply | ask | promise | «open» | unknown | bounce | expire | shut => exact .same rfl rfl
  | wake caller =>
    obtain ⟨s, r, h, _⟩ := wake_eq p caller
    rw [h]
    exact .same rfl rfl
  | note w f hf =>
    refine .modify f w rfl rfl ?_ ?_
    · intro e _ _ hl
      rwa [Entry.isLive, hf.status] at hl
    · intro e _ _ hu
      rwa [hf.status]
  | ticks => exact .armTicks p
  | dispatch w e affinity t rest task he hi =>
    have hl : e.isLive = true := by rw [Entry.isLive, hi]; rfl
    refine .ofLive hs he hl (fun e => e.setBusy t.task m.now) ?_ rfl rfl
    exact fun _ => WorkerStatus.noConfusion
  | retire waiter w e he hst _ =>
    rw [stopWorker_of_live waiter he hst]
    refine .modify _ w rfl rfl ?_ ?_
    · intro e _ _ hl
      cases hl
    · intro e _ _ _
      exact WorkerStatus.noConfusion
  | remove w e => exact (Leaner.dropEntry p w).trans (.dispose _ e)
  | cancel id => exact .cancel p id

theorem Steady.leaner {p q : Pool} (h : Steady m p q) (hs : p.roster.Sound) : Leaner p q := by
  induction h with
  | refl => exact .refl p
  | tail hpq h ih => exact ih.trans (h.leaner (Moves.sound (Steady.moves hpq) hs))

theorem isLive_of_status {e : Entry} (hs : e.status ≠ .stopping) (hc : e.status ≠ .crashed) :
    e.isLive = true := by
  unfold Entry.isLive
  cases h : e.status with
  | stopping => exact absurd h hs
  | crashed => exact absurd h hc
  | starting | idle | busy => rfl

theorem Impact.leaner {p q : Pool} {msg : Message} (h : Impact m p msg q) (hs : p.roster.Sound)
    (hu : p.Uncrashed) : Leaner p q := by
  have note (w : WorkerId) (f : Entry → Entry) (hf : Entry.Keeps f) : Leaner p (p.updateEntry w f) :=
    (Move.note (m := m) p w f hf).leaner hs
  cases h with
  | none => exact .refl p
  | accept | retry => exact .same rfl rfl
  | ready w e he hst | idle w e he hst =>
    have hl : e.isLive = true := by rw [Entry.isLive, hst]; rfl
    refine .ofLive hs he hl (fun e => e.setIdle m.now) ?_ rfl rfl
    exact fun _ => WorkerStatus.noConfusion
  | busy w t e he hst =>
    have hl := isLive_of_status hst (hu e (Roster.mem_of_find? he))
    have hset : Leaner p (p.updateEntry w fun e => e.setBusy t m.now) := by
      refine .ofLive hs he hl (fun e => e.setBusy t m.now) ?_ rfl rfl
      exact fun _ => WorkerStatus.noConfusion
    exact hset.trans (.startAttempt _ t w)
  | busyLate w t => exact .startAttempt p t w
  | result w =>
    refine (note w (fun e => { e with processed := e.processed + 1 })
      ⟨fun _ => rfl, fun _ => rfl, fun _ => rfl, fun _ => rfl⟩).trans ?_
    exact .same rfl rfl
  | error w t detail =>
    refine (note w (fun e => { e with failed := e.failed + 1 })
      ⟨fun _ => rfl, fun _ => rfl, fun _ => rfl, fun _ => rfl⟩).trans ?_
    exact .failTask _ t (.handler detail)
  | crash w event detail e => exact (Leaner.dropEntry p w).trans (.dispose _ e)
  | crashBusy w event detail e t =>
    exact ((Leaner.dropEntry p w).trans (.dispose _ e)).trans (.failTask _ t (.crash w detail))

theorem handle_leaner {p : Pool} (hs : p.roster.Sound) (hu : p.Uncrashed) {msg : Message}
    (hc : msg.IsCalm) : Leaner p (p.handle m msg) := by
  obtain ⟨p1, p2, hi, _, hm, h⟩ := handle_splits (m := m) hs msg
  rw [h]
  refine ((hi.leaner hs hu).trans ((hm hc).leaner (hi.sound hs))).trans ?_
  exact .same rfl rfl

/-! ## what adds to the staff -/

theorem staff_hire {p : Pool} (hs : p.roster.Sound) (ha : m.attached = true) :
    (p.hire m).staff = p.staff + 1 := by
  rw [hire_of_attached ha]
  exact hs.live_enrol m.now

theorem staff_hire_le {p : Pool} (hs : p.roster.Sound) : (p.hire m).staff ≤ p.staff + 1 := by
  by_cases ha : m.attached = true
  · exact Nat.le_of_eq (staff_hire hs ha)
  · rw [hire_of_detached (by simpa using ha)]
    exact Nat.le_succ _

theorem staff_hireMany_le (n : Nat) {p : Pool} (hs : p.roster.Sound) :
    (hireMany m n p).staff ≤ p.staff + n := by
  induction n generalizing p with
  | zero => exact Nat.le_refl _
  | succ n ih =>
    have h1 := staff_hire_le (m := m) hs
    have h2 := ih (hire_sound (m := m) hs)
    show (hireMany m n (p.hire m)).staff ≤ _
    omega

theorem staff_start_le {p : Pool} (hs : p.roster.Sound) :
    (start m p).staff ≤ max p.staff p.config.minWorkers := by
  unfold start
  split
  · exact Nat.le_max_left _ _
  · set q := { p with running := true }
    have h1 : (hireMany m (q.config.minWorkers - q.staff) q).staff ≤ _ :=
      staff_hireMany_le _ hs
    have hq : q.staff = p.staff := rfl
    have hc : q.config = p.config := rfl
    have h2 : (hireMany m (q.config.minWorkers - q.staff) q).staff
        ≤ max p.staff p.config.minWorkers := by
      rw [hq, hc] at h1 ⊢
      omega
    show (if _ then _ else _ : Pool).staff ≤ _
    split
    · exact Nat.le_trans (Leaner.armTicks _).staff h2
    · exact h2

theorem size_gauge (p : Pool) : p.gauge.size = p.staff := List.length_map _

/-- the pool grows up to the bound at most, if the live workers are all there are -/
theorem le_of_decision_up {g : Gauge} {c : Config} {s : Signals} {count : Nat}
    (h : g.decision c s = .up count) : count ≤ c.maxWorkers - g.size := by
  unfold Gauge.decision at h
  split at h
  · cases h
    exact Nat.min_le_right _ _
  · split at h
    · split at h <;> cases h
    · cases h

theorem staff_autoscale_le {p : Pool} (hs : p.roster.Sound)
    (hl : p.staff ≤ p.config.maxWorkers) : (autoscale m p).staff ≤ p.config.maxWorkers := by
  cases hr : p.running with
  | false =>
    rw [autoscale_of_stopped hr]
    exact hl
  | true =>
    rw [autoscale_of_running hr]
    set q := (requestMetrics m p none).2
    have hq : q.roster.Sound := hs
    have hcarry : Chores m (.ring .autoscaleTick) q
        (carryOut m q (p.gauge.plan p.config m.now).decision) :=
      carryOut_chores hr id (idle_of_plan hs m).1
    have hevict : Chores m (.report 0 .ready) _ _ := evict_chores hs
    refine Nat.le_trans ((hevict.steady trivial).leaner (hcarry.moves.sound hq)).staff ?_
    have hstop := (idle_of_plan hs m).1
    cases hd : (p.gauge.plan p.config m.now).decision with
    | up count =>
      have hcount : count ≤ p.config.maxWorkers - p.gauge.size := le_of_decision_up hd
      have hmany : (hireMany m count q).staff ≤ p.staff + count := staff_hireMany_le count hq
      rw [size_gauge] at hcount
      exact Nat.le_trans hmany (by omega)
    | down workers =>
      rw [hd] at hstop
      have hsteady : Steady m q (workers.foldl (stopWorker m none) q) :=
        stopAll_steady workers q fun w hw => (hstop w hw).spare
      exact Nat.le_trans (hsteady.leaner hq).staff hl
    | hold => exact hl

theorem finishStop_eq {p : Pool} {w : WorkerId} {e : Entry} (he : p.roster.find? w = some e) :
    finishStop m p w
      = if e.replaceOnExit ∧ p.running then ((p.dropEntry w).dispose e).hire m
        else (p.dropEntry w).dispose e := by
  obtain ⟨s, r, h, _⟩ := dispose_eq (p.dropEntry w) e
  unfold finishStop
  rw [he]
  show (if e.replaceOnExit ∧ ((p.dropEntry w).dispose e).running then _ else _) = _
  rw [h]
  rfl

theorem sound_removed {p : Pool} (hs : p.roster.Sound) (w : WorkerId) (e : Entry) :
    ((p.dropEntry w).dispose e).roster.Sound := by
  rw [dispose_roster]
  exact hs.erase w

theorem staff_removed {p : Pool} (hs : p.roster.Sound) {w : WorkerId} {e : Entry}
    (he : p.roster.find? w = some e) (hst : e.status = .stopping) :
    ((p.dropEntry w).dispose e).staff = p.staff := by
  have hl : e.isLive = false := by rw [Entry.isLive, hst]; rfl
  show ((p.dropEntry w).dispose e).roster.live.length = p.roster.live.length
  rw [dispose_roster]
  exact congrArg List.length (hs.live_erase_eq he hl)

/-- a crashed worker was counted, so its replacement adds nothing -/
theorem staff_crash_le {p : Pool} (hs : p.roster.Sound) (hu : p.Uncrashed) {w : WorkerId}
    {e : Entry} (detail : String) (he : p.roster.find? w = some e) (hst : e.status ≠ .stopping) :
    (crash m p w detail).staff ≤ p.staff := by
  have hl := isLive_of_status hst (hu e (Roster.mem_of_find? he))
  have hlt : (p.dropEntry w).staff < p.staff := Roster.live_erase_lt he hl
  unfold crash
  rw [he]
  simp only [if_neg hst]
  set q := (p.dropEntry w).dispose e
  have hq : q.roster.Sound := sound_removed hs w e
  have hlq : q.staff ≤ (p.dropEntry w).staff := (Leaner.dispose _ e).staff
  have hire (r : Pool) (hr : r.roster.Sound) (hlr : r.staff ≤ q.staff) :
      (if r.running then r.hire m else r).staff ≤ p.staff := by
    have h1 := staff_hire_le (m := m) hr
    split <;> omega
  cases e.task with
  | none => exact hire q hq (Nat.le_refl _)
  | some t =>
    refine hire _ ?_ (Leaner.failTask q t (.crash w detail)).staff
    rw [failTask_roster]
    exact hq

/-! ## the way past the bound -/

/-- a stopping worker leaves and is replaced, though there are as many live workers as there may
be -/
def Overfills (m : Moment) (p : Pool) (msg : Message) : Prop :=
  ∃ w e, msg.leaver? = some w ∧ p.roster.find? w = some e ∧ e.status = .stopping ∧
    e.replaceOnExit = true ∧ p.running = true ∧ m.attached = true ∧
    p.config.maxWorkers ≤ p.staff

theorem handle_leaver {p : Pool} {msg : Message} {w : WorkerId} {e : Entry}
    (hw : msg.leaver? = some w) (he : p.roster.find? w = some e) (hst : e.status = .stopping) :
    p.handle m msg = finishStop m p w := by
  have hcrash (detail : String) : crash m p w detail = finishStop m p w := by
    unfold crash
    rw [he]
    simp only [if_pos hst]
  cases msg with
  | call => cases hw
  | report w' event =>
    cases event with
    | fatal detail =>
      cases hw
      exact hcrash detail
    | exited graceful =>
      cases hw
      exact hcrash (exitDetail graceful)
    | _ => cases hw
  | ring alarm =>
    cases alarm with
    | stopDeadline w' =>
      cases hw
      show ring m p (.stopDeadline w) = _
      simp only [ring, he, if_pos hst]
    | _ => cases hw

theorem staff_crash_or_skip {p : Pool} (hs : p.roster.Sound) (hu : p.Uncrashed) {w : WorkerId}
    (detail : String) (h : ∀ e, p.roster.find? w = some e → e.status ≠ .stopping) :
    (crash m p w detail).staff ≤ p.staff := by
  cases he : p.roster.find? w with
  | none => simp only [crash, he, Nat.le_refl]
  | some e => exact staff_crash_le hs hu detail he (h e he)

/-- a worker that is gone unasked was live, and one that is not known was not counted -/
theorem staff_depart_le {p : Pool} (hs : p.roster.Sound) (hu : p.Uncrashed) {msg : Message}
    {w : WorkerId} (hw : msg.leaver? = some w)
    (h : ∀ e, p.roster.find? w = some e → e.status ≠ .stopping) :
    (p.handle m msg).staff ≤ p.staff := by
  cases msg with
  | call => cases hw
  | report w' event =>
    cases event with
    | fatal detail =>
      cases hw
      exact staff_crash_or_skip hs hu detail h
    | exited graceful =>
      cases hw
      exact staff_crash_or_skip hs hu (exitDetail graceful) h
    | _ => cases hw
  | ring alarm =>
    cases alarm with
    | stopDeadline w' =>
      cases hw
      show (ring m p (.stopDeadline w)).staff ≤ _
      cases he : p.roster.find? w with
      | none => simp only [ring, he, Nat.le_refl]
      | some e => simp only [ring, he, if_neg (h e he), Nat.le_refl]
    | _ => cases hw

/-- as long as no stopping worker leaves, the bound is kept -/
theorem staff_handle_le {p : Pool} (hs : p.roster.Sound) (hu : p.Uncrashed)
    (hb : p.config.minWorkers ≤ p.config.maxWorkers) (hl : p.staff ≤ p.config.maxWorkers)
    {msg : Message} (h : ∀ w e, msg.leaver? = some w → p.roster.find? w = some e →
      e.status ≠ .stopping) : (p.handle m msg).staff ≤ p.config.maxWorkers := by
  by_cases hc : msg.IsCalm
  · exact Nat.le_trans (handle_leaner hs hu hc).staff hl
  · cases msg with
    | call caller r =>
      cases r with
      | start =>
        show (start m p).staff ≤ _
        have h1 := staff_start_le (m := m) hs
        omega
      | _ => exact absurd trivial hc
    | report w event =>
      cases event with
      | fatal | exited =>
        exact Nat.le_trans (staff_depart_le hs hu rfl fun e he => h w e rfl he) hl
      | _ => exact absurd trivial hc
    | ring alarm =>
      cases alarm with
      | stopDeadline w =>
        exact Nat.le_trans (staff_depart_le hs hu rfl fun e he => h w e rfl he) hl
      | autoscaleTick => exact staff_autoscale_le hs hl
      | _ => exact absurd trivial hc

/-- **one step keeps the bound unless it overfills the pool** -/
theorem handle_staff {p : Pool} (hs : p.roster.Sound) (hu : p.Uncrashed)
    (hb : p.config.minWorkers ≤ p.config.maxWorkers) (hl : p.staff ≤ p.config.maxWorkers)
    (msg : Message) : (p.handle m msg).staff ≤ p.config.maxWorkers ↔ ¬ p.Overfills m msg := by
  constructor
  · rintro hle ⟨w, e, hw, he, hst, hrep, hrun, hatt, hfull⟩
    rw [handle_leaver hw he hst, finishStop_eq he, if_pos ⟨hrep, hrun⟩,
      staff_hire (sound_removed hs w e) hatt, staff_removed hs he hst] at hle
    omega
  · intro hno
    by_cases hlv : ∃ w e, msg.leaver? = some w ∧ p.roster.find? w = some e ∧ e.status = .stopping
    · obtain ⟨w, e, hw, he, hst⟩ := hlv
      have hrem := staff_removed hs he hst
      rw [handle_leaver hw he hst, finishStop_eq he]
      split
      · rename_i hr
        by_cases ha : m.attached = true
        · -- the replacement comes, so there must be room for it
          have hroom : p.staff < p.config.maxWorkers := by
            refine Nat.lt_of_not_le fun hfull => hno ?_
            exact ⟨w, e, hw, he, hst, hr.1, hr.2, ha, hfull⟩
          rw [staff_hire (sound_removed hs w e) ha]
          omega
        · rw [hire_of_detached (by simpa using ha)]
          omega
      · omega
    · exact staff_handle_le hs hu hb hl fun w e hw he hst => hlv ⟨w, e, hw, he, hst⟩

/-! ## whole runs -/

/-- what a run keeps, however many workers it has -/
structure Manned (c : Config) (p : Pool) : Prop where
  config : p.config = c
  sound : p.roster.Sound
  uncrashed : p.Uncrashed

theorem Manned.leaner {c : Config} {p q : Pool} (h : Manned c p) (hl : Leaner p q)
    (hs : q.roster.Sound) : Manned c q :=
  ⟨hl.config.trans h.config, hs, hl.uncrashed h.uncrashed⟩

theorem Manned.hire {c : Config} {p : Pool} (h : Manned c p) : Manned c (p.hire m) := by
  by_cases ha : m.attached = true
  · rw [hire_of_attached ha]
    refine ⟨h.config, h.sound.enrol m.now, fun e he => ?_⟩
    have he' : e ∈ (p.roster.enrol m.now).entries := he
    rw [h.sound.entries_enrol] at he'
    rcases List.mem_append.mp he' with he' | he'
    · exact h.uncrashed e he'
    · rw [List.mem_singleton.mp he']
      exact WorkerStatus.noConfusion
  · rw [hire_of_detached (by simpa using ha)]
    exact h

theorem Manned.moves {c : Config} {p q : Pool} (h : Manned c p) (hm : Moves m p q) :
    Manned c q := by
  induction hm with
  | refl => exact h
  | tail _ hm ih =>
    rcases hm with hm | rfl
    · exact ih.leaner (hm.leaner ih.sound) (hm.sound ih.sound)
    · exact ih.hire

theorem Manned.handle {c : Config} {p : Pool} (h : Manned c p) (msg : Message) :
    Manned c (p.handle m msg) := by
  obtain ⟨p1, p2, hi, hm, _, hq⟩ := handle_splits (m := m) h.sound msg
  rw [hq]
  have h1 := h.leaner (hi.leaner h.sound h.uncrashed) (hi.sound h.sound)
  have h2 := h1.moves hm
  exact ⟨h2.config, h2.sound, h2.uncrashed⟩

end Pool

theorem Config.min_le_max {c : Config} (h : c.validate = none) : c.minWorkers ≤ c.maxWorkers := by
  unfold validate at h
  split at h
  · cases h
  · split at h
    · cases h
    · rename_i hle
      exact Nat.le_of_not_lt hle

namespace Chronicle

open Pool

theorem run_snoc (c : Config) (xs : List (Moment × Message)) (x : Moment × Message) :
    run c (xs ++ [x]) = (run c xs).heed x.1 x.2 := run_append c xs [x]

theorem run_manned (c : Config) (xs : List (Moment × Message)) : Manned c (run c xs).pool := by
  induction xs using List.reverseRecOn with
  | nil => exact ⟨rfl, Roster.Sound.empty, fun e he => by cases he⟩
  | append_singleton xs x ih =>
    rw [run_snoc]
    have h := ih.handle (m := x.1) x.2
    exact ⟨h.config, h.sound, h.uncrashed⟩

/-- the step after `xs` keeps the bound unless it overfills the pool -/
theorem staff_snoc (c : Config) (hv : c.validate = none) (xs : List (Moment × Message))
    (x : Moment × Message) (hl : (run c xs).pool.staff ≤ c.maxWorkers) :
    (run c (xs ++ [x])).pool.staff ≤ c.maxWorkers ↔ ¬ (run c xs).pool.Overfills x.1 x.2 := by
  have h := run_manned c xs
  have hb : (run c xs).pool.config.minWorkers ≤ (run c xs).pool.config.maxWorkers := by
    rw [h.config]
    exact c.min_le_max hv
  have hstep := handle_staff (m := x.1) h.sound h.uncrashed hb (by rw [h.config]; exact hl) x.2
  rw [h.config] at hstep
  rw [run_snoc]
  exact hstep

/-- **the bound holds throughout a run iff no step of it overfills the pool**: whenever a stopping
worker that is to be replaced is gone, the pool has room for another live one -/
theorem staff_le_max_iff (c : Config) (hv : c.validate = none) (xs : List (Moment × Message)) :
    (∀ ys, ys <+: xs → (run c ys).pool.staff ≤ c.maxWorkers) ↔
      ∀ ys x, ys ++ [x] <+: xs → ¬ (run c ys).pool.Overfills x.1 x.2 := by
  constructor
  · intro h ys x hx
    have hy : ys <+: xs := (List.prefix_append ys [x]).trans hx
    exact (staff_snoc c hv ys x (h ys hy)).mp (h _ hx)
  · intro h ys
    induction ys using List.reverseRecOn with
    | nil => exact fun _ => Nat.zero_le _
    | append_singleton ys x ih =>
      intro hx
      have hy : ys <+: xs := (List.prefix_append ys [x]).trans hx
      exact (staff_snoc c hv ys x (ih hy)).mpr (h ys x hx)

/-- room for one worker -/
def single : Config := { minWorkers := 1, maxWorkers := 1, autoscaling := false }

/-- worker 1 is stuck on a task whose time runs out, the pool is stopped and started again, and
worker 1 ends only then -/
def lateReturn : List (Moment × Message) :=
  let m : Moment := ⟨⟨0, 0⟩, [], true⟩
  [(m, .call 0 .start),
    (m, .report 1 .ready),
    (m, .call 1 (.submit ⟨7⟩ .cacheCleanup .null {})),
    (m, .report 1 (.busy ⟨7⟩)),
    (m, .ring (.taskTimeout ⟨7⟩ 1)),
    (m, .call 2 .stop),
    (m, .call 3 .start),
    (m, .report 1 (.exited true))]

/-- one of the steps of `lateReturn` overfills the pool -/
theorem staff_le_max_iff_lateReturn : single.validate = none ∧
    ¬ ∀ ys x, ys ++ [x] <+: lateReturn → ¬ (run single ys).pool.Overfills x.1 x.2 := by
  refine ⟨rfl, fun h => ?_⟩
  have hall := (staff_le_max_iff single rfl lateReturn).mpr h lateReturn List.prefix_rfl
  exact absurd hall (by decide)

/-- the bound does not hold in every run -/
theorem staff_exceeds_max : ¬ ∀ (c : Config) (xs : List (Moment × Message)), c.validate = none →
    (run c xs).pool.staff ≤ c.maxWorkers := by
  intro h
  exact absurd (h single lateReturn rfl) (by decide)

end Chronicle

end TaskPool
