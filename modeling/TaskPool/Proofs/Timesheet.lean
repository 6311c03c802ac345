import TaskPool.Proofs.Stint
import Mathlib.Algebra.GroupWithZero.Nat
import Mathlib.Order.Interval.Finset.Nat

/-!
# How long handlers ran

* `Stint.Logs`          what is done to a worker and by it, each at its time, by a clock that never
                        goes back
* `Stint.runsAt`        a handler is running at a point in time
* `Stint.handlerTime`   for how long handlers were running between two points in time
* `Record.reading`      what the meter shows when a request for metrics is answered
* `Does.metering`       the four things that can be done to the meter of a worker that goes on
* `Logs.metered`        the meter shows how long handlers were running since the last sample
* `Logs.accounted`      so does every sample, and samples that follow one another add up

Why no time is counted twice or lost: the windows of the samples lie end to end, and the meter is
read at the very point in time where the one ends and the next begins.
-/

namespace TaskPool

/-! ## the meter as time passes -/

namespace Meter

/-- while nothing is done to it, the meter counts on if a handler is running -/
theorem busyAt_later (m : Meter) {time t : Nat} (hs : ∀ since ∈ m.runningSince, since ≤ time)
    (ht : time ≤ t) :
    m.busyAt t = m.busyAt time + if m.runningSince.isSome then t - time else 0 := by
  unfold busyAt
  cases hr : m.runningSince with
  | none => rfl
  | some since =>
    have hle : since ≤ time := hs since (by rw [hr]; rfl)
    simp only [Option.isSome_some, if_true]
    omega

theorem busyAt_enter {m : Meter} (hr : m.runningSince = none) (now : Nat) :
    (m.enter now).busyAt now = m.busyAt now := by
  unfold busyAt
  rw [hr]
  show m.busy + (now - now) = m.busy
  rw [Nat.sub_self, Nat.add_zero]

theorem busyAt_sample (m : Meter) (now : Nat) : (m.sample now).2.busyAt now = 0 := by
  unfold busyAt sample
  cases m.runningSince with
  | none => rfl
  | some since => exact (Nat.zero_add _).trans (Nat.sub_self now)

end Meter

namespace Worker

def isRunning (w : Worker) : Bool := w.phase.task?.isSome

end Worker

namespace Stint

/-! ## what is done, and when -/

/-- the clock that an action reads -/
def Action.clock? : Action → Option Nat
  | .act (.answer now _) | .act (.step now _) | .act (.finish now _) => some now
  | _ => none

/-- a request for metrics is answered -/
def Action.samples : Action → Bool
  | .act a => a.observes
  | _ => false

/-- what was done, when, and the worker before and after it -/
structure Record where
  time : Nat
  action : Action
  before : Stint
  after : Stint

/-- nothing of the log is later than `t` -/
def Upto (start : Nat) (log : List Record) (t : Nat) : Prop :=
  start ≤ t ∧ ∀ r ∈ log, r.time ≤ t

instance (start : Nat) (log : List Record) (t : Nat) : Decidable (Upto start log t) :=
  inferInstanceAs (Decidable (_ ∧ _))

/-- `log` is what was done from the start on -/
inductive Logs (id : WorkerId) (start : Nat) : List Record → Stint → Prop where
  | new : Logs id start [] (.new id start)
  | does {log : List Record} {s s' : Stint} {a : Action} (h : Logs id start log s)
      (ha : s.Does a s') (time : Nat) (ht : Upto start log time)
      (hc : ∀ now ∈ a.clock?, now = time) : Logs id start (log ++ [⟨time, a, s, s'⟩]) s'

/-- a handler is running at a point in time: the last that was done up to then has left one
running -/
def runsAt (log : List Record) (t : Nat) : Bool :=
  (log.reverse.find? fun r => decide (r.time ≤ t)).any fun r => r.after.bench.worker.isRunning

/-- for how long handlers were running from `a` to `b` -/
def handlerTime (log : List Record) (a b : Nat) : Nat :=
  ((Finset.Ico a b).filter fun t => runsAt log t = true).card

/-- when the last request for metrics was answered, or else the start -/
def lastSample (start : Nat) (log : List Record) : Nat :=
  ((log.filter fun r => r.action.samples).getLast?.map Record.time).getD start

/-- what the meter shows -/
def Record.reading (r : Record) : Meter.Reading := (r.before.bench.worker.meter.sample r.time).1

/-- what the samples of a log show -/
def readings (log : List Record) : List Meter.Reading :=
  (log.filter fun r => r.action.samples).map Record.reading

variable {id : WorkerId} {start time : Nat} {log earlier later window : List Record} {r : Record}
  {s s' : Stint} {a : Action} {t t' u : Nat}

theorem Logs.runs (h : Logs id start log s) : Runs id start (log.map Record.action) s := by
  induction h with
  | new => exact .new
  | does _ ha _ _ _ ih =>
    rw [List.map_append]
    exact ih.does ha

/-- a record stands between what was done before and what was done later -/
theorem Logs.split (h : Logs id start (earlier ++ r :: later) s) :
    Logs id start earlier r.before ∧ r.before.Does r.action r.after ∧
      Upto start earlier r.time ∧ (∀ now ∈ r.action.clock?, now = r.time) ∧
      ∀ x ∈ later, r.time ≤ x.time := by
  generalize hlog : earlier ++ r :: later = log at h
  induction h generalizing later with
  | new => exact absurd hlog (List.append_ne_nil_of_right_ne_nil _ (List.cons_ne_nil _ _))
  | @does log s s' a h ha time ht hc ih =>
    rcases List.eq_nil_or_concat later with rfl | ⟨later, x, rfl⟩
    · obtain ⟨rfl, hr⟩ := List.append_inj' hlog rfl
      cases hr
      exact ⟨h, ha, ht, hc, fun x hx => absurd hx List.not_mem_nil⟩
    · rw [List.concat_eq_append, ← List.cons_append, ← List.append_assoc] at hlog
      obtain ⟨rfl, hx⟩ := List.append_inj' hlog rfl
      cases hx
      obtain ⟨hbefore, hdoes, hupto, hclock, hlater⟩ := ih rfl
      refine ⟨hbefore, hdoes, hupto, hclock, fun x hx => ?_⟩
      rw [List.concat_eq_append] at hx
      rcases List.mem_append.mp hx with hx | hx
      · exact hlater x hx
      · rw [List.mem_singleton.mp hx]
        exact ht.2 r (List.mem_append_right _ (List.mem_cons_self ..))

/-! ## the time of the last sample -/

theorem lastSample_snoc_of_sample (h : r.action.samples = true) :
    lastSample start (log ++ [r]) = r.time := by
  simp [lastSample, h]

theorem lastSample_snoc_of_other (h : r.action.samples = false) :
    lastSample start (log ++ [r]) = lastSample start log := by
  simp [lastSample, h]

theorem lastSample_le (ht : Upto start log t) : lastSample start log ≤ t := by
  unfold lastSample
  cases hl : (log.filter fun r => r.action.samples).getLast? with
  | none => exact ht.1
  | some r => exact ht.2 r (List.mem_filter.mp (List.mem_of_getLast? hl)).1

/-! ## the time of handlers -/

theorem runsAt_snoc_of_le (h : r.time ≤ t) :
    runsAt (log ++ [r]) t = r.after.bench.worker.isRunning := by
  simp [runsAt, h]

theorem runsAt_append_of_lt (h : ∀ r ∈ later, t < r.time) :
    runsAt (log ++ later) t = runsAt log t := by
  have hnone : later.reverse.find? (fun r => decide (r.time ≤ t)) = none := by
    refine List.find?_eq_none.mpr fun r hr => ?_
    have hlt := h r (List.mem_reverse.mp hr)
    simp only [decide_eq_true_eq]
    omega
  rw [runsAt, List.reverse_append, List.find?_append, hnone, Option.none_or]
  rfl

/-- after all that was done, a handler is running iff the worker runs one -/
theorem Logs.runsAt_eq (h : Logs id start log s) (ht : Upto start log t) :
    runsAt log t = s.bench.worker.isRunning := by
  cases h with
  | new => rfl
  | does _ _ time =>
    exact runsAt_snoc_of_le (ht.2 _ (List.mem_append_right _ (List.mem_singleton_self _)))

theorem handlerTime_self (log : List Record) (t : Nat) : handlerTime log t t = 0 := by
  simp [handlerTime]

theorem handlerTime_le (log : List Record) (t u : Nat) : handlerTime log t u ≤ u - t := by
  rw [← Nat.card_Ico]
  exact Finset.card_filter_le _ _

/-- times that lie end to end add up -/
theorem handlerTime_add (log : List Record) (htt : t ≤ t') (htu : t' ≤ u) :
    handlerTime log t t' + handlerTime log t' u = handlerTime log t u := by
  have hd : Disjoint (Finset.Ico t t') (Finset.Ico t' u) := Finset.Ico_disjoint_Ico_consecutive ..
  unfold handlerTime
  rw [← Finset.Ico_union_Ico_eq_Ico htt htu, Finset.filter_union,
    Finset.card_union_of_disjoint (Finset.disjoint_filter_filter hd)]

/-- what is done at `u` or later leaves the time before alone -/
theorem handlerTime_append (h : ∀ r ∈ later, u ≤ r.time) :
    handlerTime (log ++ later) t u = handlerTime log t u := by
  unfold handlerTime
  congr 1
  refine Finset.filter_congr fun x hx => ?_
  rw [runsAt_append_of_lt fun r hr => Nat.lt_of_lt_of_le (Finset.mem_Ico.mp hx).2 (h r hr)]

/-- after all that was done, time is that of a handler if one is running -/
theorem Logs.handlerTime_eq (h : Logs id start log s) (ht : Upto start log t) :
    handlerTime log t u = if s.bench.worker.isRunning then u - t else 0 := by
  have hruns : ∀ x ∈ Finset.Ico t u, runsAt log x = s.bench.worker.isRunning := by
    intro x hx
    have hle := (Finset.mem_Ico.mp hx).1
    exact h.runsAt_eq ⟨ht.1.trans hle, fun r hr => (ht.2 r hr).trans hle⟩
  unfold handlerTime
  split
  · rename_i hrun
    rw [Finset.filter_true_of_mem fun x hx => (hruns x hx).trans hrun, Nat.card_Ico]
  · rename_i hrest
    rw [Finset.filter_false_of_mem fun x hx hx' => hrest ((hruns x hx).symm.trans hx')]
    rfl

/-! ## what is done to the meter -/

/-- what the action `a` at `time` makes of the meter of a worker, unless it ends the worker -/
inductive Metering (a : Action) (time : Nat) (v w : Worker) : Prop where
  | none (ha : a.samples = false) (hm : w.meter = v.meter) (hr : w.isRunning = v.isRunning)
      (hgo : w.hasEnded = v.hasEnded)
  | enter (ha : a.samples = false) (hm : w.meter = v.meter.enter time) (hp : v.phase = .waiting)
      (hr : w.isRunning = true)
  | leave (ha : a.samples = false) (hm : w.meter = v.meter.leave time)
      (hgo : v.hasEnded = false) (hr : w.isRunning = false)
  | sample (ha : a.samples = true) (hm : w.meter = (v.meter.sample time).2)
      (hr : w.isRunning = v.isRunning) (hgo : v.hasEnded = false)
  | ended (ha : a.samples = false) (hw : w.hasEnded = true)

section
variable {v w : Worker} {memory : Nat} {c : Command}

/-- a waiting worker starts a handler, or it ends -/
theorem metering_obey (ha : a.samples = false) (hc : c.isOrder = true) (hp : w.phase = .waiting)
    (hm : v.meter = w.meter) : Metering a time w (v.obey time memory c).1 := by
  cases c with
  | task id kind payload => exact .enter ha (congrArg (Meter.enter · time) hm) hp rfl
  | terminate => exact .ended ha rfl
  | reportMetrics => cases hc

/-- an order that comes while a handler runs is put off -/
theorem metering_overhear (ha : a.samples = false) (hc : c.isOrder = true) (hm : v.meter = w.meter)
    (hp : v.phase = w.phase) : Metering a time w (v.overhear time memory c).1 := by
  cases c with
  | task | terminate =>
    refine .none ha hm ?_ ?_
    · exact congrArg (fun p => p.task?.isSome) hp
    · show v.hasEnded = w.hasEnded
      rw [Worker.hasEnded, Worker.hasEnded, hp]
  | reportMetrics => cases hc

theorem metering_step {r : Worker × List Event} (ha : a.samples = false) (hn : ¬ w.asked)
    (h : w.step time memory = some r) : Metering a time w r.1 := by
  cases hp : w.phase with
  | unstarted =>
    cases Worker.step_cases h with
    | ready =>
      refine .none ha rfl ?_ ?_
      · rw [Worker.isRunning, Worker.isRunning, hp]
        rfl
      · rw [Worker.hasEnded, Worker.hasEnded, hp]
    | obey _ _ hp' | close hp' | overhear _ _ _ hp' =>
      rw [hp] at hp'
      cases hp'
  | waiting =>
    cases Worker.draws hp h with
    | deferred c rest hd =>
      have hc : w.upcoming = some c := by
        rw [Worker.upcoming, hp, hd]
        rfl
      exact metering_obey ha (isOrder_of_upcoming hn hc) hp rfl
    | inbox c rest hd hi =>
      have hc : w.upcoming = some c := by
        rw [Worker.upcoming, hp, hd, hi]
        rfl
      exact metering_obey ha (isOrder_of_upcoming hn hc) hp rfl
    | closed => exact .ended ha rfl
  | running t =>
    cases Worker.step_cases h with
    | overhear t' c rest hp' hi =>
      have hc : w.upcoming = some c := by
        rw [Worker.upcoming, hp, hi]
        rfl
      exact metering_overhear ha (isOrder_of_upcoming hn hc) rfl rfl
    | ready hp' | obey _ _ hp' | close hp' =>
      rw [hp] at hp'
      cases hp'
  | ended how =>
    rw [Worker.step_of_ended hp] at h
    cases h

theorem metering_finish (ha : a.samples = false) (w : Worker) (how : Ended) :
    Metering a time w (w.finish time how).1 := by
  unfold Worker.finish
  split
  · rename_i t hp
    have hgo : w.hasEnded = false := by rw [Worker.hasEnded, hp]
    cases how with
    | value v => exact .leave ha rfl hgo rfl
    | error causes => exact .leave ha rfl hgo rfl
    | panic detail => exact .ended ha rfl
  · exact .none ha rfl rfl rfl

end

/-- a request for metrics is answered with what the meter shows -/
theorem Logs.answer (h : Logs id start log s) (ha : s.Does a s') (hs : a.samples = true)
    (hc : ∀ now ∈ a.clock?, now = time) :
    s.bench.worker.hasEnded = false ∧
      s'.bench.worker.isRunning = s.bench.worker.isRunning ∧
      s'.bench.worker.meter = (s.bench.worker.meter.sample time).2 ∧
      ∃ memory, s'.bench.outgoing = s.bench.outgoing ++
        [.metrics ⟨(s.bench.worker.meter.sample time).1.share, memory, s.bench.worker.processed,
          s.bench.worker.failed⟩] := by
  obtain ⟨taken, hheard⟩ := h.runs.heard
  cases ha with
  | send | drop | kill => cases hs
  | act a b hact =>
    cases hact with
    | answer now memory r hasked hr =>
      obtain rfl : now = time := hc now rfl
      obtain ⟨hgo, left, hi, rfl⟩ := hheard.asked hasked hr
      exact ⟨hgo, rfl, rfl, memory, rfl⟩
    | step | finish | abort | watch => cases hs

theorem Does.metering (ha : s.Does a s') (hs : a.samples = false)
    (hc : ∀ now ∈ a.clock?, now = time) : Metering a time s.bench.worker s'.bench.worker := by
  cases ha with
  | send c =>
    unfold Stint.send
    split
    · rename_i hreach
      rw [Bench.tell, if_pos hreach]
      exact .none rfl rfl rfl rfl
    · exact .none rfl rfl rfl rfl
  | drop | kill => exact .none rfl rfl rfl rfl
  | act a b hact =>
    cases hact with
    | answer => cases hs
    | step now memory r hasked hr =>
      obtain rfl := hc now rfl
      exact metering_step rfl hasked hr
    | finish now how =>
      obtain rfl := hc now rfl
      exact metering_finish rfl s.bench.worker how
    | abort =>
      show Metering _ _ s.bench.worker s.bench.worker.abort
      unfold Worker.abort
      split
      · exact .none rfl rfl rfl rfl
      · exact .ended rfl rfl
    | watch => exact .none rfl rfl rfl rfl

theorem Logs.metering (h : Logs id start log s) (ha : s.Does a s')
    (hc : ∀ now ∈ a.clock?, now = time) : Metering a time s.bench.worker s'.bench.worker := by
  cases hs : a.samples with
  | true =>
    obtain ⟨hgo, hrun, hm, -⟩ := h.answer ha hs hc
    exact .sample hs hm hrun hgo
  | false => exact ha.metering hs hc

/-! ## what the meter shows -/

/-- the meter shows how long handlers were running since the last sample -/
structure Metered (start : Nat) (log : List Record) (w : Worker) : Prop where
  window : w.meter.windowStart = lastSample start log
  running : w.meter.runningSince.isSome = w.isRunning
  since : ∀ since ∈ w.meter.runningSince, ∀ t, Upto start log t → since ≤ t
  shown : ∀ t, Upto start log t → w.meter.busyAt t = handlerTime log (lastSample start log) t

/-- a meter that is right at the time of the last record stays right as time passes -/
theorem Logs.metered_of_time (h : Logs id start (log ++ [r]) s) (hr : Upto start log r.time)
    (hwindow : s.bench.worker.meter.windowStart = lastSample start (log ++ [r]))
    (hrun : s.bench.worker.meter.runningSince.isSome = s.bench.worker.isRunning)
    (hsince : ∀ since ∈ s.bench.worker.meter.runningSince, since ≤ r.time)
    (hshown : s.bench.worker.meter.busyAt r.time =
      handlerTime log (lastSample start (log ++ [r])) r.time) :
    Metered start (log ++ [r]) s.bench.worker := by
  have hself : Upto start (log ++ [r]) r.time := by
    refine ⟨hr.1, fun x hx => ?_⟩
    rcases List.mem_append.mp hx with hx | hx
    · exact hr.2 x hx
    · rw [List.mem_singleton.mp hx]
  have hlast {t : Nat} (ht : Upto start (log ++ [r]) t) : r.time ≤ t :=
    ht.2 r (List.mem_append_right _ (List.mem_singleton_self r))
  refine ⟨hwindow, hrun, fun since hs t ht => (hsince since hs).trans (hlast ht), fun t ht => ?_⟩
  have hbefore : handlerTime (log ++ [r]) (lastSample start (log ++ [r])) r.time =
      handlerTime log (lastSample start (log ++ [r])) r.time := by
    refine handlerTime_append fun x hx => ?_
    rw [List.mem_singleton.mp hx]
  rw [← handlerTime_add _ (lastSample_le hself) (hlast ht), hbefore, ← hshown,
    h.handlerTime_eq hself, ← hrun]
  exact Meter.busyAt_later _ hsince (hlast ht)

/-- **the meter of a worker that goes on is right** -/
theorem Logs.metered (h : Logs id start log s) (hgo : s.bench.worker.hasEnded = false) :
    Metered start log s.bench.worker := by
  induction h with
  | new =>
    refine ⟨rfl, rfl, fun since hs => (nomatch hs), fun t ht => ?_⟩
    have hstart : Upto start [] start := ⟨Nat.le_refl start, fun r hr => (nomatch hr)⟩
    exact ((Logs.new : Logs id start [] _).handlerTime_eq hstart).symm
  | @does log s s' a h ha time ht hc ih =>
    have hnew := h.does ha time ht hc
    cases h.metering ha hc with
    | none hs hm hr hg =>
      have old := ih (hg.symm.trans hgo)
      refine hnew.metered_of_time ht ?_ ?_ ?_ ?_
      · rw [hm, lastSample_snoc_of_other hs, old.window]
      · rw [hm, hr, old.running]
      · intro since hsince
        rw [hm] at hsince
        exact old.since since hsince time ht
      · rw [hm, lastSample_snoc_of_other hs, old.shown time ht]
    | enter hs hm hp hr =>
      have old := ih (by rw [Worker.hasEnded, hp])
      have hrest : s.bench.worker.meter.runningSince = none := by
        refine Option.not_isSome_iff_eq_none.mp ?_
        rw [old.running, Worker.isRunning, hp]
        exact Bool.false_ne_true
      refine hnew.metered_of_time ht ?_ ?_ ?_ ?_
      · rw [hm, lastSample_snoc_of_other hs]
        exact old.window
      · rw [hm, hr]
        rfl
      · intro since hsince
        rw [hm] at hsince
        cases hsince
        exact Nat.le_refl time
      · rw [hm, lastSample_snoc_of_other hs, Meter.busyAt_enter hrest, old.shown time ht]
    | leave hs hm hg hr =>
      have old := ih hg
      refine hnew.metered_of_time ht ?_ ?_ ?_ ?_
      · rw [hm, lastSample_snoc_of_other hs]
        exact old.window
      · rw [hm, hr]
        rfl
      · intro since hsince
        rw [hm] at hsince
        cases hsince
      · rw [hm, lastSample_snoc_of_other hs, Meter.busyAt_leave, old.shown time ht]
    | sample hs hm hr hg =>
      have old := ih hg
      refine hnew.metered_of_time ht ?_ ?_ ?_ ?_
      · rw [hm, lastSample_snoc_of_sample hs]
        rfl
      · rw [hm, hr, ← old.running]
        exact Option.isSome_map
      · intro since hsince
        rw [hm] at hsince
        obtain ⟨_, _, hnow⟩ := Option.map_eq_some_iff.mp hsince
        exact Nat.le_of_eq hnow.symm
      · rw [hm, lastSample_snoc_of_sample hs, Meter.busyAt_sample]
        exact (handlerTime_self log time).symm
    | ended hs hw =>
      rw [hw] at hgo
      cases hgo

/-! ## what samples show -/

/-- a sample shows for how long handlers were running since `since`, of the time that has passed -/
structure Record.Measures (r : Record) (log : List Record) (since : Nat) : Prop where
  since_le : since ≤ r.time
  elapsed : r.reading.elapsed = r.time - since
  busy : r.reading.busy = handlerTime log since r.time
  busy_le : r.reading.busy ≤ r.reading.elapsed
  told : ∃ memory, r.after.bench.outgoing = r.before.bench.outgoing ++
    [.metrics ⟨r.reading.share, memory, r.before.bench.worker.processed,
      r.before.bench.worker.failed⟩]

theorem Logs.measures (h : Logs id start (earlier ++ r :: later) s) (hr : r.action.samples = true) :
    r.Measures (earlier ++ r :: later) (lastSample start earlier) := by
  obtain ⟨hbefore, hdoes, hupto, hclock, hlater⟩ := h.split
  obtain ⟨hgo, -, -, htold⟩ := hbefore.answer hdoes hr hclock
  have hmetered := hbefore.metered hgo
  have helapsed : r.reading.elapsed = r.time - lastSample start earlier := by
    rw [← hmetered.window]
    rfl
  have hbusy : r.reading.busy =
      handlerTime (earlier ++ r :: later) (lastSample start earlier) r.time := by
    refine (hmetered.shown r.time hupto).trans (handlerTime_append fun x hx => ?_).symm
    rcases List.mem_cons.mp hx with rfl | hx
    · exact Nat.le_refl _
    · exact hlater x hx
  refine ⟨lastSample_le hupto, helapsed, hbusy, ?_, htold⟩
  rw [hbusy, helapsed]
  exact handlerTime_le ..

/-- the busy times of samples that follow one another add up to the time of handlers from the
sample before the first of them to the last -/
theorem Logs.sum_busy (h : Logs id start (earlier ++ window ++ later) s) :
    lastSample start earlier ≤ lastSample start (earlier ++ window) ∧
      ((readings window).map Meter.Reading.busy).sum =
        handlerTime (earlier ++ window ++ later) (lastSample start earlier)
          (lastSample start (earlier ++ window)) := by
  induction window using List.reverseRecOn generalizing later with
  | nil =>
    rw [List.append_nil, handlerTime_self]
    exact ⟨Nat.le_refl _, rfl⟩
  | append_singleton window r ih =>
    have hlog : earlier ++ (window ++ [r]) ++ later = earlier ++ window ++ r :: later := by simp
    rw [hlog] at h ⊢
    obtain ⟨hle, hsum⟩ := ih h
    rw [← List.append_assoc]
    cases hr : r.action.samples with
    | false =>
      have hsame : readings (window ++ [r]) = readings window := by simp [readings, hr]
      rw [hsame, lastSample_snoc_of_other hr]
      exact ⟨hle, hsum⟩
    | true =>
      have hmeasures := h.measures hr
      have hmore : readings (window ++ [r]) = readings window ++ [r.reading] := by
        simp [readings, hr]
      rw [hmore, lastSample_snoc_of_sample hr, List.map_append, List.sum_append, hsum,
        ← handlerTime_add _ hle hmeasures.since_le, ← hmeasures.busy]
      exact ⟨hle.trans hmeasures.since_le, by simp⟩

/-- **busy time is accounted exactly**: every sample shows for how long handlers were running since
the last one, which is no longer than the time that has passed, and samples that follow one another
add up to the time of handlers, nothing counted twice and nothing lost -/
theorem Logs.accounted (h : Logs id start log s) :
    (∀ earlier r later, log = earlier ++ r :: later → r.action.samples = true →
      r.Measures log (lastSample start earlier)) ∧
    ∀ earlier window later, log = earlier ++ window ++ later →
      ((readings window).map Meter.Reading.busy).sum =
        handlerTime log (lastSample start earlier) (lastSample start (earlier ++ window)) := by
  refine ⟨fun earlier r later hlog hr => ?_, fun earlier window later hlog => ?_⟩
  · subst hlog
    exact h.measures hr
  · subst hlog
    exact h.sum_busy.2

/-- a sample inside each of two handlers, so that the second of them shows a part of both, and one
between handlers -/
theorem accounted_crossing : ∃ log s, Logs 7 0 log s ∧
    readings log = [⟨2, 5⟩, ⟨6, 7⟩, ⟨2, 8⟩] ∧ handlerTime log 0 20 = 10 := by
  have h0 : Logs 7 0 [] (.new 7 0) := .new
  have h1 := h0.does (.send (.task ⟨1⟩ .cacheCleanup .null)) 0 (by decide) nofun
  have h2 := h1.does (.act _ _ (.step 0 64 _ nofun rfl)) 0 (by decide) (by decide)
  have h3 := h2.does (.act _ _ (.step 3 64 _ nofun rfl)) 3 (by decide) (by decide)
  have h4 := h3.does (.send .reportMetrics) 4 (by decide) nofun
  have h5 := h4.does (.act _ _ (.answer 5 64 _ rfl rfl)) 5 (by decide) (by decide)
  have h6 := h5.does (.act _ _ (.finish 9 (.value .null))) 9 (by decide) (by decide)
  have h7 := h6.does (.send (.task ⟨2⟩ .cacheCleanup .null)) 9 (by decide) nofun
  have h8 := h7.does (.act _ _ (.step 10 64 _ nofun rfl)) 10 (by decide) (by decide)
  have h9 := h8.does (.send .reportMetrics) 11 (by decide) nofun
  have h10 := h9.does (.act _ _ (.answer 12 64 _ rfl rfl)) 12 (by decide) (by decide)
  have h11 := h10.does (.act _ _ (.finish 14 (.error ["late"]))) 14 (by decide) (by decide)
  have h12 := h11.does (.send .reportMetrics) 20 (by decide) nofun
  have h13 := h12.does (.act _ _ (.answer 20 64 _ rfl rfl)) 20 (by decide) (by decide)
  obtain ⟨log, s, h, hread, hlast⟩ : ∃ log s, Logs 7 0 log s ∧
      readings log = [⟨2, 5⟩, ⟨6, 7⟩, ⟨2, 8⟩] ∧ lastSample 0 log = 20 := ⟨_, _, h13, rfl, rfl⟩
  have hsum := h.accounted.2 [] log [] (List.append_nil log).symm
  rw [List.nil_append, hlast, hread] at hsum
  exact ⟨log, s, h, hread, hsum.symm⟩

end Stint

end TaskPool
