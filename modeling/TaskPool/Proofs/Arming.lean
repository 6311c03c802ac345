import TaskPool.Proofs.Tending

/-!
# Timers that a message arms

An attempt that begins calls for its timeout, and one that fails calls for the next attempt.  With
what `Tending` says of chores, this is all that a message can do to the timers.

* `Rearms`                          a task changes, and its timer with it
* `Tends.begin`                     what a task called for is past, and it calls for something else
* `startAttempt_rearms`, `failTask_rearms`   what an attempt that begins or fails makes of its task
* `Tends.startAttempt`, `failTask`   so both keep the diary right
* `Tends.report`, `call`, `retry`   what a message does at once
* `handle_tends`                    a message keeps the diary right

Why attempts must be numbered as they are: the timeout of an attempt that is over may still be on
its way when the next attempt begins, and must not be taken for the timeout of that.
-/

namespace TaskPool

open Function Relation

namespace Pool

variable {m : Moment} {msg : Message} {s : Diary} {taken : List TaskId}

/-! ## attempts -/

section
variable {p q : Pool} {id : TaskId} {k k' : Task} (hk : p.ledger.find? id = some k)
  (hfind : ∀ t, q.ledger.find? t = if t = id then some k' else p.ledger.find? t)
  (hr : q.roster = p.roster)
include hfind hr

theorem want?_rewritten (hc : q.config = p.config) (a : Alarm) :
    q.want? a = if a.task? = some id then k'.want? a else p.want? a := by
  split
  · rename_i hat
    rw [want?_task q hat, hfind, if_pos rfl]
    rfl
  · rename_i hat
    refine want?_congr a (fun t ht => ?_) fun w _ => by rw [hr, hc]
    have hne : t ≠ id := by
      rintro rfl
      exact hat ht
    rw [hfind, if_neg hne]

include hk in
theorem past_rewritten (hret : k.retries ≤ k'.retries) {a : Alarm} (hp : p.Past taken a) :
    q.Past taken a := by
  refine Past.mono hp (List.Subset.refl _) (fun t _ x hx => ?_) (Nat.le_of_eq (by rw [hr]))
    fun w _ hw => by rw [hr]; exact hw
  rw [hfind] at hx
  split at hx
  · rename_i ht
    cases hx
    exact ⟨k, by rw [ht]; exact hk, hret⟩
  · exact ⟨x, hx, UInt32.le_refl _⟩

end

/-- what a task called for is past, and its timer is taken back -/
theorem Tends.lapse {p : Pool} (h : Tends m msg s taken p) {id : TaskId} {k : Task}
    (hk : p.ledger.find? id = some k) {es : List Effect} (hes : disarmed es = k.timer.toList)
    {past : Alarm → Prop} (hpast : ∀ b, p.Past taken b → past b)
    (hlate : ∀ b, b.task? = some id → k.want? b ≠ none → past b) :
    Diary.Right { p.diary s taken with
      timers := Clocks.without (p.diary s taken).timers (disarmed es)
      want := fun b => if b.task? = some id then none else p.want? b
      past := past } := by
  refine h.right.drop (disarmed es) (fun b => ?_) (fun i hi x hx hxi => ?_)
    (fun b _ hb => hpast b hb) fun i hi => hi
  · show (if b.task? = some id then none else p.want? b) = p.want? b ∨ _
    split
    · rename_i hbt
      refine .inr ⟨rfl, fun x hx => ?_, fun hrung => ?_⟩
      · obtain ⟨k', hk', hi⟩ := h.timer_of_armed hbt hx
        rw [hk] at hk'
        cases hk'
        rw [hes, hi]
        exact List.mem_singleton_self _
      · cases hkw : k.want? b with
        | some w => exact hlate b hbt (by rw [hkw]; exact Option.some_ne_none w)
        | none =>
          have hnone : p.want? b = none := by
            rw [want?_task p hbt, hk]
            exact hkw
          have hnb : b ≠ .autoscaleTick := by
            rintro rfl
            cases hbt
          have hslot := h.right.slot b hnb
          rw [show (p.diary s taken).want b = none from hnone] at hslot
          cases hslot with
          | idle _ hp => exact hpast b (hp hrung)
    · exact .inl rfl
  · rw [hes] at hi
    have hkt : k.timer = some x.id := hxi ▸ Option.mem_toList.mp hi
    exact .inr (if_pos (h.alarm_of_kept hk hx hkt))

/-- the task `k` becomes `k'`; its timer is taken back, and one is armed for `a` if somebody holds
on to the pool -/
structure Rearms (m : Moment) (id : TaskId) (k k' : Task) (a : Alarm) (d : Duration) (p q : Pool) :
    Prop where
  find? : ∀ t, q.ledger.find? t = if t = id then some k' else p.ledger.find? t
  ids : q.ledger.ids = p.ledger.ids
  roster : q.roster = p.roster
  config : q.config = p.config
  ticks : q.autoscaleTimer = p.autoscaleTimer
  next : q.nextTimer = if m.attached then p.nextTimer + 1 else p.nextTimer
  outbox : ∃ es, q.outbox
      = p.outbox ++ (es ++ ((if m.attached then [.arm p.nextTimer d a] else []) ++ [])) ∧
    (∀ e ∈ es, e.Armless) ∧ disarmed es = k.timer.toList

/-- what a task called for is past, and it calls for `a` instead -/
theorem Tends.begin {p q : Pool} (h : Tends m msg s taken p)
    (hsince : ∀ a, s.want a = none → s.since a = s.clock) {id : TaskId} {k k' : Task} {a : Alarm}
    {d : Duration} (hk : p.ledger.find? id = some k) (hq : Rearms m id k k' a d p q)
    (hat : a.task? = some id)
    (hwant : ∀ b, b.task? = some id → k'.want? b
      = if b = a then some ⟨if m.attached then some p.nextTimer else none, d⟩ else none)
    (hret : k.retries ≤ k'.retries)
    (hlate : ∀ b, b.task? = some id → k.want? b ≠ none → q.Past taken b)
    (hnew : ¬ q.Past taken a) (hbase : s.want a = none) (hmsg : msg.Begins a) :
    Tends m msg s taken q := by
  have hna : a ≠ .autoscaleTick := by
    rintro rfl
    cases hat
  have hall (b : Alarm) : q.want? b
      = update (fun b => if b.task? = some id then none else p.want? b) a
        (some ⟨if m.attached then some p.nextTimer else none, d⟩) b := by
    rw [want?_rewritten hq.find? hq.roster hq.config]
    by_cases hba : b = a
    · rw [hba, update_self, if_pos hat, hwant a hat, if_pos rfl]
    · rw [update_of_ne hba]
      by_cases hbt : b.task? = some id
      · rw [if_pos hbt, if_pos hbt, hwant b hbt, if_neg hba]
      · rw [if_neg hbt, if_neg hbt]
  obtain ⟨hunarmed, horigin⟩ := h.wants (q := q) fun b v hb => by
    rw [hall] at hb
    rcases update_eq_some hb with ⟨rfl, hv⟩ | ⟨_, hb⟩
    · refine .inr ⟨hmsg, fun hkept => ?_⟩
      rw [← Option.some.inj hv] at hkept
      cases ha : m.attached with
      | true =>
        rw [ha] at hkept
        cases hkept
      | false => rfl
    · exact .inl (Option.ite_none_left_eq_some.mp hb).2
  refine ⟨hq.roster ▸ h.sound, hq.ids ▸ h.nodup, fun t x hx => ?_,
    by rw [hq.roster]; exact h.entries, by rw [hq.roster]; exact h.older, ?_, hunarmed, horigin⟩
  · rw [hq.find?] at hx
    split at hx
    · rename_i hti
      cases hx
      -- it calls for `a`, so it runs or is to be tried again
      refine ⟨hti ▸ (h.tasks id k hk).1, Task.bare_of_want? (a := a) ?_⟩
      rw [hwant a hat, if_pos rfl]
      exact Option.some_ne_none _
    · exact h.tasks t x hx
  · obtain ⟨es, ho, he, hes⟩ := hq.outbox
    have hrest := h.lapse hk hes (fun b => past_rewritten hk hq.find? hq.roster hret) hlate
    have hbegin := hrest.begin hna (if_pos hat) hnew d (hsince a hbase) m.attached
    rw [diary_begin es [] m.attached ho he (fun _ he => by cases he) rfl hq.next, hq.ticks]
    exact hbegin.same hall fun b _ hb => hb

/-- the number of an attempt says how often the task was tried before -/
def Counted (p : Pool) (id : TaskId) : Prop :=
  ∀ k, p.ledger.find? id = some k →
    k.attempt = if k.status = .running then k.retries + 1 else k.retries

theorem lt_attempt (n : UInt32) : ¬ (n + 1 ≠ 0 ∧ n + 1 ≤ n) := by
  rintro ⟨h0, hle⟩
  have hle' : (n + 1).toNat ≤ n.toNat := hle
  have hpos : (n + 1).toNat ≠ 0 := fun hn => h0 (UInt32.toNat_inj.mp hn)
  have hlt := n.toNat_lt_size
  have hsize : UInt32.size = 4294967296 := rfl
  rw [UInt32.toNat_add] at hle' hpos
  have hone : (1 : UInt32).toNat = 1 := rfl
  omega

/-- a task that waits calls for nothing, and keeps no timer -/
theorem Tends.still {p : Pool} (h : Tends m msg s taken p) {id : TaskId} {k : Task}
    (hk : p.ledger.find? id = some k) (hs : k.status = .queued) :
    k.timer = none ∧ ∀ b, k.want? b = none := by
  refine ⟨(h.tasks id k hk).2 (by rw [hs]; exact Status.noConfusion)
    (by rw [hs]; exact Status.noConfusion), fun b => ?_⟩
  cases b <;> simp [Task.want?, hs]

theorem want?_begun {k : Task} {id : TaskId} (w : WorkerId) (timer : Option TimerId) {b : Alarm}
    (hb : b.task? = some id) : (begun w m.now timer k).want? b
      = if b = .taskTimeout id (k.attempt + 1) then some ⟨timer, k.terms.timeout⟩ else none := by
  cases b with
  | taskTimeout t n =>
    cases hb
    simp [Task.want?, begun, eq_comm]
  | retryDue t =>
    cases hb
    simp [Task.want?, begun]
  | _ => cases hb

theorem want?_retryLater {k : Task} {id : TaskId} (cause : FailureCause) (timer : Option TimerId)
    {b : Alarm} (hb : b.task? = some id) : (retryLater cause m.now timer k).want? b
      = if b = .retryDue id then some ⟨timer, k.terms.retryDelay⟩ else none := by
  cases b with
  | taskTimeout t n =>
    cases hb
    simp [Task.want?, retryLater]
  | retryDue t =>
    cases hb
    simp [Task.want?, retryLater]
  | _ => cases hb

/-- the task that a worker begins has kept no timer -/
theorem startAttempt_rearms {p : Pool} (w : WorkerId) {id : TaskId}
    (hno : ∀ k, p.ledger.find? id = some k → k.status = .queued → k.timer = none) :
    startAttempt m p id w = p ∨ ∃ k, p.ledger.find? id = some k ∧ k.status = .queued ∧
      Rearms m id k (begun w m.now (if m.attached then some p.nextTimer else none) k)
        (.taskTimeout id (k.attempt + 1)) k.terms.timeout p (startAttempt m p id w) := by
  have hcases := startAttempt_cases (m := m) p id w
  generalize Pool.startAttempt m p id w = q at hcases
  have hids (f : Task → Task) (hf : ∀ t, (f t).id = t.id) := Ledger.ids_modify p.ledger f hf id
  cases hcases with
  | skipped => exact .inl rfl
  | untimed k hk hs ha =>
    have hfind := Ledger.find?_modify_of_some (f := fun t => begun w m.now t.timer t)
      (fun _ => rfl) hk
    refine .inr ⟨k, hk, hs, fun t => ?_, hids _ fun _ => rfl, rfl, rfl, rfl, ?_, [], ?_,
      (fun _ he => nomatch he), by rw [hno k hk hs]; rfl⟩
    · rw [hfind, hno k hk hs, ha]
      rfl
    · rw [ha]
      rfl
    · rw [ha]
      exact (List.append_nil _).symm
  | timed k hk hs ha =>
    have hfind := Ledger.find?_modify_of_some (f := begun w m.now (some p.nextTimer))
      (fun _ => rfl) hk
    refine .inr ⟨k, hk, hs, fun t => ?_, hids _ fun _ => rfl, rfl, rfl, rfl, ?_, [], ?_,
      (fun _ he => nomatch he), by rw [hno k hk hs]; rfl⟩
    · rw [hfind, ha]
      rfl
    · rw [ha]
      rfl
    · rw [ha, Task.disarm, hno k hk hs]
      rfl

theorem failTask_rearms (p : Pool) (id : TaskId) (cause : FailureCause) :
    failTask m p id cause = p ∨
      (∃ k, p.ledger.find? id = some k ∧ failTask m p id cause
        = p.post (p.ledger.erase id) (k.resolve (.error (k.failure cause).unchecked))) ∨
      ∃ k, p.ledger.find? id = some k ∧ k.status ≠ .retrying ∧ k.retries < k.terms.maxRetries ∧
        Rearms m id k (retryLater cause m.now (if m.attached then some p.nextTimer else none) k)
          (.retryDue id) k.terms.retryDelay p (failTask m p id cause) := by
  have hcases := failTask_cases (m := m) p id cause
  generalize Pool.failTask m p id cause = q at hcases
  have hids (f : Task → Task) (hf : ∀ t, (f t).id = t.id) := Ledger.ids_modify p.ledger f hf id
  cases hcases with
  | skipped => exact .inl rfl
  | exhausted k hk => exact .inr (.inl ⟨k, hk, rfl⟩)
  | stranded k hk hs hr ha =>
    have hfind := Ledger.find?_modify_of_some (f := retryLater cause m.now none) (fun _ => rfl) hk
    refine .inr (.inr ⟨k, hk, hs, hr, fun t => ?_, hids _ fun _ => rfl, rfl, rfl, rfl, ?_,
      k.disarm.map Consequence.effect, ?_, armless_consequences _, disarmed_disarm k⟩)
    · rw [ha]
      exact hfind t
    · rw [ha]
      rfl
    · rw [ha]
      exact congrArg (p.outbox ++ ·) (List.append_nil _).symm
  | retried k hk hs hr ha =>
    have hfind := Ledger.find?_modify_of_some (f := retryLater cause m.now (some p.nextTimer))
      (fun _ => rfl) hk
    refine .inr (.inr ⟨k, hk, hs, hr, fun t => ?_, hids _ fun _ => rfl, rfl, rfl, rfl, ?_,
      k.disarm.map Consequence.effect, ?_, armless_consequences _, disarmed_disarm k⟩)
    · rw [ha]
      exact hfind t
    · rw [ha]
      rfl
    · rw [ha]
      rfl

theorem Tends.startAttempt {p : Pool} {w : WorkerId} {id : TaskId}
    (h : Tends m (.report w (.busy id)) s taken p)
    (hsince : ∀ a, s.want a = none → s.since a = s.clock)
    (hbase : ∀ n, s.want (.taskTimeout id n) = p.want? (.taskTimeout id n))
    (hnum : p.Counted id) : Tends m (.report w (.busy id)) s taken (startAttempt m p id w) := by
  rcases startAttempt_rearms (m := m) w fun k hk hs => (h.still hk hs).1 with
    hsame | ⟨k, hk, hs, hq⟩
  · rw [hsame]
    exact h
  have hidle := (h.still hk hs).2
  refine h.begin hsince hk hq rfl (fun b hb => want?_begun w _ hb) (UInt32.le_refl _)
    (fun b _ hb => absurd (hidle b) hb) ?_ ?_ ⟨w, rfl⟩
  · rintro ⟨_, hp⟩
    have hlt := hp _ ((hq.find? id).trans (if_pos rfl))
    have hn := hnum k hk
    rw [hs, if_neg Status.noConfusion] at hn
    rw [hn] at hlt
    exact lt_attempt k.retries hlt
  · rw [hbase, want?_task p rfl, hk]
    exact hidle (.taskTimeout id (k.attempt + 1))

/-- the number of retries does not wrap while one is left -/
theorem retries_add_one {k : Task} (hr : k.retries < k.terms.maxRetries) :
    k.retries + 1 ≠ 0 ∧ k.retries ≤ k.retries + 1 := by
  have hlt : k.retries.toNat < k.terms.maxRetries.toNat := hr
  have hmax := k.terms.maxRetries.toNat_lt_size
  have hadd : (k.retries + 1).toNat = k.retries.toNat + 1 := toNat_add_one (by omega)
  refine ⟨fun hn => ?_, ?_⟩
  · rw [hn] at hadd
    cases hadd
  · show k.retries.toNat ≤ (k.retries + 1).toNat
    rw [hadd]
    exact Nat.le_succ _

theorem Tends.failTask {p : Pool} {id : TaskId} (h : Tends m msg s taken p) (cause : FailureCause)
    (hsince : ∀ a, s.want a = none → s.since a = s.clock)
    (hbase : s.want (.retryDue id) = p.want? (.retryDue id)) (hnum : p.Counted id)
    (hmsg : msg.Begins (.retryDue id)) : Tends m msg s taken (failTask m p id cause) := by
  rcases failTask_rearms (m := m) p id cause with hsame | ⟨k, hk, hover⟩ | ⟨k, hk, hs, hr, hq⟩
  · rw [hsame]
    exact h
  · rw [hover]
    exact h.forgo hk rfl (armless_consequences _) (disarmed_resolve k _) rfl rfl rfl rfl rfl
  have hnow := (hq.find? id).trans (if_pos rfl)
  refine h.begin hsince hk hq rfl (fun b hb => want?_retryLater cause _ hb) (retries_add_one hr).2
    (fun b hb hw => ?_) ?_ ?_ hmsg
  · cases b with
    | taskTimeout t n =>
      cases hb
      have hrun : k.status = .running ∧ k.attempt = n := by
        refine Classical.byContradiction fun hno => hw ?_
        exact if_neg hno
      have hn := hnum k hk
      rw [hrun.1, if_pos rfl, hrun.2] at hn
      refine ⟨(h.tasks id k hk).1, fun k' hk' => ?_⟩
      rw [hnow] at hk'
      cases hk'
      rw [hn]
      exact ⟨(retries_add_one hr).1, UInt32.le_refl _⟩
    | retryDue t =>
      cases hb
      exact absurd (if_neg hs) hw
    | _ => cases hb
  · rintro ⟨_, hp⟩
    rw [hnow] at hp
    cases hp
  · rw [hbase, want?_task p rfl, hk]
    exact if_neg hs

/-! ## what messages do at once -/

theorem Tends.report {p q : Pool} {w : WorkerId} {event : Event}
    (h : Tends m (.report w event) s taken p) (hsince : ∀ a, s.want a = none → s.since a = s.clock)
    (hbase : ∀ a, s.want a = p.want? a) (hnum : ∀ id, p.Counted id)
    (hi : Impact m p (.report w event) q) : Tends m (.report w event) s taken q := by
  -- whoever is not on its way out before and after
  have hlive {e : Entry} (he : p.roster.find? w = some e) (hs : e.status ≠ .stopping)
      {f : Entry → Entry} (hf : ∀ e, (f e).worker = e.worker)
      (hst : ∀ e, (f e).status ≠ .stopping) (ht : ∀ e, (f e).stopTimer = e.stopTimer) :
      Tends m (.report w event) s taken (p.updateEntry w f) := by
    refine h.note w hf fun e' he' => Entry.dial_of_live ?_ (hst e') (ht e')
    rw [he] at he'
    cases he'
    exact hs
  have hidle {e : Entry} (he : p.roster.find? w = some e) (hs : e.status ≠ .stopping) :=
    hlive he hs (f := fun e => e.setIdle m.now) (fun _ => rfl) (fun _ => WorkerStatus.noConfusion)
      fun _ => rfl
  cases hi with
  | none => exact h
  | ready _ e he hs => exact hidle he (by rw [hs]; exact WorkerStatus.noConfusion)
  | idle _ e he hs => exact hidle he (by rw [hs]; exact WorkerStatus.noConfusion)
  | busy _ t e he hs =>
    have hbusy := hlive he hs (f := fun e => e.setBusy t m.now) (fun _ => rfl)
      (fun _ => WorkerStatus.noConfusion) fun _ => rfl
    exact hbusy.startAttempt hsince (fun n => hbase (.taskTimeout t n)) (hnum t)
  | busyLate _ t e he hs =>
    exact h.startAttempt hsince (fun n => hbase (.taskTimeout t n)) (hnum t)
  | result _ t v ledger cs ha hc =>
    obtain ⟨task, ht, _, rfl, rfl⟩ := Ledger.complete_eq_some hc
    have hnote := h.note w (f := fun e => { e with processed := e.processed + 1 }) (fun _ => rfl)
      fun _ _ => rfl
    exact hnote.forgo ht rfl (armless_consequences _) (disarmed_resolve task _) rfl rfl rfl rfl rfl
  | error _ t detail =>
    have hnote := h.note w (f := fun e => { e with failed := e.failed + 1 }) (fun _ => rfl)
      fun _ _ => rfl
    exact hnote.failTask (.handler detail) hsince (hbase (.retryDue t)) (hnum t)
      (.inl ⟨w, detail, rfl⟩)
  | crash _ _ detail e hd he => exact h.dispose he
  | crashBusy _ _ detail e t hd he =>
    have hl : ((p.dropEntry w).dispose e).ledger = p.ledger := dispose_ledger (p.dropEntry w) e
    refine (h.dispose he).failTask (.crash w detail) hsince ?_ (fun k hk => hnum t k (hl ▸ hk))
      (.inr ⟨w, event, detail, rfl, hd⟩)
    rw [hbase, want?_task p rfl, want?_task _ rfl, hl]

/-- a task that is taken in calls for nothing -/
theorem Tends.enroll {p q : Pool} (h : Tends m msg s taken p) {k : Task} (hid : k.id ∉ taken)
    (hnot : ∀ a, k.want? a = none) (hbare : k.Bare) (hl : q.ledger = p.ledger.insert k)
    (hr : q.roster = p.roster) (hc : q.config = p.config) (hn : q.nextTimer = p.nextTimer)
    (ht : q.autoscaleTimer = p.autoscaleTimer) (ho : q.outbox = p.outbox) :
    Tends m msg s (taken ++ [k.id]) q := by
  have hnone : p.ledger.find? k.id = none := by
    cases hf : p.ledger.find? k.id with
    | none => rfl
    | some k' => exact absurd (h.tasks k.id k' hf).1 hid
  have hfind : ∀ t, q.ledger.find? t = if t = k.id then some k else p.ledger.find? t := by
    rw [hl]
    exact Ledger.find?_insert p.ledger hnone
  have hwant : ∀ a, q.want? a = p.want? a := fun a => by
    refine want?_congr a (fun t _ => ?_) fun _ _ => by rw [hr, hc]
    rw [hfind]
    split
    · rename_i ht
      rw [ht, hnone]
      exact hnot a
    · rfl
  have hpast : ∀ a, p.Past taken a → q.Past (taken ++ [k.id]) a := by
    intro a hp
    refine Past.mono hp (List.subset_append_left _ _) (fun t ht k' hk' => ?_)
      (Nat.le_of_eq (by rw [hr])) fun _ _ hx => by rw [hr]; exact hx
    have hne : t ≠ k.id := by
      rintro rfl
      exact hid ht
    rw [hfind, if_neg hne] at hk'
    exact ⟨k', hk', UInt32.le_refl _⟩
  obtain ⟨hunarmed, horigin⟩ := h.wants_fewer fun a => .inl (hwant a)
  refine ⟨hr ▸ h.sound, ?_, fun t k' hk' => ?_, by rw [hr]; exact h.entries,
    by rw [hr]; exact h.older, ?_, hunarmed, horigin⟩
  · rw [hl, Ledger.ids_insert]
    refine List.nodup_append.mpr ⟨h.nodup, by simp, fun x hx y hy hxy => ?_⟩
    rw [List.mem_singleton.mp hy] at hxy
    exact Ledger.find?_eq_none.mp hnone (hxy ▸ hx)
  · rw [hfind] at hk'
    split at hk'
    · rename_i ht
      cases hk'
      exact ⟨List.mem_append_right _ (List.mem_singleton.mpr ht), hbare⟩
    · obtain ⟨hm, hb⟩ := h.tasks t k' hk'
      exact ⟨List.mem_append_left _ hm, hb⟩
  · have hright := h.right.same hwant fun a _ hp => hpast a hp
    unfold diary
    rw [ho, hn, ht]
    exact hright

theorem Tends.call {p q : Pool} {caller : CallId} {r : Request}
    (h : Tends m (.call caller r) s taken p) (hi : Impact m p (.call caller r) q)
    (hd : ∀ id kind payload options, r = .submit id kind payload options → id ∉ taken) :
    Tends m (.call caller r) s (taken ++ accepted (p.receipt (.call caller r))) q := by
  cases hi with
  | none _ hu =>
    rw [receipt_of_unmoved hu]
    show Tends m _ s (taken ++ []) p
    rw [List.append_nil]
    exact h
  | accept _ id kind payload options hr =>
    have hrec : accepted (p.receipt (.call caller (.submit id kind payload options))) = [id] := by
      rw [receipt, hr]
      rfl
    rw [hrec]
    exact h.enroll (k := Task.new id (terms p.config kind payload options) m.now)
      (hd id kind payload options rfl) (fun a => by cases a <;> rfl) (fun _ _ => rfl) rfl rfl rfl
      rfl rfl rfl

/-- a task that is to be tried again calls for nothing else, and not for that when it waits -/
theorem want?_reset {p q : Pool} {t : TaskId} {k : Task} (hk : p.ledger.find? t = some k)
    (hst : k.status = .retrying)
    (hfind : ∀ u, q.ledger.find? u = if u = t then some (Ledger.reset k) else p.ledger.find? u)
    (hr : q.roster = p.roster) (hc : q.config = p.config) (a : Alarm) :
    q.want? a = update p.want? (.retryDue t) none a := by
  have hnothing : (Ledger.reset k).want? a = none := by
    cases a <;> simp [Task.want?, Ledger.reset]
  rw [want?_rewritten hfind hr hc, hnothing]
  by_cases ha : a = .retryDue t
  · rw [ha, update_self]
    exact if_pos rfl
  · rw [update_of_ne ha]
    split
    · rename_i hat
      rw [want?_task p hat, hk]
      cases a with
      | taskTimeout u n => simp [Task.want?, hst]
      | retryDue u =>
        cases hat
        exact absurd rfl ha
      | _ => cases hat
    · rfl

/-- a task is called for, and waits again; its alarm is handled with that -/
theorem Tends.retry {p q : Pool} {t : TaskId} (h : Tends m (.ring (.retryDue t)) s taken p)
    (hr : Alarm.retryDue t ∈ s.rung) (hw : p.want? (.retryDue t) ≠ none)
    (hrun : p.running = true) (hi : Impact m p (.ring (.retryDue t)) q) :
    Tends m (.ring (.retryDue t)) { s with rung := s.rung.erase (.retryDue t) } taken q := by
  have hret {k : Task} (hk : p.ledger.find? t = some k) : k.status = .retrying := by
    refine Classical.byContradiction fun hno => hw ?_
    rw [want?_task p rfl, hk]
    exact if_neg hno
  cases hi with
  | none _ hu =>
    obtain ⟨x, hx⟩ := Option.ne_none_iff_exists'.mp hw
    obtain ⟨k, hk, _⟩ := Option.bind_eq_some_iff.mp hx
    exact absurd (hret hk) (Ledger.resetForRetry_eq_none (hu hrun) k hk)
  | retry _ ticket ledger _ hreset =>
    obtain ⟨k, hk, hst, _, rfl⟩ := Ledger.resetForRetry_eq_some hreset
    set q : Pool := { p with
      ledger := p.ledger.modify t Ledger.reset
      queue := p.queue.push ticket }
    have hf : ∀ k, (Ledger.reset k).id = k.id := fun _ => rfl
    have hfind : ∀ u, q.ledger.find? u
        = if u = t then some (Ledger.reset k) else p.ledger.find? u :=
      Ledger.find?_modify_of_some hf hk
    have hwant := want?_reset hk hst hfind rfl rfl
    obtain ⟨hunarmed, horigin⟩ := h.wants_fewer (q := q) fun a => by
      rw [hwant]
      by_cases ha : a = .retryDue t
      · exact .inr (by rw [ha, update_self])
      · exact .inl (update_of_ne ha _ _)
    obtain ⟨x, hx⟩ := Option.ne_none_iff_exists'.mp hw
    have hright := h.right.consume Alarm.noConfusion hr hx
    refine ⟨h.sound, ?_, fun u k' hk' => ?_, h.entries, h.older,
      hright.same hwant fun a _ hp => past_rewritten hk hfind rfl (UInt32.le_refl _) hp,
      hunarmed, horigin⟩
    · show (p.ledger.modify t Ledger.reset).ids.Nodup
      rw [Ledger.ids_modify p.ledger Ledger.reset hf]
      exact h.nodup
    · rw [hfind] at hk'
      split at hk'
      · rename_i hu
        cases hk'
        exact ⟨hu ▸ (h.tasks t k hk).1, fun _ _ => rfl⟩
      · exact h.tasks u k' hk'

/-- an alarm is handled that nothing calls for -/
theorem Tends.hear {p : Pool} (h : Tends m msg s taken p) {a : Alarm} (ha : p.want? a = none) :
    Tends m msg { s with rung := s.rung.erase a } taken p :=
  ⟨h.sound, h.nodup, h.tasks, h.entries, h.older, h.right.hear ha, h.unarmed, h.origin⟩

end Pool

/-- what is still to be handled once the message is -/
def Message.leaves (rung : List Alarm) : Message → List Alarm
  | .ring a => rung.erase a
  | _ => rung

namespace Pool

variable {m : Moment} {msg : Message} {s : Diary} {taken : List TaskId}

theorem Tends.ring {p : Pool} {a : Alarm} (h : Tends m (.ring a) s taken p)
    (hsince : ∀ a, s.want a = none → s.since a = s.clock) (ha : a ∈ s.rung)
    (hclosed : p.running = false → p.ledger.ids = []) :
    Tends m (.ring a) { s with rung := s.rung.erase a } taken (p.handle m (.ring a)) := by
  obtain ⟨p1, p2, himp, hc, hq⟩ := handle_chores (m := m) h.sound (.ring a)
  have hp2 : p.handle m (.ring a) = p2 := hq.trans (emitAll_nil p2)
  by_cases hret : ∃ t, a = .retryDue t
  · obtain ⟨t, rfl⟩ := hret
    by_cases hw : p.want? (.retryDue t) = none
    · rw [ring_of_unwanted Alarm.noConfusion hw]
      exact h.hear hw
    · have hrun : p.running = true := by
        obtain ⟨x, hx⟩ := Option.ne_none_iff_exists'.mp hw
        obtain ⟨k, hk, _⟩ := Option.bind_eq_some_iff.mp hx
        exact running_of_find? hclosed hk
      rw [hp2]
      exact hc.tends (h.retry ha hw hrun himp) hsince fun _ _ hm => by cases hm
  · have hnot : ∀ t, a ≠ .retryDue t := fun t ht => hret ⟨t, ht⟩
    have hp1 : p1 = p := by
      cases himp with
      | none => rfl
      | retry => exact absurd rfl (hnot _)
    rw [hp1] at hc
    refine Tends.hear ?_ (want?_handled h.sound hnot m)
    rw [hp2]
    refine hc.tends h hsince fun t n hm => ?_
    cases hm
    exact ha

/-- **a message keeps the diary right** -/
theorem handle_tends {p : Pool} (h : Tends m msg s taken p)
    (hsince : ∀ a, s.want a = none → s.since a = s.clock) (hbase : ∀ a, s.want a = p.want? a)
    (hnum : ∀ id, p.Counted id) (hclosed : p.running = false → p.ledger.ids = [])
    (hrung : ∀ a, msg = .ring a → a ∈ s.rung)
    (hdraws : ∀ caller id kind payload options,
      msg = .call caller (.submit id kind payload options) → id ∉ taken) :
    Tends m msg { s with rung := msg.leaves s.rung } (taken ++ accepted (p.receipt msg))
      (p.handle m msg) := by
  obtain ⟨p1, p2, himp, hc, hq⟩ := handle_chores (m := m) h.sound msg
  cases msg with
  | call caller r =>
    rw [hq]
    have h1 := h.call himp fun id kind payload options hr =>
      hdraws caller id kind payload options (by rw [hr])
    have h2 := hc.tends h1 hsince fun _ _ hm => by cases hm
    refine h2.silent rfl (fun e he => ?_) ?_ rfl rfl rfl rfl rfl
    · obtain ⟨_, _, rfl⟩ := mem_receipt he
      trivial
    · refine List.filterMap_eq_nil_iff.mpr fun e he => ?_
      obtain ⟨_, _, rfl⟩ := mem_receipt he
      rfl
  | report w event =>
    rw [show p.handle m (.report w event) = p2 from hq.trans (emitAll_nil p2)]
    show Tends m _ s (taken ++ []) p2
    rw [List.append_nil]
    exact hc.tends (h.report hsince hbase hnum himp) hsince fun _ _ hm => by cases hm
  | ring a =>
    show Tends m _ _ (taken ++ []) _
    rw [List.append_nil]
    exact h.ring hsince (hrung a rfl) hclosed

end Pool

end TaskPool
