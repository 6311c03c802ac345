import TaskPool.Proofs.Staging

/-!
# Every step keeps the harmony

What a message does at once is in order together with the message: a report is taken off the bench
that sent it, and a submission brings a task that was not there before.

* `Tuned.staged_of_report`   what a report does at once
* `Tuned.staged_of_other`    what a call or an alarm does at once
* `InStep`                   a workshop in harmony, with nothing to warn of so far
* `Reachable.inStep`         every reachable workshop is in step

Why reports are the hard part: the same report means something else at another station of the
bench, and `Harmony.hears` says which stations can send it.
-/

namespace TaskPool

open Function Relation

namespace Pool

variable {m : Moment} {now : Nat} {bench : WorkerId → Option Bench} {taken : List TaskId}

/-! ## attempts, as far as benches can tell -/

/-- only the ledger changes, and discreetly -/
structure Quietly (p q : Pool) : Prop where
  discreet : Discreet p q
  roster : q.roster = p.roster
  queue : q.queue = p.queue

/-- the failure of a running attempt: the task is over or to be tried again -/
theorem failTask_running {p : Pool} {id : TaskId} {o : Option WorkerId} (cause : FailureCause)
    (h : p.ledger.sight id = some (.running, o)) :
    Quietly p (failTask m p id cause) ∧
      ∃ y, (failTask m p id cause).ledger.sight = update p.ledger.sight id y ∧
        ∀ z : Sight, y = some z → z.1 = .retrying := by
  obtain ⟨t0, ht0, hst0, _⟩ := Ledger.find?_of_sight h
  have hc := failTask_cases (m := m) p id cause
  generalize failTask m p id cause = q at hc
  cases hc with
  | skipped hsk =>
    rw [hsk t0 ht0] at hst0
    cases hst0
  | exhausted t ht =>
    exact ⟨⟨.consequences _ rfl, rfl, rfl⟩, none, Ledger.sight_erase _ id,
      fun z hz => nomatch hz⟩
  | stranded t ht =>
    refine ⟨⟨.consequences _ rfl, rfl, rfl⟩, some (.retrying, t.worker), ?_,
      fun z hz => by cases hz; rfl⟩
    exact Ledger.sight_modify p.ledger (retryLater cause m.now none) (fun _ => rfl) id ht
  | retried t ht =>
    have hdisarm : Discreet p (p.post p.ledger t.disarm) := .consequences _ rfl
    refine ⟨⟨hdisarm.trans ?_, rfl, rfl⟩, some (.retrying, t.worker), ?_,
      fun z hz => by cases hz; rfl⟩
    · refine .one (e := .arm p.nextTimer t.terms.retryDelay (.retryDue id)) ?_ trivial
        fun _ => Effect.noConfusion
      exact (List.append_assoc ..).symm
    exact Ledger.sight_modify p.ledger (retryLater cause m.now (some p.nextTimer))
      (fun _ => rfl) id ht

theorem failTask_unknown {p : Pool} {id : TaskId} (cause : FailureCause)
    (h : p.ledger.sight id = none) : failTask m p id cause = p := by
  unfold failTask Ledger.fail
  rw [Ledger.sight_eq_none.mp h]
  rfl

/-- the begin of an attempt -/
theorem startAttempt_queued {p : Pool} {id : TaskId} {o : Option WorkerId} (w : WorkerId)
    (h : p.ledger.sight id = some (.queued, o)) :
    Quietly p (startAttempt m p id w) ∧ (startAttempt m p id w).ledger.sight
      = update p.ledger.sight id (some (.running, some w)) := by
  obtain ⟨t0, ht0, hst0, _⟩ := Ledger.find?_of_sight h
  have hc := startAttempt_cases (m := m) p id w
  generalize startAttempt m p id w = q at hc
  cases hc with
  | skipped hsk => exact absurd hst0 (hsk t0 ht0)
  | untimed t ht =>
    refine ⟨⟨.refl rfl, rfl, rfl⟩, ?_⟩
    exact Ledger.sight_modify p.ledger (fun t => begun w m.now t.timer t) (fun _ => rfl) id ht
  | timed t ht =>
    have harm : Discreet p (p.emit
        (.arm p.nextTimer t.terms.timeout (.taskTimeout id (t.attempt + 1)))) :=
      .one rfl trivial fun _ => Effect.noConfusion
    refine ⟨⟨harm.trans (.consequences t.disarm (List.append_cons ..)), rfl, rfl⟩, ?_⟩
    exact Ledger.sight_modify p.ledger (begun w m.now (some p.nextTimer)) (fun _ => rfl) id ht

theorem startAttempt_unknown {p : Pool} {id : TaskId} (w : WorkerId)
    (h : p.ledger.sight id = none) : startAttempt m p id w = p := by
  unfold startAttempt Ledger.startAttempt
  rw [Ledger.sight_eq_none.mp h]
  rfl

/-! ## impacts -/

/-- a pool between two messages -/
structure Tuned (bench : WorkerId → Option Bench) (taken : List TaskId) (p : Pool) : Prop where
  sound : p.roster.Sound
  outbox : p.outbox = []
  harmony : (p.scene bench taken).Harmony

theorem Tuned.staged_aside {p q : Pool} (h : Tuned bench taken p) {bench' : WorkerId → Option Bench}
    {taken' : List TaskId}
    (hg : m.Parted bench')
    (hd : Discreet p q) (hs : q.roster.Sound) (hh : (q.scene bench' taken').Harmony) :
    Staged m now bench' taken' q := by
  obtain ⟨es, ho, ha, hc⟩ := hd
  rw [h.outbox, List.nil_append] at ho
  have hst : stage now bench' q.outbox = bench' := by rw [ho, stage_aside ha]
  exact ⟨hs, by rw [hst]; exact hh, by rw [hst]; exact hg, by rw [ho]; exact hc⟩

/-- a task is taken in -/
theorem Tuned.staged_accept {p : Pool} (h : Tuned bench taken p) (hg : m.Parted bench) {t : Task}
    (ht : t.id ∉ taken) (hs : t.status = .queued) (hw : t.worker = none) :
    Staged m now bench (taken ++ [t.id])
      { p with
        ledger := p.ledger.insert t
        queue := p.queue.push t.ticket } := by
  have hnone : p.ledger.find? t.id = none := by
    cases hf : p.ledger.find? t.id with
    | none => rfl
    | some x => exact absurd (h.harmony.listed t.id _ (Ledger.sight_of_find? hf)).1 ht
  have hperm : (p.queue.push t.ticket).tasks.Perm (t.id :: p.queue.tasks) :=
    (Queue.push_perm p.queue t.ticket).map Ticket.task
  refine h.staged_aside hg (.refl rfl) h.sound ?_
  have hh := h.harmony.accept ht hperm
  unfold scene at hh ⊢
  show Scene.Harmony ⟨_, (p.ledger.insert t).sight, _, _, _, _⟩
  rw [Ledger.sight_insert p.ledger hnone, hs, hw]
  exact hh

/-- a task that was to be tried again waits again -/
theorem Tuned.staged_requeue {p : Pool} (h : Tuned bench taken p) (hg : m.Parted bench) {id : TaskId}
    {t : Task} (ht : p.ledger.find? id = some t) (hs : t.status = .retrying) :
    Staged m now bench taken
      { p with
        ledger := p.ledger.modify id Ledger.reset
        queue := p.queue.push t.ticket } := by
  have hid : t.id = id := Ledger.id_of_find? ht
  have hsight : p.ledger.sight id = some (.retrying, t.worker) := by
    rw [Ledger.sight_of_find? ht, hs]
  have hperm : (p.queue.push t.ticket).tasks.Perm (id :: p.queue.tasks) := by
    have := (Queue.push_perm p.queue t.ticket).map Ticket.task
    rw [← hid]
    exact this
  refine h.staged_aside hg (.refl rfl) h.sound ?_
  have hh := h.harmony.requeue hsight hperm
  unfold scene at hh ⊢
  show Scene.Harmony ⟨_, (p.ledger.modify id Ledger.reset).sight, _, _, _, _⟩
  rw [Ledger.sight_modify p.ledger Ledger.reset (fun _ => rfl) id ht]
  exact hh

/-- a call or an alarm whose impact is not yet followed by anything -/
theorem Tuned.staged_of_other {p q : Pool} {msg : Message} (h : Tuned bench taken p)
    (hg : m.Parted bench) (hi : Impact m p msg q) (hmsg : ∀ w e, msg ≠ .report w e)
    (hd : ∀ caller id kind payload options,
      msg = .call caller (.submit id kind payload options) → id ∉ taken) :
    Staged m now bench (taken ++ accepted (p.receipt msg)) q := by
  cases hi with
  | accept caller id kind payload options hr =>
    rw [accepted_receipt hr]
    exact h.staged_accept hg (t := .new id (terms p.config kind payload options) m.now)
      (hd caller id kind payload options rfl) rfl rfl
  | retry t ticket ledger hr hreset =>
    obtain ⟨task, ht, hst, rfl, rfl⟩ := Ledger.resetForRetry_eq_some hreset
    show Staged m now bench (taken ++ []) _
    rw [List.append_nil]
    exact h.staged_requeue hg ht hst
  | none _ hu =>
    rw [receipt_of_unmoved hu]
    show Staged m now bench (taken ++ []) p
    rw [List.append_nil]
    exact h.staged_aside hg (.refl rfl) h.sound h.harmony
  | _ => exact absurd rfl (hmsg _ _)

/-! ## reports -/

/-- the pool does not stand by a worker that is gone or stopping -/
theorem not_stale {p : Pool} {w : WorkerId} {e : Entry} (he : p.roster.find? w = some e)
    (hs : e.status ≠ .stopping)
    (hp : p.roster.post w = none ∨ p.roster.post w = some (.stopping, none)) : False := by
  rw [Roster.post_of_find? he] at hp
  rcases hp with hp | hp
  · cases hp
  · exact hs (congrArg Prod.fst (Option.some.inj hp))

theorem sight_of_isAssignedTo {p : Pool} {t : TaskId} {w : WorkerId}
    (ha : p.isAssignedTo t w = true) : p.ledger.sight t ≠ none := by
  unfold isAssignedTo at ha
  intro hs
  rw [Ledger.sight_eq_none.mp hs] at ha
  cases ha

theorem isAssignedTo_of_sight {p : Pool} {t : TaskId} {w : WorkerId} {st : Status}
    (h : p.ledger.sight t = some (st, some w)) : p.isAssignedTo t w = true := by
  obtain ⟨task, ht, _, hw⟩ := Ledger.find?_of_sight h
  unfold isAssignedTo
  rw [ht]
  have hw' : task.worker = some w := hw
  simp only [hw', beq_self_eq_true]

variable {p q : Pool} {w : WorkerId} {b : Bench} {e : Event} {rest : List Event}

theorem Tuned.staged_stale (h : Tuned bench taken p) (hb : bench w = some b)
    (ho : b.outgoing = e :: rest)
    (hp : p.roster.post w = none ∨ p.roster.post w = some (.stopping, none))
    (ht : ∀ t, e.task? = some t → p.ledger.sight t = none)
    (hg : m.Parted (update bench w (some (b.pop rest))))
    (hi : Impact m p (.report w e) q) :
    Staged m now (update bench w (some (b.pop rest))) taken q := by
  have hh := h.harmony.pop_stale hb hp fun t => Bench.names_pop (t := t) ho
  cases hi with
  | none => exact h.staged_aside hg (.refl rfl) h.sound hh
  | busyLate _ t e he hs =>
    rw [startAttempt_unknown w (ht t rfl)]
    exact h.staged_aside hg (.refl rfl) h.sound hh
  | ready _ e he hs | idle _ e he hs =>
    exact (not_stale he (by rw [hs]; exact WorkerStatus.noConfusion) hp).elim
  | busy _ t e he hs | crash _ _ _ e _ he hs | crashBusy _ _ _ e _ _ he hs =>
    exact (not_stale he hs hp).elim
  | result _ t v ledger cs ha | error _ t detail ha =>
    exact absurd (ht t rfl) (sight_of_isAssignedTo ha)

/-- the records after a report was handled, and taken off its bench -/
theorem Tuned.staged_records (h : Tuned bench taken p) {bench' : WorkerId → Option Bench}
    {post : WorkerId → Option Post} {sight : TaskId → Option Sight}
    (hg : m.Parted bench')
    (hd : Discreet p q) (hs : q.roster.Sound) (hn : q.roster.nextId = p.roster.nextId)
    (hq : q.queue = p.queue) (hp : q.roster.post = post) (hl : q.ledger.sight = sight)
    (hh : Scene.Harmony { p.scene bench taken with
      post := post
      sight := sight
      bench := bench' }) : Staged m now bench' taken q := by
  refine h.staged_aside hg hd hs ?_
  unfold scene at hh ⊢
  rw [hp, hl, hn, hq]
  exact hh

theorem Tuned.staged_rest (h : Tuned bench taken p) (hb : bench w = some b)
    (hs : (b.pop rest).Serves) (hr : (b.pop rest).Resting)
    (hfree : (p.scene bench taken).Free w) {e : Entry} (he : p.roster.find? w = some e)
    (hg : m.Parted (update bench w (some (b.pop rest)))) :
    Staged m now (update bench w (some (b.pop rest))) taken
      (p.updateEntry w fun e => e.setIdle m.now) := by
  have hsound : (p.roster.modify w fun e => e.setIdle m.now).Sound := by
    refine h.sound.modify _ ?_ w
    exact fun _ => rfl
  exact h.staged_records hg (.refl rfl) hsound rfl rfl
    (Roster.post_modify p.roster (fun e => e.setIdle m.now) (fun _ => rfl) w he) rfl
    (h.harmony.rest hb hs hr hfree)

/-- the worker has taken up its task -/
theorem Tuned.staged_begin (h : Tuned bench taken p) {t : TaskId} (hb : bench w = some b)
    (hp : p.roster.post w = some (.busy, some t)) (hsv : (b.pop rest).Serves) (hk : t ∈ taken)
    (ha : (b.pop rest).Acked t)
    (ht : p.ledger.sight t = none ∨ p.ledger.sight t = some (.queued, some w))
    (hg : m.Parted (update bench w (some (b.pop rest)))) :
    Staged m now (update bench w (some (b.pop rest))) taken
      (startAttempt m (p.updateEntry w fun e => e.setBusy t m.now) t w) := by
  obtain ⟨e, he, _⟩ := Roster.find?_of_post hp
  set p1 := p.updateEntry w fun e => e.setBusy t m.now
  have hp1 : p1.roster.post = update p.roster.post w (some (.busy, some t)) :=
    Roster.post_modify p.roster (fun e => e.setBusy t m.now) (fun _ => rfl) w he
  have hs1 : p1.roster.Sound := by
    refine h.sound.modify _ ?_ w
    exact fun _ => rfl
  rcases ht with ht | ht
  · rw [startAttempt_unknown (p := p1) w ht]
    exact h.staged_records hg (.refl rfl) hs1 rfl rfl hp1 rfl
      (h.harmony.move_on hb hp ht (.acked t hsv hk ha (.inl ht)))
  · obtain ⟨hq, hsight⟩ := startAttempt_queued (m := m) (p := p1) w ht
    refine h.staged_records hg ?_ ?_ ?_ hq.queue (hq.roster ▸ hp1) hsight
      (h.harmony.begin hb hp hsv hk ha ht)
    · exact Discreet.trans (.refl rfl) hq.discreet
    · exact hq.roster ▸ hs1
    · rw [hq.roster]
      rfl

section
variable {t : TaskId} (h : Tuned bench taken p) (hb : bench w = some b)
  (hp : p.roster.post w = some (.busy, some t)) (hsv : (b.pop rest).Serves) (hk : t ∈ taken)
  (hsp : (b.pop rest).Spent) (hg : m.Parted (update bench w (some (b.pop rest))))
include h hb hp hsv hk hsp

/-- the task may be over, or to be tried again -/
theorem Tuned.harmony_tell {y : Option Sight} (hr : p.ledger.sight t = some (.running, some w))
    (hy : ∀ z, y = some z → z.1 = .retrying) :
    Scene.Harmony { p.scene bench taken with
      post := p.roster.post
      sight := update p.ledger.sight t y
      bench := update bench w (some (b.pop rest)) } := by
  have hself : update p.roster.post w (some (.busy, some t)) = p.roster.post := by
    rw [← hp, update_eq_self]
  have hh := h.harmony.tell hb hp hsv hk hsp hr hy
  rw [← hself]
  exact hh

include hg

/-- the task was over before its worker told how it ended -/
theorem Tuned.staged_over (hover : p.ledger.sight t = none) :
    Staged m now (update bench w (some (b.pop rest))) taken p := by
  have hself : update p.roster.post w (some (.busy, some t)) = p.roster.post := by
    rw [← hp, update_eq_self]
  exact h.staged_records hg (.refl rfl) h.sound rfl rfl hself.symm rfl
    (h.harmony.move_on hb hp hover (.spent t hsv hk hsp))

theorem Tuned.staged_result {v : Json}
    (ht : p.ledger.sight t = none ∨ p.ledger.sight t = some (.running, some w))
    (hi : Impact m p (.report w (.result t v)) q) :
    Staged m now (update bench w (some (b.pop rest))) taken q := by
  cases hi with
  | none _ hu =>
    refine h.staged_over hb hp hsv hk hsp hg (ht.resolve_right fun ht => ?_)
    -- the result of a running attempt is never passed over
    have hc := hu (isAssignedTo_of_sight ht)
    obtain ⟨task, hf, hst, _⟩ := Ledger.find?_of_sight ht
    have hst' : task.status = .running := hst
    unfold Ledger.complete at hc
    rw [hf] at hc
    simp [hst'] at hc
  | result _ _ _ ledger cs ha hc =>
    have hr := ht.resolve_left (sight_of_isAssignedTo ha)
    obtain ⟨task, _, _, rfl, _⟩ := Ledger.complete_eq_some hc
    refine h.staged_records hg (.consequences cs rfl) ?_ rfl rfl ?_ (Ledger.sight_erase ..)
      (h.harmony_tell hb hp hsv hk hsp hr fun z hz => nomatch hz)
    · refine h.sound.modify _ ?_ w
      exact fun _ => rfl
    · exact p.roster.post_modify_same (fun e => { e with processed := e.processed + 1 })
        (fun _ => rfl) (fun _ => rfl) (fun _ => rfl) w
  | crash _ _ _ _ hd | crashBusy _ _ _ _ _ hd => cases hd

theorem Tuned.staged_error {detail : String}
    (ht : p.ledger.sight t = none ∨ p.ledger.sight t = some (.running, some w))
    (hi : Impact m p (.report w (.error t detail)) q) :
    Staged m now (update bench w (some (b.pop rest))) taken q := by
  cases hi with
  | none _ hu =>
    refine h.staged_over hb hp hsv hk hsp hg (ht.resolve_right fun ht => ?_)
    have := (isAssignedTo_of_sight ht).symm.trans hu
    cases this
  | error _ _ _ ha =>
    set p1 := p.updateEntry w fun e => { e with failed := e.failed + 1 }
    have hr : p.ledger.sight t = some (.running, some w) :=
      ht.resolve_left (sight_of_isAssignedTo ha)
    obtain ⟨hq, y, hsight, hy⟩ := failTask_running (m := m) (p := p1) (.handler detail) hr
    refine h.staged_records hg ?_ ?_ ?_ hq.queue ?_ hsight
      (h.harmony_tell hb hp hsv hk hsp hr hy)
    · exact Discreet.trans (.refl rfl) hq.discreet
    · rw [hq.roster]
      refine h.sound.modify _ ?_ w
      exact fun _ => rfl
    · rw [hq.roster]
      rfl
    · rw [hq.roster]
      exact p.roster.post_modify_same (fun e => { e with failed := e.failed + 1 })
        (fun _ => rfl) (fun _ => rfl) (fun _ => rfl) w
  | crash _ _ _ _ hd | crashBusy _ _ _ _ _ hd => cases hd

end

/-- the worker has crashed over its task: the task is over already, or the crash is what ends its
attempt -/
theorem Tuned.harmony_crash (h : Tuned bench taken p) {t : TaskId} {b' : Bench}
    {cause : FailureCause} (hb : bench w = some b)
    (hp : p.roster.post w = some (.busy, some t)) (hk : t ∈ taken) (hn : ∀ x, ¬ b'.Names x)
    (ht : p.ledger.sight t = none ∨ p.ledger.sight t = some (.running, some w)) {p1 : Pool}
    (hl : p1.ledger = p.ledger) :
    Quietly p1 (failTask m p1 t cause) ∧
      Scene.Harmony { p.scene bench taken with
        post := update p.roster.post w none
        sight := (failTask m p1 t cause).ledger.sight
        bench := update bench w (some b') } := by
  rw [← hl] at ht
  rcases ht with ht | ht
  · rw [failTask_unknown cause ht, hl]
    rw [hl] at ht
    exact ⟨⟨.refl rfl, rfl, rfl⟩, h.harmony.move_on hb hp ht (.gone fun x hx => absurd hx (hn x))⟩
  · obtain ⟨hq, y, hsight, hy⟩ := failTask_running (m := m) cause ht
    refine ⟨hq, ?_⟩
    rw [hl] at ht
    rw [hsight, hl]
    exact h.harmony.crash hb hp hk hn ht hy

/-- the entry of a worker that has crashed is dropped -/
theorem Tuned.staged_crash (h : Tuned bench taken p) {t : TaskId} {detail : String} {entry : Entry}
    (hb : bench w = some b) (hp : p.roster.post w = some (.busy, some t)) (hk : t ∈ taken)
    (hn : ∀ x, ¬ (b.pop rest).Names x)
    (ht : p.ledger.sight t = none ∨ p.ledger.sight t = some (.running, some w))
    (hg : m.Parted (update bench w (some (b.pop rest)))) (he : p.roster.find? w = some entry) :
    Staged m now (update bench w (some (b.pop rest))) taken
      (failTask m ((p.dropEntry w).dispose entry) t (.crash w detail)) := by
  obtain ⟨stops, replies, hd, hr⟩ := dispose_eq (p.dropEntry w) entry
  have hw : entry.worker = w := Roster.worker_of_find? he
  set p1 := (p.dropEntry w).dispose entry
  set b' := (b.pop rest).dismiss
  have hn' : ∀ x, ¬ b'.Names x := hn
  have hp1 : p1.roster.post = update p.roster.post w none := by
    rw [hd]
    exact Roster.post_erase p.roster w
  have ho1 : p1.outbox = farewell entry ++ replies := by
    rw [hd]
    show p.outbox ++ _ = _
    rw [h.outbox, List.nil_append]
  obtain ⟨hq, hh⟩ := h.harmony_crash (m := m) hb hp hk hn' ht
    (show p1.ledger = p.ledger by rw [hd]; rfl)
  generalize failTask m p1 t (.crash w detail) = q at hq hh
  obtain ⟨es, ho, ha, hc⟩ := hq.discreet
  have hst : stage now (update bench w (some (b.pop rest))) q.outbox
      = update bench w (some b') := by
    rw [ho, ho1, stage_append, stage_aside ha, stage_farewell _ entry hr, hw, update_self,
      update_idem]
    rfl
  refine ⟨?_, ?_, fun x hx => ?_, fun what hm => ?_⟩
  · rw [hq.roster, hd]
    exact h.sound.erase w
  · rw [hst]
    unfold scene at hh ⊢
    rw [hq.roster, hp1, hq.queue, hd]
    exact hh
  · rw [hst]
    by_cases hxw : x = w
    · rw [hxw, update_self]
      exact ⟨b', rfl, (b.pop rest).isReachable_dismiss⟩
    · obtain ⟨c, hc, hcr⟩ := hg x hx
      rw [update_of_ne hxw] at hc ⊢
      exact ⟨c, hc, hcr⟩
  · rw [ho, ho1] at hm
    rcases List.mem_append.mp hm with hm | hm
    · exact calm_farewell entry hr what hm
    · exact hc what hm

/-- the first report of a bench is handled -/
theorem Tuned.staged_of_report (h : Tuned bench taken p) (hb : bench w = some b)
    (ho : b.outgoing = e :: rest)
    (hg : m.Parted (update bench w (some (b.pop rest))))
    (hi : Impact m p (.report w e) q) :
    Staged m now (update bench w (some (b.pop rest))) taken q := by
  have hfind {x : Post} (hp : p.roster.post w = some x) {e : Entry}
      (he : p.roster.find? w = some e) : e.status = x.1 ∧ e.task = x.2 := by
    rw [Roster.post_of_find? he] at hp
    cases hp
    exact ⟨rfl, rfl⟩
  cases hev : e.isNews with
  | false =>
    cases e with
    | metrics s =>
      have hshift := Bench.shift_pop ho
      have hh := h.harmony.bench hb (fun hs => ⟨hshift, hs.pop rest⟩)
        fun t => Bench.names_pop (t := t) ho
      cases hi with
      | none => exact h.staged_aside hg (.refl rfl) h.sound hh
      | crash _ _ _ _ hd | crashBusy _ _ _ _ _ hd => cases hd
    | _ => cases hev
  | true =>
    cases h.harmony.hears hb ho hev with
    | stale _ hp ht => exact h.staged_stale hb ho hp ht hg hi
    | ready hp hs hr =>
      have hfree : (p.scene bench taken).Free w := by
        refine h.harmony.free fun t ht => ?_
        rw [hp] at ht
        cases ht
      obtain ⟨entry, he, hst, _⟩ := Roster.find?_of_post hp
      cases hi with
      | none _ hu => exact absurd hst (hu entry he)
      | ready _ e he' => exact h.staged_rest hb hs hr hfree he hg
      | crash _ _ _ _ hd | crashBusy _ _ _ _ _ hd => cases hd
    | busy t hp hs hk ha ht =>
      obtain ⟨entry, he, _⟩ := Roster.find?_of_post hp
      cases hi with
      | none _ hu =>
        have := he.symm.trans hu
        cases this
      | busy => exact h.staged_begin hb hp hs hk ha ht hg
      | busyLate _ _ e he' hst =>
        rw [(hfind hp he').1] at hst
        cases hst
      | crash _ _ _ _ hd | crashBusy _ _ _ _ _ hd => cases hd
    | result t v hp hs hk hsp ht => exact h.staged_result hb hp hs hk hsp hg ht hi
    | error t detail hp hs hk hsp ht => exact h.staged_error hb hp hs hk hsp hg ht hi
    | idle t hp hs hr hfree =>
      obtain ⟨entry, he, hst, _⟩ := Roster.find?_of_post hp
      cases hi with
      | none _ hu => exact absurd hst (hu entry he)
      | idle _ e he' => exact h.staged_rest hb hs hr hfree he hg
      | crash _ _ _ _ hd | crashBusy _ _ _ _ _ hd => cases hd
    | fatal t detail hp hk hn ht =>
      obtain ⟨entry, he, hst, htask⟩ := Roster.find?_of_post hp
      cases hi with
      | none _ hu =>
        rw [hu entry he] at hst
        cases hst
      | crash _ _ _ e _ he' _ hnone =>
        rw [(hfind hp he').2] at hnone
        cases hnone
      | crashBusy _ _ _ e t' _ he' _ htask' =>
        rw [(hfind hp he').2] at htask'
        cases htask'
        exact h.staged_crash hb hp hk hn ht hg he'

end Pool

/-! ## whole runs -/

namespace Workshop

structure InStep (W : Workshop) : Prop where
  tuned : Pool.Tuned W.bench (accepted W.history) W.pool
  calm : ∀ what, Effect.warn what ∉ W.history

theorem inStep_new (c : Config) : (new c).InStep where
  tuned := by
    refine ⟨.empty, rfl, fun w _ => ⟨rfl, rfl⟩, ?_, ?_, ?_, List.nodup_nil, fun t => ?_⟩
    · intro w x hx
      cases hx
    · intro w b hb
      cases hb
    · intro t x hx
      cases hx
    · constructor
      · intro ht
        cases ht
      · intro ht
        cases ht
  calm := fun _ => List.not_mem_nil

/-- a message whose impact is in order leaves the workshop in step -/
theorem inStep_deliver {W : Workshop} {m : Moment} {now : Nat} {msg : Message}
    (hs : W.pool.roster.Sound) (ho : W.pool.outbox = []) (hc : ∀ what, Effect.warn what ∉ W.history)
    (hi : ∀ q, Pool.Impact m W.pool msg q →
      Pool.Staged m now W.bench (accepted W.history ++ accepted (W.pool.receipt msg)) q) :
    (W.deliver m now msg).InStep := by
  obtain ⟨p1, p2, himp, hm, _, hq⟩ := Pool.handle_splits (m := m) hs msg
  have hst := hm.staged (hi p1 himp)
  have hreceipt : ∀ e ∈ W.pool.receipt msg, e.Aside ∧ ∀ what, e ≠ .warn what := by
    intro e he
    obtain ⟨caller, id, rfl⟩ := Pool.mem_receipt he
    exact ⟨trivial, fun _ => Effect.noConfusion⟩
  have hacc := Pool.handle_accepted (m := m) hs ho msg
  have hbench : stage now W.bench (W.pool.handle m msg).outbox = stage now W.bench p2.outbox := by
    rw [hq]
    show stage now W.bench (p2.outbox ++ _) = _
    rw [stage_append, stage_aside fun e he => (hreceipt e he).1]
  refine ⟨⟨Pool.handle_sound hs msg, rfl, ?_⟩, fun what hw => ?_⟩
  · show Scene.Harmony ⟨(W.pool.handle m msg).roster.post, (W.pool.handle m msg).ledger.sight,
      (W.pool.handle m msg).queue.tasks, (W.pool.handle m msg).roster.nextId,
      stage now W.bench (W.pool.handle m msg).outbox,
      accepted (W.history ++ (W.pool.handle m msg).outbox)⟩
    rw [hbench, accepted_append, hacc, hq]
    exact hst.harmony
  · have hw' : Effect.warn what ∈ W.history ++ (W.pool.handle m msg).outbox := hw
    rw [hq] at hw'
    rcases List.mem_append.mp hw' with hw | hw
    · exact hc what hw
    · rcases List.mem_append.mp hw with hw | hw
      · exact hst.calm what hw
      · exact (hreceipt _ hw).2 what rfl

/-- a worker that has gone stays gone when one of its reports is taken off -/
theorem Admits.gone_pop {W : Workshop} {m : Moment} (hm : W.Admits m) {w : WorkerId} {b : Bench}
    (hb : W.bench w = some b) (rest : List Event) :
    m.Parted (update W.bench w (some (b.pop rest))) := by
  intro x hx
  obtain ⟨b', hb', hr⟩ := hm.gone x hx
  by_cases hxw : x = w
  · subst hxw
    rw [hb] at hb'
    cases hb'
    exact ⟨b.pop rest, update_self .., hr⟩
  · exact ⟨b', by rw [update_of_ne hxw]; exact hb', hr⟩

section
variable {W : Workshop} {m : Moment} (now : Nat) {q : Pool} (h : W.InStep) (hm : W.Admits m)
include h hm

theorem InStep.staged_call {caller : CallId} {request : Request} (hd : W.Draws request)
    (hi : Pool.Impact m W.pool (.call caller request) q) :
    Pool.Staged m now W.bench
      (accepted W.history ++ accepted (W.pool.receipt (.call caller request))) q := by
  refine h.tuned.staged_of_other hm.gone hi (fun _ _ => Message.noConfusion) ?_
  intro _ id kind payload options hmsg
  cases hmsg
  exact hd

theorem InStep.staged_report {w : WorkerId} {b : Bench} {e : Event} {rest : List Event}
    (hb : W.bench w = some b) (ho : b.outgoing = e :: rest)
    (hi : Pool.Impact m W.pool (.report w e) q) :
    Pool.Staged m now (W.setBench w (b.pop rest)).bench
      (accepted W.history ++ accepted (W.pool.receipt (.report w e))) q := by
  show Pool.Staged m now _ (accepted W.history ++ []) q
  rw [List.append_nil]
  exact h.tuned.staged_of_report hb ho (hm.gone_pop hb rest) hi

theorem InStep.staged_alarm {a : Alarm} (hi : Pool.Impact m W.pool (.ring a) q) :
    Pool.Staged m now W.bench
      (accepted W.history ++ accepted (W.pool.receipt (.ring a))) q := by
  refine h.tuned.staged_of_other hm.gone hi (fun _ _ => Message.noConfusion) ?_
  intro _ _ _ _ _ hmsg
  cases hmsg

end

theorem InStep.step {W W' : Workshop} (h : W.InStep) (hs : Step W W') : W'.InStep := by
  have ht := h.tuned
  cases hs with
  | call m now caller request hm hd =>
    exact inStep_deliver ht.sound ht.outbox h.calm fun q hi => h.staged_call now hm hd hi
  | report m now w b e rest hm hb ho =>
    exact inStep_deliver ht.sound ht.outbox h.calm fun q hi => h.staged_report now hm hb ho hi
  | alarm m now a hm ha =>
    exact inStep_deliver ht.sound ht.outbox h.calm fun q hi => h.staged_alarm now hm hi
  | ring t ht' => exact ⟨ht, h.calm⟩
  | turn w b b' hb hturn => exact ⟨⟨ht.sound, ht.outbox, ht.harmony.turn hb hturn⟩, h.calm⟩
  | letGo => exact ⟨ht, h.calm⟩

/-- **whatever happens, the pool and its workers stay in step** -/
theorem Reachable.inStep {c : Config} {W : Workshop} (h : Reachable c W) : W.InStep := by
  induction h with
  | new => exact inStep_new c
  | step _ hs ih => exact ih.step hs

end Workshop

end TaskPool
