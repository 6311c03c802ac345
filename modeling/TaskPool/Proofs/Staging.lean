import TaskPool.Proofs.Waiting
import TaskPool.Proofs.Workshop

/-!
# Moves keep the harmony

Within a step the outbox is as good as done: `Staged` compares the records of the pool with the
benches as they will be once its effects so far are carried out.

* `Discreet`                      asks for nothing that a bench would notice
* `Staged.hire`, `dispatch`, `retire`, `remove`, `cancel`, `expire`, `shut`
* `Move.staged`, `Moves.staged`   moves keep a pool staged, and warn of nothing
-/

namespace TaskPool

open Function Relation

/-- whoever is known to be gone takes no commands -/
def Moment.Parted (m : Moment) (bench : WorkerId → Option Bench) : Prop :=
  ∀ w ∈ m.gone, ∃ b, bench w = some b ∧ b.worker.isReachable = false

namespace Pool

variable {m : Moment} {now : Nat} {bench : WorkerId → Option Bench} {taken : List TaskId}

structure Staged (m : Moment) (now : Nat) (bench : WorkerId → Option Bench) (taken : List TaskId)
    (p : Pool) : Prop where
  sound : p.roster.Sound
  harmony : (p.scene (stage now bench p.outbox) taken).Harmony
  gone : m.Parted (stage now bench p.outbox)
  calm : ∀ what, Effect.warn what ∉ p.outbox

/-! ## moves -/

/-- what `q` asks for beyond `p` touches no bench and warns of nothing -/
def Discreet (p q : Pool) : Prop :=
  ∃ es, q.outbox = p.outbox ++ es ∧ (∀ e ∈ es, e.Aside) ∧ ∀ what, Effect.warn what ∉ es

theorem Discreet.refl {p q : Pool} (h : q.outbox = p.outbox) : Discreet p q :=
  ⟨[], h.trans (List.append_nil _).symm, by simp, by simp⟩

theorem Discreet.one {p q : Pool} {e : Effect} (h : q.outbox = p.outbox ++ [e]) (ha : e.Aside)
    (hc : ∀ what, e ≠ .warn what) : Discreet p q := by
  refine ⟨[e], h, fun x hx => ?_, fun what hm => ?_⟩
  · rw [List.mem_singleton.mp hx]
    exact ha
  · exact hc what (List.mem_singleton.mp hm).symm

theorem Discreet.consequences {p q : Pool} (cs : List Consequence)
    (h : q.outbox = p.outbox ++ cs.map Consequence.effect) : Discreet p q := by
  refine ⟨_, h, aside_consequences cs, fun what hm => ?_⟩
  obtain ⟨c, _, hc⟩ := List.mem_map.mp hm
  cases c <;> cases hc

theorem Discreet.replies {p q : Pool} {rs : List Effect}
    (hr : ∀ x ∈ rs, ∃ c, x = Effect.reply c .done) (h : q.outbox = p.outbox ++ rs) :
    Discreet p q := by
  refine ⟨rs, h, fun x hx => ?_, fun what hm => ?_⟩
  · obtain ⟨c, rfl⟩ := hr x hx
    trivial
  · obtain ⟨c, hc⟩ := hr _ hm
    cases hc

theorem Discreet.trans {p q r : Pool} (h1 : Discreet p q) (h2 : Discreet q r) : Discreet p r := by
  obtain ⟨es, ho, ha, hc⟩ := h1
  obtain ⟨fs, ho', ha', hc'⟩ := h2
  refine ⟨es ++ fs, ?_, fun e he => ?_, fun what hm => ?_⟩
  · rw [ho', ho, List.append_assoc]
  · rcases List.mem_append.mp he with he | he
    · exact ha e he
    · exact ha' e he
  · rcases List.mem_append.mp hm with hm | hm
    · exact hc what hm
    · exact hc' what hm

/-- effects that no bench notices -/
theorem Staged.aside {p q : Pool} (h : Staged m now bench taken p) (hd : Discreet p q)
    (hs : q.roster.Sound) (hh : (q.scene (stage now bench p.outbox) taken).Harmony) :
    Staged m now bench taken q := by
  obtain ⟨es, ho, ha, hc⟩ := hd
  have hst : stage now bench q.outbox = stage now bench p.outbox := by
    rw [ho, stage_append, stage_aside ha]
  refine ⟨hs, by rw [hst]; exact hh, by rw [hst]; exact h.gone, fun what hm => ?_⟩
  rw [ho] at hm
  rcases List.mem_append.mp hm with hm | hm
  · exact h.calm what hm
  · exact hc what hm

/-- a bench that was told something, or dismissed -/
theorem Staged.touch {p q : Pool} (h : Staged m now bench taken p) (es : List Effect) (w : WorkerId)
    (f : Bench → Bench) (hr : ∀ b, b.worker.isReachable = false →
      (f b).worker.isReachable = false)
    (ho : q.outbox = p.outbox ++ es)
    (hst : stage now (stage now bench p.outbox) es = update (stage now bench p.outbox) w
      ((stage now bench p.outbox w).map f))
    (hc : ∀ what, Effect.warn what ∉ es) (hs : q.roster.Sound)
    (hh : (q.scene (update (stage now bench p.outbox) w
      ((stage now bench p.outbox w).map f)) taken).Harmony) : Staged m now bench taken q := by
  have hst' : stage now bench q.outbox = update (stage now bench p.outbox) w
      ((stage now bench p.outbox w).map f) := by rw [ho, stage_append, hst]
  refine ⟨hs, by rw [hst']; exact hh, fun x hx => ?_, fun what hm => ?_⟩
  · obtain ⟨b, hb, hbr⟩ := h.gone x hx
    rw [hst']
    by_cases hxw : x = w
    · subst hxw
      rw [update_self, hb]
      exact ⟨f b, rfl, hr b hbr⟩
    · rw [update_of_ne hxw]
      exact ⟨b, hb, hbr⟩
  · rw [ho] at hm
    rcases List.mem_append.mp hm with hm | hm
    · exact h.calm what hm
    · exact hc what hm

/-- nothing changes that a bench or the records of a bench are about -/
theorem Staged.same {p q : Pool} (h : Staged m now bench taken p) (hd : Discreet p q)
    (hs : q.roster.Sound) (hp : q.roster.post = p.roster.post) (hn : q.roster.nextId = p.roster.nextId)
    (hl : q.ledger.sight = p.ledger.sight) (hq : q.queue.tasks = p.queue.tasks) :
    Staged m now bench taken q := by
  refine h.aside hd hs ?_
  have hh := h.harmony
  unfold scene at hh ⊢
  rw [hp, hn, hl, hq]
  exact hh

theorem Staged.bench_of_find? {p : Pool} (h : Staged m now bench taken p) {w : WorkerId}
    {e : Entry} (he : p.roster.find? w = some e) :
    ∃ b, stage now bench p.outbox w = some b ∧
      Scene.Fits p.ledger.sight taken w b (some (e.status, e.task)) := by
  have hpost := Roster.post_of_find? he
  obtain ⟨b, hb⟩ := h.harmony.seated w _ hpost
  refine ⟨b, hb, ?_⟩
  have hfit := h.harmony.fits w b hb
  have hpost' : (p.scene (stage now bench p.outbox) taken).post w = some (e.status, e.task) := hpost
  rw [hpost'] at hfit
  exact hfit

/-- every ticket is of a task that waits -/
theorem Staged.task_of_popFor {p : Pool} (h : Staged m now bench taken p)
    {affinity : Option KindSet} {t : Ticket} {rest : Queue}
    (hq : p.queue.popFor affinity = some (t, rest)) :
    ∃ task, p.ledger.find? t.task = some task ∧ task.status = .queued ∧ task.worker = none := by
  have hmem : t.task ∈ p.queue.tasks :=
    ((Queue.popFor_perm hq).map Ticket.task).mem_iff.mpr (List.mem_cons_self ..)
  exact Ledger.find?_of_sight ((h.harmony.waits _).mp hmem)

/-- a worker that is idle takes commands -/
theorem Staged.reaches_of_idle {p : Pool} (h : Staged m now bench taken p) {w : WorkerId}
    {e : Entry} (he : p.roster.find? w = some e) (hi : e.status = .idle) : m.reaches w = true := by
  obtain ⟨b, hb, hfit⟩ := h.bench_of_find? he
  rw [hi] at hfit
  generalize e.task = o at hfit
  cases hr : m.reaches w with
  | true => rfl
  | false =>
    have hgone : w ∈ m.gone := by simpa [Moment.reaches] using hr
    obtain ⟨b', hb', hbr⟩ := h.gone w hgone
    rw [hb] at hb'
    cases hb'
    cases hfit with
    | idle hsv hrest =>
      rw [hsv.reachable hrest.phase] at hbr
      cases hbr

theorem Staged.hire {p : Pool} (h : Staged m now bench taken p) :
    Staged m now bench taken (p.hire m) := by
  by_cases ha : m.attached = true
  · rw [hire_of_attached ha]
    set B := stage now bench p.outbox with hB
    have hst : stage now bench (p.outbox ++ [.hire p.roster.nextId])
        = update B p.roster.nextId (some (.new p.roster.nextId now)) := by
      rw [stage_append]
      rfl
    have hnew : B p.roster.nextId = none := (h.harmony.fresh p.roster.nextId (Nat.le_refl _)).2
    refine ⟨h.sound.enrol m.now, ?_, fun w hw => ?_, fun what hm => ?_⟩
    · rw [hst]
      have hh := h.harmony.hire now
      unfold scene at hh ⊢
      rw [Roster.post_enrol]
      exact hh
    · obtain ⟨b, hb, hbr⟩ := h.gone w hw
      have hne : w ≠ p.roster.nextId := by
        rintro rfl
        have := hnew.symm.trans hb
        cases this
      rw [hst, update_of_ne hne]
      exact ⟨b, hb, hbr⟩
    · rcases List.mem_append.mp hm with hm | hm
      · exact h.calm what hm
      · cases List.mem_singleton.mp hm
  · rw [hire_of_detached (by simpa using ha)]
    exact h

theorem Staged.dispatch {p : Pool} (h : Staged m now bench taken p) {w : WorkerId} {e : Entry}
    {affinity : Option KindSet} {t : Ticket} {rest : Queue} {task : Task}
    (he : p.roster.find? w = some e) (hi : e.status = .idle)
    (hq : p.queue.popFor affinity = some (t, rest)) (ht : p.ledger.find? t.task = some task) :
    Staged m now bench taken
      { p with
        queue := rest
        roster := p.roster.modify w fun e => e.setBusy t.task m.now
        ledger := p.ledger.markDispatched t.task w
        outbox := p.outbox ++ [.tell w (.task t.task t.kind task.terms.payload)] } := by
  obtain ⟨b, hb, hfit⟩ := h.bench_of_find? he
  have hpost : p.roster.post w = some (.idle, none) := by
    rw [Roster.post_of_find? he]
    rw [hi] at hfit ⊢
    generalize e.task = o at hfit
    cases hfit
    rfl
  have hperm : p.queue.tasks.Perm (t.task :: rest.tasks) :=
    (Queue.popFor_perm hq).map Ticket.task
  have hsight : p.ledger.sight t.task = some (.queued, none) :=
    (h.harmony.waits t.task).mp (hperm.mem_iff.mpr (List.mem_cons_self ..))
  have hstatus : task.status = .queued := by
    rw [Ledger.sight_of_find? ht] at hsight
    exact congrArg Prod.fst (Option.some.inj hsight)
  refine h.touch [.tell w (.task t.task t.kind task.terms.payload)] w
    (fun b => b.tell (.task t.task t.kind task.terms.payload)) ?_ rfl rfl ?_ ?_ ?_
  · intro b hbr
    rw [Bench.isReachable_tell, hbr]
  · intro what hm
    cases List.mem_singleton.mp hm
  · refine h.sound.modify _ ?_ w
    exact fun _ => rfl
  · have hh := h.harmony.dispatch t.kind task.terms.payload hpost hb hperm
    have hp' := Roster.post_modify p.roster (fun e => e.setBusy t.task m.now) (fun _ => rfl) w he
    have hl' := Ledger.sight_modify p.ledger (fun t => { t with worker := some w }) (fun _ => rfl)
      t.task ht
    rw [hb]
    unfold scene at hh ⊢
    show Scene.Harmony ⟨(p.roster.modify w fun e => e.setBusy t.task m.now).post,
      (p.ledger.modify t.task fun t => { t with worker := some w }).sight, _, _, _, _⟩
    rw [hp', hl', hstatus]
    exact hh

theorem Staged.retire {p : Pool} (h : Staged m now bench taken p) (waiter : Option CallId)
    {w : WorkerId} {e : Entry} (he : p.roster.find? w = some e) (hs : e.status ≠ .stopping)
    (hf : p.Free e) : Staged m now bench taken (stopWorker m waiter p w) := by
  rw [stopWorker_of_live waiter he hs]
  obtain ⟨b, hb, _⟩ := h.bench_of_find? he
  have hfree : e.status = .idle ∨ ∀ t, e.task = some t → p.ledger.sight t = none := by
    rcases hf with hf | hf
    · exact .inl hf
    · exact .inr fun t ht => Ledger.sight_eq_none.mpr (hf t ht)
  have hpost := Roster.post_of_find? he
  set f : Entry → Entry := fun e =>
    { e with
      waiters := e.waiters ++ waiter.toList
      status := .stopping
      task := none
      stopTimer := stopTimerOf m p }
  have hp' : (p.roster.modify w f).post = update p.roster.post w (some (.stopping, none)) :=
    Roster.post_modify p.roster f (fun _ => rfl) w he
  have hsound : (p.roster.modify w f).Sound := h.sound.modify f (fun _ => rfl) w
  have hcalm : ∀ what, Effect.warn what ∉ retirement m p w := by
    intro what hm
    rcases List.mem_append.mp hm with hm | hm <;> split at hm <;> simp at hm
  have harm : ∀ x ∈ (if m.attached then
      [Effect.arm p.nextTimer p.config.stopGrace (.stopDeadline w)] else []), x.Aside := by
    intro x hx
    split at hx
    · rw [List.mem_singleton.mp hx]
      trivial
    · cases hx
  by_cases hr : m.reaches w = true
  · refine h.touch (retirement m p w) w (fun b => b.tell .terminate) ?_ rfl ?_ hcalm hsound ?_
    · intro b hbr
      rw [Bench.isReachable_tell, hbr]
    · unfold retirement
      rw [stage_append, stage_aside harm, if_pos hr]
      rfl
    · rw [hb]
      have hh := h.harmony.retire (b.tell .terminate) hpost hb hfree fun t ht => by
        rcases Bench.names_tell ht with ht | ht
        · exact ht
        · cases ht
      unfold scene at hh ⊢
      show Scene.Harmony ⟨(p.roster.modify w f).post, _, _, _, _, _⟩
      rw [hp']
      exact hh
  · refine h.aside ⟨retirement m p w, rfl, ?_, hcalm⟩ hsound ?_
    · unfold retirement
      rw [if_neg hr, List.append_nil]
      exact harm
    · have hh := h.harmony.retire b hpost hb hfree fun t ht => ht
      rw [show (p.scene (stage now bench p.outbox) taken).bench = stage now bench p.outbox from rfl,
        ← hb, update_eq_self] at hh
      unfold scene at hh ⊢
      show Scene.Harmony ⟨(p.roster.modify w f).post, _, _, _, _, _⟩
      rw [hp']
      exact hh

theorem stage_farewell (B : WorkerId → Option Bench) (e : Entry) {replies : List Effect}
    (hr : ∀ x ∈ replies, ∃ c, x = Effect.reply c .done) :
    stage now B (farewell e ++ replies) = update B e.worker ((B e.worker).map Bench.dismiss) := by
  have hreply : ∀ x ∈ replies, x.Aside := by
    intro x hx
    obtain ⟨c, rfl⟩ := hr x hx
    trivial
  have hdisarm : ∀ x ∈ e.stopTimer.toList.map Effect.disarm, x.Aside := by
    intro x hx
    obtain ⟨timer, _, rfl⟩ := List.mem_map.mp hx
    trivial
  rw [stage_append, stage_aside hreply, farewell, stage_append, stage_aside hdisarm]
  rfl

theorem calm_farewell (e : Entry) {replies : List Effect}
    (hr : ∀ x ∈ replies, ∃ c, x = Effect.reply c .done) (what : Anomaly) :
    Effect.warn what ∉ farewell e ++ replies := by
  intro hm
  rcases List.mem_append.mp hm with hm | hm
  · rcases List.mem_append.mp hm with hm | hm
    · obtain ⟨timer, _, ht⟩ := List.mem_map.mp hm
      cases ht
    · cases List.mem_singleton.mp hm
  · obtain ⟨c, hc⟩ := hr _ hm
    cases hc

theorem Staged.remove {p : Pool} (h : Staged m now bench taken p) {w : WorkerId} {e : Entry}
    (he : p.roster.find? w = some e) (hs : e.status = .stopping) :
    Staged m now bench taken ((p.dropEntry w).dispose e) := by
  obtain ⟨stops, replies, hd, hr⟩ := dispose_eq (p.dropEntry w) e
  obtain ⟨b, hb, hfit⟩ := h.bench_of_find? he
  have hw : e.worker = w := Roster.worker_of_find? he
  have hpost : p.roster.post w = some (.stopping, none) := by
    rw [Roster.post_of_find? he]
    rw [hs] at hfit ⊢
    generalize e.task = o at hfit
    cases hfit
    rfl
  rw [hd]
  refine h.touch (farewell e ++ replies) w Bench.dismiss (fun b _ => b.isReachable_dismiss) rfl ?_
    (calm_farewell e hr) (h.sound.erase w) ?_
  · rw [stage_farewell _ e hr, hw]
  · have hh := h.harmony.remove b.dismiss hpost hb fun t ht => ht
    rw [hb]
    unfold scene at hh ⊢
    show Scene.Harmony ⟨(p.roster.erase w).post, _, _, _, _, _⟩
    rw [Roster.post_erase]
    exact hh

/-- tasks that are over, with what follows from it -/
theorem Staged.forget {p q : Pool} (h : Staged m now bench taken p) (ledger : Ledger)
    (queue : Queue) (hd : Discreet p q) (hr : q.roster = p.roster) (hl : q.ledger = ledger)
    (hq : q.queue = queue)
    (hs : ∀ t, ledger.sight t = p.ledger.sight t ∨ ledger.sight t = none)
    (hn : queue.tasks.Nodup)
    (hw : ∀ t, t ∈ queue.tasks ↔ ledger.sight t = some (.queued, none)) :
    Staged m now bench taken q := by
  refine h.aside hd (hr ▸ h.sound) ?_
  have hh := h.harmony.forget hs hn hw
  unfold scene at hh ⊢
  rw [hr, hl, hq]
  exact hh

theorem sight_erase_or (l : Ledger) (id t : TaskId) :
    (l.erase id).sight t = l.sight t ∨ (l.erase id).sight t = none := by
  rw [Ledger.sight_erase]
  by_cases ht : t = id
  · rw [ht, update_self]
    exact .inr rfl
  · rw [update_of_ne ht]
    exact .inl rfl

theorem Staged.cancel {p : Pool} (h : Staged m now bench taken p) (id : TaskId) :
    Staged m now bench taken (p.cancel id).2 := by
  have hnd : (p.queue.waiting.map Ticket.task).Nodup := h.harmony.nodup
  have hd : (p.queue.remove id).tasks.Nodup :=
    h.harmony.nodup.sublist ((p.queue.remove_sublist id).map Ticket.task)
  have hmem (t : TaskId) : t ∈ (p.queue.remove id).tasks ↔ t ∈ p.queue.tasks ∧ t ≠ id := by
    constructor
    · intro ht
      obtain ⟨x, hx, rfl⟩ := List.mem_map.mp ht
      obtain ⟨hx, hne⟩ := (Queue.mem_remove hnd).mp hx
      exact ⟨List.mem_map_of_mem hx, hne⟩
    · rintro ⟨ht, hne⟩
      obtain ⟨x, hx, rfl⟩ := List.mem_map.mp ht
      exact List.mem_map_of_mem ((Queue.mem_remove hnd).mpr ⟨hx, hne⟩)
  -- a task that is gone or over already has no ticket, so the queue stays as it is
  have hsame (hq : p.ledger.sight id ≠ some (.queued, none)) (t : TaskId) :
      t ∈ (p.queue.remove id).tasks ↔ p.ledger.sight t = some (.queued, none) := by
    have hwaits : t ∈ p.queue.tasks ↔ p.ledger.sight t = some (.queued, none) := h.harmony.waits t
    rw [hmem, hwaits]
    constructor
    · exact fun ht => ht.1
    · intro ht
      exact ⟨ht, fun hid => hq (hid ▸ ht)⟩
  unfold Pool.cancel Ledger.cancel
  cases ht : p.ledger.find? id with
  | none =>
    refine h.forget p.ledger (p.queue.remove id) (.consequences [] rfl) rfl rfl rfl
      (fun _ => .inl rfl) hd (hsame ?_)
    rw [Ledger.sight_eq_none.mpr ht]
    simp
  | some t =>
    by_cases hs : t.status.isTerminal = true
    · simp only [if_pos hs]
      refine h.forget p.ledger (p.queue.remove id) (.consequences [] rfl) rfl rfl rfl
        (fun _ => .inl rfl) hd (hsame ?_)
      rw [Ledger.sight_of_find? ht]
      intro hq
      have hqueued : t.status = .queued := congrArg Prod.fst (Option.some.inj hq)
      rw [hqueued] at hs
      cases hs
    · simp only [if_neg hs]
      refine h.forget (p.ledger.erase id) (p.queue.remove id) (.consequences _ rfl) rfl rfl rfl
        (sight_erase_or p.ledger id) hd fun x => ?_
      have hwaits : x ∈ p.queue.tasks ↔ p.ledger.sight x = some (.queued, none) :=
        h.harmony.waits x
      rw [hmem, hwaits, Ledger.sight_erase]
      by_cases hx : x = id
      · rw [hx, update_self]
        simp
      · rw [update_of_ne hx]
        simp [hx]

theorem Staged.expire {p : Pool} (h : Staged m now bench taken p) {id : TaskId} {attempt : UInt32}
    {worker : Option WorkerId} {ledger : Ledger} {consequences : List Consequence}
    (he : p.ledger.timeOut id attempt = some (worker, ledger, consequences)) :
    Staged m now bench taken (p.post ledger consequences) := by
  obtain ⟨t, ht, hs, _, _, rfl, _⟩ := Ledger.timeOut_eq_some he
  refine h.forget (p.ledger.erase id) p.queue (.consequences _ rfl) rfl rfl rfl
    (sight_erase_or p.ledger id) h.harmony.nodup fun x => ?_
  have hwaits : x ∈ p.queue.tasks ↔ p.ledger.sight x = some (.queued, none) := h.harmony.waits x
  rw [hwaits, Ledger.sight_erase]
  by_cases hx : x = id
  · rw [hx, update_self, Ledger.sight_of_find? ht, hs]
    simp
  · rw [update_of_ne hx]

theorem Staged.shut {p : Pool} (h : Staged m now bench taken p) :
    Staged m now bench taken p.shut := by
  have hticks : Discreet p (disarmTicks { p with running := false }) := by
    refine .consequences (p.autoscaleTimer.toList.map .disarm) ?_
    rw [List.map_map]
    rfl
  have hrest : Discreet (disarmTicks { p with running := false }) p.shut :=
    .consequences (p.ledger.drain .shutdown).2 rfl
  refine h.forget .empty .empty (hticks.trans hrest) rfl rfl rfl (fun t => .inr rfl)
    List.nodup_nil fun t => ?_
  constructor
  · intro ht
    cases ht
  · intro ht
    cases ht

/-- in harmony, no worker that is idle has gone, and every ticket is of a task in flight -/
theorem Move.staged {p q : Pool} (h : Staged m now bench taken p) (hm : Move m p q) :
    Staged m now bench taken q := by
  have hs := hm.sound h.sound
  cases hm with
  | reply caller a =>
    exact h.same (.one rfl trivial fun _ => Effect.noConfusion) hs rfl rfl rfl rfl
  | ask w =>
    refine h.touch [.tell w .reportMetrics] w (fun b => b.tell .reportMetrics) ?_ rfl rfl ?_ hs ?_
    · intro b hbr
      rw [Bench.isReachable_tell, hbr]
    · intro what hw
      cases List.mem_singleton.mp hw
    · cases hb : stage now bench p.outbox w with
      | none =>
        have hh := h.harmony
        rw [Option.map_none, ← hb, update_eq_self]
        exact hh
      | some b => exact h.harmony.ask hb
  | wake caller =>
    obtain ⟨stops, replies, hw, hr⟩ := wake_eq p caller
    rw [hw] at hs ⊢
    exact h.same (.replies hr rfl) hs rfl rfl rfl rfl
  | promise | «open» =>
    exact h.same (.refl rfl) hs rfl rfl rfl rfl
  | note w f hf =>
    refine h.same (.refl rfl) hs ?_ rfl rfl rfl
    exact p.roster.post_modify_same f hf.worker hf.status hf.task w
  | ticks =>
    unfold armTicks at hs ⊢
    split at hs
    · rename_i ha
      rw [if_pos ha]
      exact h.same (.one rfl trivial fun _ => Effect.noConfusion) hs rfl rfl rfl rfl
    · rename_i ha
      rw [if_neg ha]
      exact h.same (.refl rfl) hs rfl rfl rfl rfl
  | dispatch w e affinity t rest task he hi hq ht _ => exact h.dispatch he hi hq ht
  | unknown affinity t rest hq ht =>
    obtain ⟨task, ht', _⟩ := h.task_of_popFor hq
    rw [ht] at ht'
    cases ht'
  | bounce w e affinity t rest he hi hq hr =>
    rw [h.reaches_of_idle he hi] at hr
    cases hr
  | retire waiter w e he hst hf => exact h.retire waiter he hst hf
  | remove w e he hst => exact h.remove he hst
  | cancel id => exact h.cancel id
  | expire id attempt worker ledger consequences he => exact h.expire he
  | shut => exact h.shut

theorem Moves.staged {p q : Pool} (h : Staged m now bench taken p) (hm : Moves m p q) :
    Staged m now bench taken q := by
  induction hm with
  | refl => exact h
  | tail _ hm ih =>
    rcases hm with hm | rfl
    · exact hm.staged ih
    · exact ih.hire

end Pool

end TaskPool
