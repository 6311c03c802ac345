import TaskPool.Proofs.Clocks
import TaskPool.Proofs.Hearing

/-!
# Every step keeps the timers right

Within a step the outbox is as good as done: `Wound` compares the records of the pool with the
timers as they will be once its effects so far are carried out.

* `wind_armless`                effects that set no timer only take some back
* `Move.wound`, `Moves.wound`   moves keep a pool wound
* `Wound.report`, `ring`, `call`   so does what a message does at once, an alarm together with taking
                                it off those that were not handled yet
* `Reachable.wound`             so every reachable workshop is wound while somebody holds on to the
                                pool

Why it must be held: without that the pool cannot set timers, and a task whose attempt fails then
is never called for again.
-/

namespace TaskPool

open Function Relation

/-! ## effects on timers -/

/-- no timer is set -/
def Effect.Armless : Effect → Prop
  | .arm _ _ _ | .armEvery _ _ _ => False
  | _ => True

def Effect.disarms? : Effect → Option TimerId
  | .disarm i => some i
  | _ => none

/-- the timers that are taken back -/
def disarmed (es : List Effect) : List TimerId := es.filterMap Effect.disarms?

theorem wind_armless {es : List Effect} (h : ∀ e ∈ es, e.Armless) (timers : List Timer) :
    wind timers es = Clocks.without timers (disarmed es) := by
  induction es generalizing timers with
  | nil => exact (List.filter_eq_self.mpr fun x _ => rfl).symm
  | cons e es ih =>
    have hes : ∀ x ∈ es, x.Armless := fun x hx => h x (List.mem_cons_of_mem e hx)
    have he := h e (List.mem_cons_self ..)
    show wind (e.onTimers timers) es = _
    rw [ih hes]
    cases e with
    | arm | armEvery => cases he
    | disarm i =>
      show ((timers.filter _).filter _) = timers.filter _
      rw [List.filter_filter]
      refine List.filter_congr fun x _ => ?_
      show (!(disarmed es).contains x.id && x.id != i) = !(i :: disarmed es).contains x.id
      rw [List.contains_cons, Bool.not_or, Bool.and_comm]
      rfl
    | _ => rfl

theorem without_nil (timers : List Timer) : Clocks.without timers [] = timers :=
  List.filter_eq_self.mpr fun _ _ => rfl

theorem without_singleton (timers : List Timer) (i : TimerId) :
    Clocks.without timers [i] = timers.filter fun x => x.id != i := by
  refine List.filter_congr fun x _ => ?_
  rw [List.contains_cons, List.contains_nil, Bool.or_false]
  rfl

theorem armless_consequences (cs : List Consequence) :
    ∀ e ∈ cs.map Consequence.effect, e.Armless := by
  intro e he
  obtain ⟨c, _, rfl⟩ := List.mem_map.mp he
  cases c <;> trivial

theorem disarmed_append (es fs : List Effect) :
    disarmed (es ++ fs) = disarmed es ++ disarmed fs := List.filterMap_append

theorem disarmed_disarm (t : Task) : disarmed (t.disarm.map Consequence.effect) = t.timer.toList := by
  unfold Task.disarm
  cases t.timer <;> rfl

theorem disarmed_resolve (t : Task) (outcome : Outcome) :
    disarmed ((t.resolve outcome).map Consequence.effect) = t.timer.toList := by
  rw [Task.resolve, List.map_append, disarmed_append, disarmed_disarm]
  exact List.append_nil _

theorem disarmed_replies {rs : List Effect} (h : ∀ x ∈ rs, ∃ c, x = Effect.reply c .done) :
    disarmed rs = [] := by
  refine List.filterMap_eq_nil_iff.mpr fun x hx => ?_
  obtain ⟨c, rfl⟩ := h x hx
  rfl

theorem armless_farewell (e : Entry) {rs : List Effect}
    (h : ∀ x ∈ rs, ∃ c, x = Effect.reply c .done) : ∀ x ∈ Pool.farewell e ++ rs, x.Armless := by
  intro x hx
  rcases List.mem_append.mp hx with hx | hx
  · rcases List.mem_append.mp hx with hx | hx
    · obtain ⟨i, _, rfl⟩ := List.mem_map.mp hx
      trivial
    · rw [List.mem_singleton.mp hx]
      trivial
  · obtain ⟨c, rfl⟩ := h x hx
    trivial

theorem disarmed_farewell (e : Entry) {rs : List Effect}
    (h : ∀ x ∈ rs, ∃ c, x = Effect.reply c .done) :
    disarmed (Pool.farewell e ++ rs) = e.stopTimer.toList := by
  rw [disarmed_append, disarmed_replies h, List.append_nil, Pool.farewell, disarmed_append]
  cases e.stopTimer <;> rfl

/-- whoever is given up has his timer taken back -/
theorem mem_disarmed_drain {l : Ledger} {t : Task} {i : TimerId} (why : Failure) (ht : t ∈ l.tasks)
    (hi : t.timer = some i) : i ∈ disarmed ((l.drain why).2.map Consequence.effect) := by
  refine List.mem_filterMap.mpr ⟨.disarm i, List.mem_map.mpr ⟨.disarm i, ?_, rfl⟩, rfl⟩
  refine List.mem_flatMap.mpr ⟨t, ht, List.mem_append_left _ ?_⟩
  unfold Task.disarm
  rw [hi]
  exact List.mem_singleton_self _

/-! ## what the records say of timers -/

def Ledger.kept (l : Ledger) (t : TaskId) : Option (Status × Option TimerId) :=
  (l.find? t).map fun t => (t.status, t.timer)

namespace Ledger

theorem kept_of_find? {l : Ledger} {id : TaskId} {t : Task} (h : l.find? id = some t) :
    l.kept id = some (t.status, t.timer) := by
  rw [kept, h]
  rfl

theorem kept_modify (l : Ledger) (f : Task → Task) (hf : ∀ t, (f t).id = t.id) (id : TaskId)
    {t : Task} (ht : l.find? id = some t) :
    (l.modify id f).kept = update l.kept id (some ((f t).status, (f t).timer)) :=
  map_find?_modify (fun t => (t.status, t.timer)) l f hf id ht

theorem kept_erase (l : Ledger) (id : TaskId) : (l.erase id).kept = update l.kept id none :=
  map_find?_erase (fun t => (t.status, t.timer)) l id

theorem kept_insert (l : Ledger) {t : Task} (ht : l.find? t.id = none) :
    (l.insert t).kept = update l.kept t.id (some (t.status, t.timer)) :=
  map_find?_insert (fun t => (t.status, t.timer)) l ht

end Ledger

/-- the timers that end the wait for stopping workers -/
def Roster.stopTimers (r : Roster) : List TimerId := r.entries.filterMap Entry.stopTimer

namespace Roster

theorem stopTimers_modify (r : Roster) (f : Entry → Entry)
    (hf : ∀ e, (f e).stopTimer = e.stopTimer) (w : WorkerId) :
    (r.modify w f).stopTimers = r.stopTimers := by
  show (r.entries.map _).filterMap _ = r.entries.filterMap _
  rw [List.filterMap_map]
  congr 1
  funext e
  show Entry.stopTimer (if e.worker = w then f e else e) = e.stopTimer
  split
  · exact hf e
  · rfl

theorem mem_stopTimers_modify {r : Roster} {f : Entry → Entry} {w : WorkerId} {o : Option TimerId}
    {i : TimerId} (hi : i ∈ (r.modify w f).stopTimers) (hf : ∀ e, (f e).stopTimer = o) :
    i ∈ r.stopTimers ∨ o = some i := by
  obtain ⟨e, he, hei⟩ := List.mem_filterMap.mp hi
  obtain ⟨x, hx, rfl⟩ := List.mem_map.mp he
  split at hei
  · rw [hf] at hei
    exact .inr hei
  · exact .inl (List.mem_filterMap.mpr ⟨x, hx, hei⟩)

theorem mem_stopTimers_of_erase {r : Roster} {w : WorkerId} {i : TimerId}
    (hi : i ∈ (r.erase w).stopTimers) : i ∈ r.stopTimers := by
  obtain ⟨e, he, hei⟩ := List.mem_filterMap.mp hi
  exact List.mem_filterMap.mpr ⟨e, (List.mem_filter.mp he).1, hei⟩

theorem Sound.stopTimers_enrol {r : Roster} (h : r.Sound) (now : Timestamp) :
    (r.enrol now).stopTimers = r.stopTimers := by
  unfold stopTimers
  rw [h.entries_enrol, List.filterMap_append]
  exact List.append_nil _

end Roster

namespace Pool

/-- the timers kept for anything but tasks -/
def others (p : Pool) : List TimerId := p.autoscaleTimer.toList ++ p.roster.stopTimers

theorem others_eq {p q : Pool} (ht : q.autoscaleTimer = p.autoscaleTimer)
    (hs : q.roster.stopTimers = p.roster.stopTimers) : q.others = p.others := by
  unfold others
  rw [ht, hs]

/-- the records of a pool beside the timers -/
def clocks (p : Pool) (timers : List Timer) (rung : List Alarm) (taken : List TaskId) : Clocks where
  timers := timers
  rung := rung
  next := p.nextTimer
  kept := p.ledger.kept
  others := p.others
  taken := taken

variable {m : Moment} {timers : List Timer} {rung : List Alarm} {taken : List TaskId}

structure Wound (timers : List Timer) (rung : List Alarm) (taken : List TaskId) (p : Pool) :
    Prop where
  sound : p.roster.Sound
  /-- a pool that does not run has no task in flight -/
  closed : p.running = false → p.ledger.ids = []
  right : (p.clocks (wind timers p.outbox) rung taken).Right

/-! ## moves -/

theorem Move.running {p q : Pool} (h : Move m p q) :
    q.running = p.running ∨ q.running = true ∨ q.ledger.ids = [] := by
  cases h with
  | reply | ask | promise | note | dispatch | unknown | bounce | cancel | expire => exact .inl rfl
  | «open» => exact .inr (.inl rfl)
  | shut => exact .inr (.inr rfl)
  | wake caller =>
    obtain ⟨stops, replies, hw, _⟩ := wake_eq p caller
    rw [hw]
    exact .inl rfl
  | ticks =>
    unfold armTicks
    split <;> exact .inl rfl
  | retire waiter w e he hs =>
    rw [stopWorker_of_live waiter he hs]
    exact .inl rfl
  | remove w e =>
    obtain ⟨stops, replies, hd, _⟩ := dispose_eq (p.dropEntry w) e
    rw [hd]
    exact .inl rfl

theorem Move.closed {p q : Pool} (h : Move m p q) (hc : p.running = false → p.ledger.ids = []) :
    q.running = false → q.ledger.ids = [] := by
  intro hq
  rcases h.running with hr | hr | hr
  · have hsub := h.conserves.sublist
    rw [hc (hr.symm.trans hq)] at hsub
    exact List.sublist_nil.mp hsub
  · rw [hr] at hq
    cases hq
  · exact hr

theorem Moves.closed {p q : Pool} (h : Moves m p q) (hc : p.running = false → p.ledger.ids = []) :
    q.running = false → q.ledger.ids = [] := by
  induction h with
  | refl => exact hc
  | @tail p1 p2 _ hm ih =>
    rcases hm with hm | rfl
    · exact hm.closed ih
    · unfold hire
      split <;> exact ih

theorem Impact.running {p q : Pool} {msg : Message} (h : Impact m p msg q) :
    q.running = p.running := by
  have hstart (p : Pool) (id : TaskId) (w : WorkerId) :
      (Pool.startAttempt m p id w).running = p.running := by
    have hc := startAttempt_cases (m := m) p id w
    generalize Pool.startAttempt m p id w = q at hc
    cases hc <;> rfl
  have hfail (p : Pool) (id : TaskId) (cause : FailureCause) :
      (Pool.failTask m p id cause).running = p.running := by
    have hc := failTask_cases (m := m) p id cause
    generalize Pool.failTask m p id cause = q at hc
    cases hc <;> rfl
  have hgone (p : Pool) (e : Entry) : (p.dispose e).running = p.running := by
    obtain ⟨stops, replies, hd, _⟩ := dispose_eq p e
    rw [hd]
  cases h with
  | busy w t => exact hstart _ t w
  | busyLate w t => exact hstart p t w
  | error w t detail => exact hfail _ t _
  | crash w _ _ e => exact hgone (p.dropEntry w) e
  | crashBusy w _ detail e t => exact (hfail _ t _).trans (hgone (p.dropEntry w) e)
  | _ => rfl

/-- a pool that has a task runs -/
theorem running_of_find? {p : Pool} (hc : p.running = false → p.ledger.ids = []) {id : TaskId}
    {t : Task} (ht : p.ledger.find? id = some t) : p.running = true := by
  cases hr : p.running with
  | true => rfl
  | false =>
    have hmem := Ledger.mem_ids ht
    rw [hc hr] at hmem
    cases hmem

/-- a pool that does not run has no task in flight, whatever comes -/
theorem handle_closed {p : Pool} (hs : p.roster.Sound)
    (hc : p.running = false → p.ledger.ids = []) (msg : Message) :
    (p.handle m msg).running = false → (p.handle m msg).ledger.ids = [] := by
  obtain ⟨p1, p2, hi, hm, _, hq⟩ := handle_splits (m := m) hs msg
  have h1 : p1.running = false → p1.ledger.ids = [] := by
    intro hr
    have hr' : p.running = false := hi.running ▸ hr
    by_cases hrec : p.receipt msg = []
    · have hsub := (hi.conserves hrec).sublist
      rw [hc hr'] at hsub
      exact List.sublist_nil.mp hsub
    · cases hi with
      | none => exact hc hr
      | accept caller id kind payload options h =>
        rw [refusal?, hr'] at h
        cases h
      | _ => exact absurd rfl hrec
  rw [hq]
  exact hm.closed h1

/-- the timers after a step that asks for `es` -/
theorem Wound.of_outbox {p q : Pool} {es : List Effect} (ho : q.outbox = p.outbox ++ es)
    (hs : q.roster.Sound) (hc : q.running = false → q.ledger.ids = [])
    (hr : (q.clocks (wind (wind timers p.outbox) es) rung taken).Right) :
    Wound timers rung taken q := by
  refine ⟨hs, hc, ?_⟩
  rw [ho, wind_append]
  exact hr

/-- only timers that call for no task are taken back, and nothing changes that timers are kept
for -/
theorem Wound.same {p q : Pool} (h : Wound timers rung taken p) {es : List Effect}
    (ho : q.outbox = p.outbox ++ es) (ha : ∀ e ∈ es, e.Armless) (hs : q.roster.Sound)
    (hc : q.running = false → q.ledger.ids = []) (hd : ∀ i ∈ disarmed es, i ∈ p.others)
    (hn : q.nextTimer = p.nextTimer) (hk : q.ledger.kept = p.ledger.kept)
    (hoth : ∀ i ∈ q.others, i ∈ p.others) : Wound timers rung taken q := by
  refine .of_outbox ho hs hc ?_
  have hr := (h.right.disarm fun i hi => (h.right.others i (hd i hi)).2).refer p.ledger.kept q.others
    (fun i hi => .inl (hoth i hi)) (fun t st o ht => .inl ht) (fun t o ht => ht)
  rw [wind_armless ha]
  unfold clocks at hr ⊢
  rw [hn, hk]
  exact hr

theorem armless_one {e : Effect} (h : e.Armless) : ∀ x ∈ [e], x.Armless := by
  intro x hx
  rw [List.mem_singleton.mp hx]
  exact h

/-- one effect that has nothing to do with timers -/
theorem Wound.plain {p q : Pool} (h : Wound timers rung taken p) {e : Effect}
    (ho : q.outbox = p.outbox ++ [e]) (ha : e.Armless) (hd : e.disarms? = none)
    (hs : q.roster.Sound) (hc : q.running = false → q.ledger.ids = [])
    (hn : q.nextTimer = p.nextTimer) (hk : q.ledger.kept = p.ledger.kept)
    (hoth : q.others = p.others) : Wound timers rung taken q := by
  refine h.same ho (armless_one ha) hs hc (fun i hi => ?_) hn hk fun i hi => hoth ▸ hi
  rw [show disarmed [e] = [] from List.filterMap_cons_none hd] at hi
  cases hi

/-- nothing is asked for -/
theorem Wound.silent {p q : Pool} (h : Wound timers rung taken p) (ho : q.outbox = p.outbox)
    (hs : q.roster.Sound) (hc : q.running = false → q.ledger.ids = [])
    (hn : q.nextTimer = p.nextTimer) (hk : q.ledger.kept = p.ledger.kept)
    (hoth : q.others = p.others) : Wound timers rung taken q := by
  refine h.same (ho.trans (List.append_nil _).symm) (fun e he => ?_) hs hc (fun i hi => ?_) hn hk
    fun i hi => hoth ▸ hi
  · cases he
  · cases hi

theorem Wound.hire {p : Pool} (h : Wound timers rung taken p) :
    Wound timers rung taken (p.hire m) := by
  by_cases ha : m.attached = true
  · rw [hire_of_attached ha]
    refine h.plain rfl trivial rfl (h.sound.enrol m.now) h.closed rfl rfl ?_
    exact others_eq rfl (h.sound.stopTimers_enrol m.now)
  · rw [hire_of_detached (by simpa using ha)]
    exact h

/-- an entry is dropped, and with it the timer that ends the wait for its worker -/
theorem Wound.dispose {p : Pool} (h : Wound timers rung taken p) {w : WorkerId} {e : Entry}
    (he : p.roster.find? w = some e) : Wound timers rung taken ((p.dropEntry w).dispose e) := by
  obtain ⟨stops, replies, hd, hr⟩ := dispose_eq (p.dropEntry w) e
  rw [hd]
  refine h.same rfl (armless_farewell e hr) (h.sound.erase w) h.closed (fun i hi => ?_) rfl rfl
    fun i hi => ?_
  · rw [disarmed_farewell e hr] at hi
    exact List.mem_append_right _
      (List.mem_filterMap.mpr ⟨e, Roster.mem_of_find? he, Option.mem_toList.mp hi⟩)
  · rcases List.mem_append.mp hi with hi | hi
    · exact List.mem_append_left _ hi
    · exact List.mem_append_right _ (Roster.mem_stopTimers_of_erase hi)

/-- a task is over, and the timer kept for it is taken back -/
theorem Wound.forget {p q : Pool} (h : Wound timers rung taken p) {id : TaskId} {t : Task}
    {es : List Effect} (ht : p.ledger.find? id = some t) (ho : q.outbox = p.outbox ++ es)
    (ha : ∀ e ∈ es, e.Armless) (hd : disarmed es = t.timer.toList) (hs : q.roster = p.roster)
    (hrun : q.running = p.running) (hl : q.ledger = p.ledger.erase id)
    (hn : q.nextTimer = p.nextTimer) (hoth : q.others = p.others) :
    Wound timers rung taken q := by
  refine .of_outbox ho (hs ▸ h.sound) (fun hq => ?_) ?_
  · rw [hl, Ledger.ids_erase, h.closed (hrun.symm.trans hq)]
    rfl
  · have hr := h.right.forget (Ledger.kept_of_find? ht)
    rw [wind_armless ha, hd]
    unfold clocks at hr ⊢
    rw [hn, hl, Ledger.kept_erase, hoth]
    exact hr

/-! ## timers that are set -/

/-- a timer that calls for no task is set, and the pool may keep its number -/
theorem Wound.arm {p q : Pool} (h : Wound timers rung taken p) {e : Effect} {es : List Effect}
    {a : Alarm} {repeats : Bool} (ho : q.outbox = p.outbox ++ e :: es)
    (he : ∀ l, e.onTimers l = l ++ [⟨p.nextTimer, a, repeats⟩]) (ha : ∀ t, a ≠ .retryDue t)
    (hes : ∀ x ∈ es, x.Armless) (hd : disarmed es = []) (hs : q.roster.Sound)
    (hc : q.running = false → q.ledger.ids = []) (hn : q.nextTimer = p.nextTimer + 1)
    (hk : q.ledger.kept = p.ledger.kept) (hoth : ∀ i ∈ q.others, i ∈ p.others ∨ i = p.nextTimer) :
    Wound timers rung taken q := by
  refine .of_outbox ho hs hc ?_
  have hr := (h.right.arm ha repeats).refer p.ledger.kept q.others (fun i hi => ?_)
    (fun t st o ht => .inl ht) (fun t o ht => ht)
  · show (q.clocks (wind (e.onTimers (wind timers p.outbox)) es) rung taken).Right
    rw [wind_armless hes, hd, without_nil, he]
    unfold clocks at hr ⊢
    rw [hn, hk]
    exact hr
  · rcases hoth i hi with hi | rfl
    · exact .inl hi
    · refine .inr ⟨Nat.lt_succ_self _, fun x hx hxi t => ?_⟩
      rcases List.mem_append.mp hx with hx | hx
      · exact absurd hxi (Nat.ne_of_lt (h.right.fresh x hx))
      · rw [List.mem_singleton.mp hx]
        exact ha t

theorem Wound.armTicks {p : Pool} (h : Wound timers rung taken p) (ha : m.attached = true) :
    Wound timers rung taken (p.armTicks m) := by
  unfold Pool.armTicks
  rw [if_pos ha]
  refine h.arm rfl (fun l => rfl) (fun t => Alarm.noConfusion) (fun x hx => by cases hx) rfl
    h.sound h.closed rfl rfl fun i hi => ?_
  rcases List.mem_append.mp hi with hi | hi
  · exact .inr (List.mem_singleton.mp hi)
  · exact .inl (List.mem_append_right _ hi)

theorem Wound.retire {p : Pool} (h : Wound timers rung taken p) (ha : m.attached = true)
    (waiter : Option CallId) {w : WorkerId} {e : Entry} (he : p.roster.find? w = some e)
    (hs : e.status ≠ .stopping) : Wound timers rung taken (stopWorker m waiter p w) := by
  rw [stopWorker_of_live waiter he hs]
  have hret : retirement m p w
      = .arm p.nextTimer p.config.stopGrace (.stopDeadline w) ::
        (if m.reaches w then [.tell w .terminate] else []) := by
    unfold retirement
    rw [if_pos ha]
    rfl
  have htell : ∀ x ∈ (if m.reaches w then [Effect.tell w .terminate] else []),
      x = .tell w .terminate := by
    intro x hx
    split at hx
    · exact List.mem_singleton.mp hx
    · cases hx
  refine h.arm (congrArg (p.outbox ++ ·) hret) (fun l => rfl) (fun t => Alarm.noConfusion)
    (fun x hx => ?_) ?_ ?_ h.closed (if_pos ha) rfl fun i hi => ?_
  · rw [htell x hx]
    trivial
  · refine List.filterMap_eq_nil_iff.mpr fun x hx => ?_
    rw [htell x hx]
    rfl
  · refine h.sound.modify _ ?_ w
    exact fun _ => rfl
  · rcases List.mem_append.mp hi with hi | hi
    · exact .inl (List.mem_append_left _ hi)
    · rcases Roster.mem_stopTimers_modify hi (fun _ => rfl) with hi | hi
      · exact .inl (List.mem_append_right _ hi)
      · have hnext : stopTimerOf m p = some i := hi
        unfold stopTimerOf at hnext
        rw [if_pos ha] at hnext
        exact .inr (Option.some.inj hnext).symm

/-- an attempt fails: its task is over, or called for once more -/
theorem Wound.failTask {p : Pool} (h : Wound timers rung taken p) (ha : m.attached = true)
    (id : TaskId) (cause : FailureCause) :
    Wound timers rung taken (failTask m p id cause) := by
  have hc := failTask_cases (m := m) p id cause
  have hcl := Conserves.failTask (m := m) p id cause
  generalize Pool.failTask m p id cause = q at hc hcl
  have hclosed : p.running = false → q.ledger.ids = [] := by
    intro hr
    have hsub := hcl.sublist
    rw [h.closed hr] at hsub
    exact List.sublist_nil.mp hsub
  cases hc with
  | skipped => exact h
  | exhausted t ht =>
    exact h.forget ht rfl (armless_consequences _) (disarmed_resolve t _) rfl rfl rfl rfl rfl
  | stranded t ht hs hr hd =>
    rw [ha] at hd
    cases hd
  | retried t ht hs =>
    refine .of_outbox rfl h.sound hclosed ?_
    have hkept := Ledger.kept_of_find? ht
    have hmute : ∀ i ∈ t.timer.toList, (p.clocks (wind timers p.outbox) rung taken).Mute i := by
      intro i hi
      rw [show t.timer = some i from Option.mem_toList.mp hi] at hkept
      exact h.right.mute hkept hs
    have hright := (h.right.disarm hmute).retry hkept hs
    rw [wind_append, wind_armless (armless_consequences _), disarmed_disarm]
    unfold clocks at hright ⊢
    rw [Ledger.kept_modify p.ledger (retryLater cause m.now (some p.nextTimer)) (fun _ => rfl) id ht]
    exact hright

/-- an attempt begins, with a timer of its own -/
theorem Wound.startAttempt {p : Pool} (h : Wound timers rung taken p) (ha : m.attached = true)
    (id : TaskId) (w : WorkerId) : Wound timers rung taken (startAttempt m p id w) := by
  have hc := startAttempt_cases (m := m) p id w
  have hcl := Conserves.startAttempt (m := m) p id w
  generalize Pool.startAttempt m p id w = q at hc hcl
  have hclosed : p.running = false → q.ledger.ids = [] := by
    intro hr
    have hsub := hcl.sublist
    rw [h.closed hr] at hsub
    exact List.sublist_nil.mp hsub
  cases hc with
  | skipped => exact h
  | untimed t ht hs hd =>
    rw [ha] at hd
    cases hd
  | timed t ht hs =>
    refine .of_outbox rfl h.sound hclosed ?_
    have hkept := Ledger.kept_of_find? ht
    have hst : t.status ≠ .retrying := by
      rw [hs]
      exact Status.noConfusion
    have hright := h.right.begin (a := .taskTimeout id (t.attempt + 1)) hkept hst
      (Status.noConfusion : Status.running ≠ .retrying) fun _ => Alarm.noConfusion
    show (clocks _ (wind (wind timers p.outbox ++ [_]) (t.disarm.map Consequence.effect)) _ _).Right
    rw [wind_armless (armless_consequences _), disarmed_disarm]
    unfold clocks at hright ⊢
    rw [Ledger.kept_modify p.ledger (begun w m.now (some p.nextTimer)) (fun _ => rfl) id ht]
    exact hright

/-! ## every move -/

theorem Wound.cancel {p : Pool} (h : Wound timers rung taken p) (id : TaskId) :
    Wound timers rung taken (p.cancel id).2 := by
  unfold Pool.cancel Ledger.cancel
  cases ht : p.ledger.find? id with
  | none => exact h.silent (List.append_nil _) h.sound h.closed rfl rfl rfl
  | some t =>
    by_cases hs : t.status.isTerminal = true
    · simp only [if_pos hs]
      exact h.silent (List.append_nil _) h.sound h.closed rfl rfl rfl
    · simp only [if_neg hs]
      exact h.forget ht rfl (armless_consequences _) (disarmed_resolve t _) rfl rfl rfl rfl rfl

/-- the timer of the attempt that ran out of time has rung, so it need not be taken back -/
theorem Wound.expire {p : Pool} (h : Wound timers rung taken p) {id : TaskId} {attempt : UInt32}
    {worker : Option WorkerId} {ledger : Ledger} {consequences : List Consequence}
    (he : p.ledger.timeOut id attempt = some (worker, ledger, consequences)) :
    Wound timers rung taken (p.post ledger consequences) := by
  obtain ⟨t, ht, hs, _, _, rfl, rfl⟩ := Ledger.timeOut_eq_some he
  have hkept : p.ledger.kept id = some (.running, t.timer) := by
    rw [Ledger.kept_of_find? ht, hs]
  refine .of_outbox rfl h.sound (fun hq => ?_) ?_
  · show (p.ledger.erase id).ids = []
    rw [Ledger.ids_erase, h.closed hq]
    rfl
  · have hright := h.right.refer (update p.ledger.kept id none) p.others (fun i hi => .inl hi)
      (fun u st o hu => ?_) (fun u o hu => ?_)
    · rw [wind_armless (armless_consequences _)]
      unfold clocks at hright ⊢
      show Clocks.Right ⟨Clocks.without _ [], _, _, (p.ledger.erase id).kept, _, _⟩
      rw [without_nil, Ledger.kept_erase]
      exact hright
    · rcases update_eq_some hu with ⟨_, hy⟩ | ⟨_, hu⟩
      · cases hy
      · exact .inl hu
    · have hne : u ≠ id := by
        rintro rfl
        have := hkept.symm.trans hu
        cases this
      exact (update_of_ne hne _ _).trans hu

theorem Wound.shut {p : Pool} (h : Wound timers rung taken p) :
    Wound timers rung taken p.shut := by
  set es := p.autoscaleTimer.toList.map Effect.disarm
  set fs := (p.ledger.drain .shutdown).2.map Consequence.effect
  have hes : ∀ e ∈ es, e.Armless := by
    intro e he
    obtain ⟨i, _, rfl⟩ := List.mem_map.mp he
    trivial
  have hticks : ∀ i ∈ disarmed es, i ∈ p.others := by
    intro i hi
    obtain ⟨e, he, hei⟩ := List.mem_filterMap.mp hi
    obtain ⟨j, hj, rfl⟩ := List.mem_map.mp he
    cases hei
    exact List.mem_append_left _ hj
  have hall : ∀ t st i, p.ledger.kept t = some (st, some i) → i ∈ disarmed fs := by
    intro t st i ht
    obtain ⟨task, hf, hy⟩ := Option.map_eq_some_iff.mp ht
    exact mem_disarmed_drain .shutdown (Ledger.mem_of_find? hf) (Prod.mk.inj hy).2
  have hright := ((h.right.disarm fun i hi => (h.right.others i (hticks i hi)).2).clear hall).refer
    (fun _ => none) p.roster.stopTimers (fun i hi => .inl (List.mem_append_right _ hi))
    (fun t st o ht => .inl ht) (fun t o ht => ht)
  have ho : p.shut.outbox = p.outbox ++ (es ++ fs) := List.append_assoc ..
  refine .of_outbox ho h.sound (fun _ => rfl) ?_
  rw [wind_append, wind_armless hes, wind_armless (armless_consequences _)]
  exact hright

/-- a move keeps the timers right, as long as the pool may set timers -/
theorem Move.wound {p q : Pool} (h : Wound timers rung taken p) (ha : m.attached = true)
    (hm : Move m p q) : Wound timers rung taken q := by
  have hs := hm.sound h.sound
  have hc := hm.closed h.closed
  cases hm with
  | reply caller a => exact h.plain rfl trivial rfl hs hc rfl rfl rfl
  | ask w => exact h.plain rfl trivial rfl hs hc rfl rfl rfl
  | wake caller =>
    obtain ⟨stops, replies, hw, hr⟩ := wake_eq p caller
    rw [hw] at hs hc ⊢
    refine h.same rfl (fun x hx => ?_) hs hc (fun i hi => ?_) rfl rfl fun i hi => hi
    · obtain ⟨c, rfl⟩ := hr x hx
      trivial
    · rw [disarmed_replies hr] at hi
      cases hi
  | promise | «open» => exact h.silent rfl hs hc rfl rfl rfl
  | note w f hf =>
    refine h.silent rfl hs hc rfl rfl ?_
    exact others_eq rfl (p.roster.stopTimers_modify f hf.stopTimer w)
  | ticks => exact h.armTicks ha
  | dispatch w e affinity t rest task he hi hq ht =>
    refine h.plain rfl trivial rfl hs hc rfl ?_ ?_
    · show (p.ledger.modify t.task fun t => { t with worker := some w }).kept = _
      rw [Ledger.kept_modify p.ledger (fun t => { t with worker := some w }) (fun _ => rfl) t.task ht]
      exact update_eq_self_iff.mpr (Ledger.kept_of_find? ht).symm
    · exact others_eq rfl (p.roster.stopTimers_modify (fun e => e.setBusy t.task m.now)
        (fun _ => rfl) w)
  | unknown | bounce => exact h.plain rfl trivial rfl hs hc rfl rfl rfl
  | retire waiter w e he hst => exact h.retire ha waiter he hst
  | remove w e he => exact h.dispose he
  | cancel id => exact h.cancel id
  | expire id attempt worker ledger consequences he => exact h.expire he
  | shut => exact h.shut

theorem Moves.wound {p q : Pool} (h : Wound timers rung taken p) (ha : m.attached = true)
    (hm : Moves m p q) : Wound timers rung taken q := by
  induction hm with
  | refl => exact h
  | tail _ hm ih =>
    rcases hm with hm | rfl
    · exact hm.wound ih ha
    · exact ih.hire

/-! ## what messages do at once -/

theorem Wound.update_entry {p : Pool} (h : Wound timers rung taken p) (w : WorkerId)
    (f : Entry → Entry) (hw : ∀ e, (f e).worker = e.worker)
    (hf : ∀ e, (f e).stopTimer = e.stopTimer) : Wound timers rung taken (p.updateEntry w f) :=
  h.silent rfl (h.sound.modify f hw w) h.closed rfl rfl
    (others_eq rfl (p.roster.stopTimers_modify f hf w))

theorem Wound.report {p q : Pool} {w : WorkerId} {e : Event}
    (h : Wound timers rung taken p) (ha : m.attached = true)
    (hi : Impact m p (.report w e) q) : Wound timers rung taken q := by
  cases hi with
  | none => exact h
  | ready | idle =>
    refine h.update_entry w _ ?_ ?_ <;> exact fun _ => rfl
  | busy _ t =>
    refine Wound.startAttempt (h.update_entry w _ ?_ ?_) ha t w <;> exact fun _ => rfl
  | busyLate _ t => exact h.startAttempt ha t w
  | result _ t v ledger cs hass hc =>
    obtain ⟨task, ht, _, rfl, rfl⟩ := Ledger.complete_eq_some hc
    have hnote := h.update_entry w (fun e => { e with processed := e.processed + 1 })
      (fun _ => rfl) (fun _ => rfl)
    exact hnote.forget ht rfl (armless_consequences _) (disarmed_resolve task _) rfl rfl rfl rfl rfl
  | error _ t detail =>
    have hnote := h.update_entry w (fun e => { e with failed := e.failed + 1 })
      (fun _ => rfl) (fun _ => rfl)
    exact hnote.failTask ha t (.handler detail)
  | crash _ _ _ e _ he => exact h.dispose he
  | crashBusy _ _ detail e t _ he => exact (h.dispose he).failTask ha t (.crash w detail)

/-- an alarm is handled; if it calls for a task that is to be tried again, the task waits again -/
theorem Wound.ring {p q : Pool} {a : Alarm} (h : Wound timers rung taken p)
    (ha : a ∈ rung) (hi : Impact m p (.ring a) q) : Wound timers (rung.erase a) taken q := by
  cases hi with
  | none _ hu =>
    refine ⟨h.sound, h.closed, h.right.hear fun t hat => ?_⟩
    subst hat
    show p.ledger.kept t = none
    cases hk : p.ledger.kept t with
    | none => rfl
    | some y =>
      obtain ⟨task, ht, _⟩ := Option.map_eq_some_iff.mp hk
      have hrun : p.running = true := by
        cases hr : p.running with
        | true => rfl
        | false =>
          have hout : t ∉ p.ledger.ids := by
            rw [h.closed hr]
            exact List.not_mem_nil
          rw [Ledger.find?_eq_none.mpr hout] at ht
          cases ht
      -- an alarm for a task that is not to be tried again would be one too many
      have hst := Ledger.resetForRetry_eq_none (hu hrun) task ht
      have hdue := h.right.due t _ _ (Ledger.kept_of_find? ht)
      rw [if_neg hst] at hdue
      have hzero := (Nat.add_eq_zero_iff.mp hdue).2
      exact absurd ha (List.count_eq_zero.mp hzero)
  | retry t ticket ledger hr hreset =>
    obtain ⟨task, ht, hst, _, rfl⟩ := Ledger.resetForRetry_eq_some hreset
    refine ⟨h.sound, fun hq => ?_, ?_⟩
    · have hq' : p.running = false := hq
      rw [hr] at hq'
      cases hq'
    · have hkept : p.ledger.kept t = some (.retrying, task.timer) := by
        rw [Ledger.kept_of_find? ht, hst]
      have hright := h.right.requeue hkept ha
      unfold clocks at hright ⊢
      rw [Ledger.kept_modify p.ledger Ledger.reset (fun _ => rfl) t ht]
      exact hright

theorem Wound.call {p q : Pool} {caller : CallId} {r : Request}
    (h : Wound timers rung taken p) (hi : Impact m p (.call caller r) q)
    (hd : ∀ id kind payload options, r = .submit id kind payload options → id ∉ taken) :
    Wound timers rung (taken ++ accepted (p.receipt (.call caller r))) q := by
  cases hi with
  | none _ hu =>
    rw [receipt_of_unmoved hu]
    show Wound timers rung (taken ++ []) p
    rw [List.append_nil]
    exact h
  | accept _ id kind payload options hr =>
    have hid : id ∉ taken := hd id kind payload options rfl
    have hrec : accepted (p.receipt (.call caller (.submit id kind payload options))) = [id] := by
      rw [receipt, hr]
      rfl
    have hnone : p.ledger.find? id = none := by
      cases hf : p.ledger.find? id with
      | none => rfl
      | some x => exact absurd (h.right.known id _ (Ledger.kept_of_find? hf)) hid
    have hrun : p.running = true := by
      unfold refusal? at hr
      cases hrun : p.running with
      | true => rfl
      | false =>
        rw [hrun] at hr
        cases hr
    rw [hrec]
    refine ⟨h.sound, fun hq => ?_, ?_⟩
    · have hq' : p.running = false := hq
      rw [hrun] at hq'
      cases hq'
    · have hright := h.right.accept hid
      unfold clocks at hright ⊢
      show Clocks.Right ⟨_, _, _, (p.ledger.insert _).kept, _, _⟩
      rw [Ledger.kept_insert p.ledger hnone]
      exact hright

end Pool

/-! ## whole runs -/

namespace Workshop

theorem wound_deliver {W : Workshop} {m : Moment} {now : Nat} {msg : Message}
    (hs : W.pool.roster.Sound) (ho : W.pool.outbox = []) (ha : m.attached = true)
    (hi : ∀ q, Pool.Impact m W.pool msg q → Pool.Wound W.timers W.rung
      (accepted W.history ++ accepted (W.pool.receipt msg)) q) :
    Pool.Wound (W.deliver m now msg).timers (W.deliver m now msg).rung
      (accepted (W.deliver m now msg).history) (W.deliver m now msg).pool := by
  obtain ⟨p1, p2, himp, hm, _, hq⟩ := Pool.handle_splits (m := m) hs msg
  have h2 := hm.wound (hi p1 himp) ha
  have hreceipt : ∀ e ∈ W.pool.receipt msg, e.Armless ∧ e.disarms? = none := by
    intro e he
    obtain ⟨caller, id, rfl⟩ := Pool.mem_receipt he
    exact ⟨trivial, rfl⟩
  have hlast : Pool.Wound W.timers W.rung (accepted W.history ++ accepted (W.pool.receipt msg))
      (W.pool.handle m msg) := by
    rw [hq]
    refine h2.same rfl (fun e he => (hreceipt e he).1) h2.sound h2.closed (fun i hi => ?_) rfl rfl
      fun i hi => hi
    obtain ⟨e, he, hei⟩ := List.mem_filterMap.mp hi
    rw [(hreceipt e he).2] at hei
    cases hei
  refine ⟨hlast.sound, hlast.closed, ?_⟩
  show (Pool.clocks _ (wind W.timers (W.pool.handle m msg).outbox) W.rung
    (accepted (W.history ++ (W.pool.handle m msg).outbox))).Right
  rw [accepted_append, Pool.handle_accepted hs ho]
  exact hlast.right

/-- a pool that does not run has no task in flight -/
theorem Reachable.closed {c : Config} {W : Workshop} (h : Reachable c W) :
    W.pool.running = false → W.pool.ledger.ids = [] := by
  induction h with
  | new => exact fun _ => rfl
  | step hr hs ih =>
    rcases hs.heard with ⟨hpool, _⟩ | ⟨m, msg, _, _, hpool, _⟩
    · rw [hpool]
      exact ih
    · rw [hpool]
      exact Pool.handle_closed (m := m) hr.inStep.tuned.sound ih msg

/-- **while somebody holds on to the pool, every task that is to be tried again will be called for
once, and no other task will** -/
theorem Reachable.wound {c : Config} {W : Workshop} (h : Reachable c W) (hh : W.held = true) :
    Pool.Wound W.timers W.rung (accepted W.history) W.pool := by
  induction h with
  | new =>
    refine ⟨.empty, fun _ => rfl, List.nodup_nil, ?_, ?_, ?_, ?_, ?_, ?_, ?_⟩
    · exact fun x hx => by cases hx
    · exact fun i hi => by cases hi
    · exact fun t st i ht => by cases ht
    · exact fun x hx => by cases hx
    · exact fun t st o ht => by cases ht
    · exact fun t y hy => by cases hy
    · exact fun t ht => by cases ht
  | step hr hs ih =>
    have ih := ih (hs.held hh)
    have hout := hr.inStep.tuned.outbox
    have hheld := hs.held hh
    cases hs with
    | call m now caller request hm hd =>
      refine wound_deliver ih.sound hout (hm.attached hheld) fun q hi => ?_
      refine ih.call hi fun id kind payload options hmsg => ?_
      subst hmsg
      exact hd
    | report m now w b e rest hm hb ho =>
      refine wound_deliver ih.sound hout (hm.attached hheld) fun q hi => ?_
      show Pool.Wound _ _ (accepted _ ++ []) q
      rw [List.append_nil]
      exact ih.report (hm.attached hheld) hi
    | alarm m now a hm ha =>
      refine wound_deliver ih.sound hout (hm.attached hheld) fun q hi => ?_
      show Pool.Wound _ _ (accepted _ ++ []) q
      rw [List.append_nil]
      exact ih.ring ha hi
    | ring t ht =>
      refine ⟨ih.sound, ih.closed, ?_⟩
      have hright := ih.right
      rw [hout] at hright ⊢
      have hrung := hright.ring ht
      rw [without_singleton] at hrung
      exact hrung
    | turn | letGo => exact ih

end Workshop

end TaskPool
