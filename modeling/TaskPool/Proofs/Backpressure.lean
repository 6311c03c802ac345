import TaskPool.Proofs.Coherence
import TaskPool.Proofs.Turns

/-!
# The queue refuses what it has no room for

A submission is refused when the pool does not run or its queue is full.  Tasks that are tried again
come back into the queue without being asked whether there is room.

* `handle_submit`        the one answer to a submission
* `Pool.firsts`, `returns`   the tickets of tasks that were not tried yet, and the others
* `Reachable.untold_le`  never do more tickets wait whose tasks nobody was told to run than the
                         queue has room for
* `Reachable.guarded`    so it is full beyond its capacity only with tasks that are tried again

Why the bound is on tasks that nobody was told to run: that is read off the history, which only
grows, so what happens to the records in between does not matter.  That such tasks are the ones with
no retries comes last, from the number in the record.
-/

namespace TaskPool

open Function

namespace Pool

variable {m : Moment} {msg : Message}

/-! ## the answer to a submission -/

theorem assign_silent (p : Pool) (w : WorkerId) :
    ∃ es, (assign m p w).outbox = p.outbox ++ es ∧ ∀ e ∈ es, ∀ c a, e ≠ .reply c a := by
  have hnone : ∃ es, p.outbox = p.outbox ++ es ∧ ∀ e ∈ es, ∀ c a, e ≠ .reply c a :=
    ⟨[], (List.append_nil _).symm, fun e he => nomatch he⟩
  have hone (e : Effect) (he : ∀ c a, e ≠ .reply c a) :
      ∃ es, p.outbox ++ [e] = p.outbox ++ es ∧ ∀ e ∈ es, ∀ c a, e ≠ .reply c a :=
    ⟨[e], rfl, fun x hx => List.mem_singleton.mp hx ▸ he⟩
  unfold assign
  split
  · exact hnone
  · split
    · split
      · exact hnone
      · split
        · exact hone _ fun _ _ => Effect.noConfusion
        · split <;> exact hone _ fun _ _ => Effect.noConfusion
    · exact hnone

theorem assignEach_silent (ws : List WorkerId) (p : Pool) :
    ∃ es, (assignEach m ws p).outbox = p.outbox ++ es ∧ ∀ e ∈ es, ∀ c a, e ≠ .reply c a := by
  induction ws generalizing p with
  | nil => exact ⟨[], (List.append_nil _).symm, fun e he => nomatch he⟩
  | cons w ws ih =>
    rw [assignEach]
    split
    · exact ⟨[], (List.append_nil _).symm, fun e he => nomatch he⟩
    · obtain ⟨es, ho, hes⟩ := assign_silent (m := m) p w
      obtain ⟨fs, ho', hfs⟩ := ih (assign m p w)
      refine ⟨es ++ fs, by rw [ho', ho, List.append_assoc], fun e he => ?_⟩
      exact (List.mem_append.mp he).elim (hes e) (hfs e)

/-- the caller gets the one answer `a`, and nobody else gets any -/
def Answers (caller : CallId) (a : Answer) (es : List Effect) : Prop :=
  ∃ fs, es = fs ++ [.reply caller a] ∧ ∀ e ∈ fs, ∀ c b, e ≠ .reply c b

theorem Answers.unique {caller : CallId} {a b : Answer} {es : List Effect}
    (h : Answers caller a es) (hb : .reply caller b ∈ es) : b = a := by
  obtain ⟨fs, rfl, hfs⟩ := h
  rcases List.mem_append.mp hb with hb | hb
  · exact absurd rfl (hfs _ hb caller b)
  · cases List.mem_singleton.mp hb
    rfl

theorem refusal?_cases (p : Pool) :
    (p.running = false ∧ p.refusal? = some .notRunning) ∨
      (p.running = true ∧ p.config.maxQueueSize ≤ p.queue.size ∧
        p.refusal? = some (.queueFull p.config.maxQueueSize)) ∨
      (p.running = true ∧ p.queue.size < p.config.maxQueueSize ∧ p.refusal? = none) := by
  unfold refusal?
  by_cases hr : p.running = true
  · by_cases hq : p.config.maxQueueSize ≤ p.queue.size
    · exact .inr (.inl ⟨hr, hq, by simp [hr, hq]⟩)
    · exact .inr (.inr ⟨hr, Nat.lt_of_not_le hq, by simp [hr, hq]⟩)
  · have hr' : p.running = false := by simpa using hr
    exact .inl ⟨hr', by simp [hr']⟩

theorem handle_of_refusal {p : Pool} {why : Refusal} (h : p.refusal? = some why)
    (caller : CallId) (id : TaskId) (kind : Kind) (payload : Json) (options : Options) :
    p.handle m (.call caller (.submit id kind payload options))
      = p.reply caller (.refused why) := by
  simp only [handle, call, h]

theorem answers_of_refusal {p : Pool} (ho : p.outbox = []) {why : Refusal}
    (h : p.refusal? = some why) (caller : CallId) (id : TaskId) (kind : Kind) (payload : Json)
    (options : Options) : Answers caller (.refused why)
      (p.handle m (.call caller (.submit id kind payload options))).outbox := by
  rw [handle_of_refusal h]
  refine ⟨[], ?_, fun e he => nomatch he⟩
  show p.outbox ++ _ = _
  rw [ho]

theorem answers_of_none {p : Pool} (ho : p.outbox = []) (h : p.refusal? = none)
    (caller : CallId) (id : TaskId) (kind : Kind) (payload : Json) (options : Options) :
    Answers caller (.accepted id)
      (p.handle m (.call caller (.submit id kind payload options))).outbox := by
  obtain ⟨es, hes, hno⟩ := assignEach_silent (m := m) p.roster.idleIds
    { p with
      ledger := p.ledger.insert (.new id (terms p.config kind payload options) m.now)
      queue := p.queue.push (Task.new id (terms p.config kind payload options) m.now).ticket }
  refine ⟨es, ?_, hno⟩
  simp only [handle, call, h]
  show (assignEach m p.roster.idleIds _).outbox ++ [Effect.reply caller (.accepted id)] = _
  rw [hes, ho]
  rfl

/-- every submission gets one answer; whether it is refused depends on the queue and on whether the
pool runs -/
theorem handle_submit {p : Pool} (ho : p.outbox = []) (caller : CallId) (id : TaskId) (kind : Kind)
    (payload : Json) (options : Options) :
    ∃ a, Answers caller a (p.handle m (.call caller (.submit id kind payload options))).outbox ∧
      (a = .refused .notRunning ↔ p.running = false) ∧
      (∀ n, a = .refused (.queueFull n) ↔ p.running = true ∧
        p.config.maxQueueSize ≤ p.queue.size ∧ n = p.config.maxQueueSize) ∧
      (a = .accepted id ↔ p.running = true ∧ p.queue.size < p.config.maxQueueSize) := by
  rcases p.refusal?_cases with ⟨hr, h⟩ | ⟨hr, hq, h⟩ | ⟨hr, hq, h⟩
  · exact ⟨_, answers_of_refusal ho h caller id kind payload options, by simp [hr]⟩
  · refine ⟨_, answers_of_refusal ho h caller id kind payload options, ?_⟩
    simp [hr, hq, eq_comm]
  · refine ⟨_, answers_of_none ho h caller id kind payload options, ?_⟩
    simp [hr, hq]

/-- a refusal is all that comes of a submission -/
theorem handle_of_refused {p : Pool} (ho : p.outbox = []) {caller : CallId} {id : TaskId}
    {kind : Kind} {payload : Json} {options : Options} {why : Refusal}
    (h : .reply caller (.refused why) ∈
      (p.handle m (.call caller (.submit id kind payload options))).outbox) :
    p.handle m (.call caller (.submit id kind payload options))
      = { p with outbox := [.reply caller (.refused why)] } := by
  cases hr : p.refusal? with
  | none => cases (answers_of_none ho hr caller id kind payload options).unique h
  | some why' =>
    obtain rfl : why = why' := by
      cases (answers_of_refusal ho hr caller id kind payload options).unique h
      rfl
    rw [handle_of_refusal hr]
    unfold reply emit
    rw [ho]
    rfl

/-! ## who waits in the queue -/

/-- how often the task of a ticket was tried again -/
def retriesOf (p : Pool) (t : Ticket) : Option UInt32 := (p.ledger.find? t.task).map Task.retries

/-- the tickets of tasks that were not tried yet -/
def firsts (p : Pool) : List Ticket := p.queue.waiting.filter fun t => p.retriesOf t == some 0

/-- the tickets of tasks that are tried again -/
def returns (p : Pool) : List Ticket :=
  p.queue.waiting.filter fun t => (p.retriesOf t).any fun n => n != 0

/-- what a message puts into the queue was refused no room, or is tried again -/
inductive Enters (p : Pool) : List Ticket → Prop where
  | none : Enters p []
  | first (t : Ticket) (h : p.queue.size < p.config.maxQueueSize) : Enters p [t]
  | again (t : Task) (ht : p.ledger.find? t.id = some t) (hs : t.status = .retrying) :
      Enters p [t.ticket]

theorem entrants_enters (p : Pool) (msg : Message) : p.Enters (p.entrants msg) := by
  cases msg with
  | report => exact .none
  | call caller r =>
    cases r with
    | submit id kind payload options =>
      show p.Enters (if p.refusal?.isNone then [⟨id, _, kind⟩] else [])
      rcases p.refusal?_cases with ⟨_, h⟩ | ⟨_, _, h⟩ | ⟨_, hq, h⟩
      · rw [h]
        exact .none
      · rw [h]
        exact .none
      · rw [h]
        exact .first _ hq
    | _ => exact .none
  | ring alarm =>
    cases alarm with
    | retryDue id =>
      show p.Enters (if p.running then ((p.ledger.resetForRetry id).map Prod.fst).toList else [])
      split
      · cases h : p.ledger.resetForRetry id with
        | none => exact .none
        | some r =>
          obtain ⟨t, ht, hs, hticket, _⟩ := Ledger.resetForRetry_eq_some h
          obtain rfl : t.id = id := Ledger.id_of_find? ht
          show p.Enters [r.1]
          rw [hticket]
          exact .again t ht hs
      · exact .none
    | _ => exact .none

/-- the more was asked for, the fewer tasks nobody was told to run -/
theorem untold_sublist (es fs : List Effect) (ts : List Ticket) :
    (untold (es ++ fs) ts).Sublist (untold es ts) := by
  refine List.monotone_filter_right ts fun t ht => ?_
  rw [told_append, List.isEmpty_iff, List.append_eq_nil_iff] at ht
  exact List.isEmpty_iff.mpr ht.1

end Pool

namespace Workshop

variable {c : Config} {W V : Workshop}

/-- some worker was told to run a task that is to be tried again -/
theorem Reachable.told_of_retrying (h : Reachable c W) {t : Task}
    (ht : W.pool.ledger.find? t.id = some t) (hs : t.status = .retrying) :
    told t.id W.history ≠ [] := by
  have hone : 1 ≤ t.retries.toNat := ((h.coherent_task ht).retrying hs).retries
  have hlen := (h.numbered ht).away (.inl hs)
  intro hnil
  rw [hnil, List.length_nil] at hlen
  omega

/-- with the tickets of a message, too, no more of them are of tasks that nobody was told to run -/
theorem Reachable.untold_entered (h : Reachable c W) (msg : Message)
    (hle : (Pool.untold W.history W.pool.queue.waiting).length ≤ c.maxQueueSize) :
    (Pool.untold W.history (W.pool.entered msg).waiting).length ≤ c.maxQueueSize := by
  have hperm : (Pool.untold W.history (W.pool.entered msg).waiting).Perm
      (Pool.untold W.history (W.pool.entrants msg ++ W.pool.queue.waiting)) :=
    (Queue.pushAll_perm _ _).filter _
  rw [hperm.length_eq, Pool.untold_append]
  have henters := W.pool.entrants_enters msg
  generalize W.pool.entrants msg = ts at henters
  cases henters with
  | none => exact hle
  | first t hlt =>
    have hnew : (Pool.untold W.history [t]).length ≤ 1 := List.length_filter_le ..
    have hold : (Pool.untold W.history W.pool.queue.waiting).length ≤ W.pool.queue.size :=
      List.length_filter_le ..
    rw [h.manned.config] at hlt
    rw [List.length_append]
    omega
  | again t ht hs =>
    have hnone : Pool.untold W.history [t.ticket] = [] := by
      refine List.filter_eq_nil_iff.mpr fun x hx => ?_
      rw [List.mem_singleton.mp hx, List.isEmpty_iff]
      exact h.told_of_retrying ht hs
    rw [hnone]
    exact hle

/-- the queue has room for the tasks that nobody was told to run -/
theorem Reachable.untold_le (h : Reachable c W) :
    (Pool.untold W.history W.pool.queue.waiting).length ≤ c.maxQueueSize := by
  obtain ⟨line, hl⟩ := h.lined
  clear h
  induction hl with
  | new => exact Nat.zero_le _
  | @hear W V line h m now msg hm ht ih =>
    have hin := h.reachable.inStep
    have hsub : (V.deliver m now msg).pool.queue.waiting.Sublist
        (W.pool.entered msg).waiting := by
      show (V.pool.handle m msg).queue.waiting.Sublist _
      rw [ht.pool.1]
      exact (Pool.handle_queue hin.tuned.sound fun q hi => hin.staged_takes hm ht hi).1
    have hhist : (V.deliver m now msg).history = W.history ++ (V.pool.handle m msg).outbox := by
      show V.history ++ _ = _
      rw [ht.pool.2.2.1]
    rw [hhist]
    calc _ ≤ (Pool.untold W.history (V.pool.handle m msg).queue.waiting).length :=
          (Pool.untold_sublist _ _ _).length_le
      _ ≤ (Pool.untold W.history (W.pool.entered msg).waiting).length := (hsub.filter _).length_le
      _ ≤ c.maxQueueSize := h.reachable.untold_entered msg ih
  | pass _ hp ih => cases hp <;> exact ih

/-- a task that waits has been tried again as often as a worker was told to run it -/
theorem Reachable.retriesOf (h : Reachable c W) {t : Ticket} (ht : t ∈ W.pool.queue.waiting) :
    ∃ n, W.pool.retriesOf t = some n ∧ (told t.task W.history).length = n.toNat := by
  have hwaits : W.pool.ledger.sight t.task = some (.queued, none) :=
    (h.inStep.tuned.harmony.waits t.task).mp (List.mem_map_of_mem ht)
  obtain ⟨task, hfind, _, hw⟩ := Ledger.find?_of_sight hwaits
  refine ⟨task.retries, ?_, (h.numbered hfind).away (.inr hw)⟩
  rw [Pool.retriesOf, hfind]
  rfl

theorem Reachable.firsts_eq (h : Reachable c W) :
    W.pool.firsts = Pool.untold W.history W.pool.queue.waiting := by
  refine List.filter_congr fun t ht => ?_
  obtain ⟨n, hn, hlen⟩ := h.retriesOf ht
  rw [hn, Bool.eq_iff_iff, List.isEmpty_iff_length_eq_zero, hlen, beq_iff_eq, Option.some_inj]
  exact UInt32.toNat_inj.symm

theorem Reachable.size_eq (h : Reachable c W) :
    W.pool.queue.size = W.pool.firsts.length + W.pool.returns.length := by
  have hreturns : W.pool.returns
      = W.pool.queue.waiting.filter fun t => !(W.pool.retriesOf t == some 0) := by
    refine List.filter_congr fun t ht => ?_
    obtain ⟨n, hn, _⟩ := h.retriesOf ht
    rw [hn]
    rfl
  rw [hreturns]
  exact List.length_eq_length_filter_add _

/-- what submissions find, and what queue they make -/
structure Guarded (c : Config) (W : Workshop) : Prop where
  /-- a submission gets one answer; it is refused if the pool does not run or its queue is full, and
  otherwise it is accepted -/
  answered : ∀ m caller id kind payload options, ∃ a,
    Pool.Answers caller a
      (W.pool.handle m (.call caller (.submit id kind payload options))).outbox ∧
    (a = .refused .notRunning ↔ W.pool.running = false) ∧
    (∀ n, a = .refused (.queueFull n) ↔ W.pool.running = true ∧
      c.maxQueueSize ≤ W.pool.queue.size ∧ n = c.maxQueueSize) ∧
    (a = .accepted id ↔ W.pool.running = true ∧ W.pool.queue.size < c.maxQueueSize)
  /-- a refusal leaves all as it is -/
  refused : ∀ m now caller id kind payload options why,
    .reply caller (.refused why) ∈
        (W.pool.handle m (.call caller (.submit id kind payload options))).outbox →
      W.deliver m now (.call caller (.submit id kind payload options))
        = { W with history := W.history ++ [.reply caller (.refused why)] }
  firsts : W.pool.firsts.length ≤ c.maxQueueSize
  /-- beyond its capacity the queue holds tasks that are tried again -/
  excess : W.pool.queue.size ≤ c.maxQueueSize + W.pool.returns.length

/-- **the queue refuses what it has no room for**, whatever happens, and nothing comes of what it
refuses; what it holds beyond its capacity is tried again -/
theorem Reachable.guarded (h : Reachable c W) : Guarded c W := by
  have hconfig : W.pool.config = c := h.manned.config
  have hempty : W.pool.outbox = [] := h.inStep.tuned.outbox
  have hfirsts : W.pool.firsts.length ≤ c.maxQueueSize := by
    rw [h.firsts_eq]
    exact h.untold_le
  refine ⟨fun m caller id kind payload options => ?_,
    fun m now caller id kind payload options why hwhy => ?_, hfirsts, ?_⟩
  · rw [← hconfig]
    exact Pool.handle_submit hempty caller id kind payload options
  · have hpool : { W.pool with outbox := [] } = W.pool := by rw [← hempty]
    unfold deliver
    rw [Pool.handle_of_refused hempty hwhy]
    show { W with
      pool := { W.pool with outbox := [] }
      history := W.history ++ [Effect.reply caller (.refused why)] } = _
    rw [hpool]
  · rw [h.size_eq]
    omega

/-- a pool of one worker, with room for one task -/
def narrow : Config := { Chronicle.single with maxQueueSize := 1 }

/-- the first task has failed, another one has taken the room, and then the first one is tried again,
before its worker says that it is idle -/
def overfull : Workshop :=
  let opened := (new narrow).deliver calmMoment 0 (.call 0 .start)
  let staffed := ((opened.setBench 1 announced).setBench 1 (announced.pop [])).deliver calmMoment 0
    (.report 1 .ready)
  let handed := staffed.deliver calmMoment 0 (.call 1 (.submit ⟨7⟩ .cacheCleanup .null {}))
  let failed := (handed.setBench 1 working).setBench 1 soured
  let begun := (failed.setBench 1 (soured.pop [.error ⟨7⟩ "out of disk", .idle])).deliver
    calmMoment 0 (.report 1 (.busy ⟨7⟩))
  let retrying := (begun.setBench 1 (soured.pop [.idle])).deliver calmMoment 0
    (.report 1 (.error ⟨7⟩ "out of disk"))
  let full := retrying.deliver calmMoment 0 (.call 2 (.submit ⟨8⟩ .cacheCleanup .null {}))
  { full with timers := [] }.deliver calmMoment 0 (.ring (.retryDue ⟨7⟩))

theorem reachable_overfull : Reachable narrow overfull := by
  have hopened := Reachable.new.step
    (.call calmMoment 0 0 .start (admits_calmMoment (new narrow)) trivial)
  have hannounced := hopened.step
    (.turn 1 (.new 1 0) announced rfl (.step 0 0 (announced.worker, [.ready]) rfl))
  have hstaffed := hannounced.step
    (.report calmMoment 0 1 announced .ready [] (admits_calmMoment _) rfl rfl)
  have hhanded := hstaffed.step (.call calmMoment 0 1 (.submit ⟨7⟩ .cacheCleanup .null {})
    (admits_calmMoment _) List.not_mem_nil)
  have hworking := hhanded.step
    (.turn 1 ((announced.pop []).tell (.task ⟨7⟩ .cacheCleanup .null)) working rfl
      (.step 0 0 (working.worker, [.busy ⟨7⟩]) rfl))
  have hsoured := hworking.step
    (.turn 1 working soured rfl (.finish 0 (.error ["out of disk"])))
  have hbegun := hsoured.step (.report calmMoment 0 1 soured (.busy ⟨7⟩)
    [.error ⟨7⟩ "out of disk", .idle] (admits_calmMoment _) rfl rfl)
  have hretrying := hbegun.step (.report calmMoment 0 1
    (soured.pop [.error ⟨7⟩ "out of disk", .idle]) (.error ⟨7⟩ "out of disk") [.idle]
    (admits_calmMoment _) rfl rfl)
  have hfull := hretrying.step (.call calmMoment 0 2 (.submit ⟨8⟩ .cacheCleanup .null {})
    (admits_calmMoment _) (show (⟨8⟩ : TaskId) ∉ accepted _ by decide))
  have hrung := hfull.step (.ring ⟨1, .retryDue ⟨7⟩, false⟩ (List.mem_singleton_self _))
  exact hrung.step (.alarm calmMoment 0 (.retryDue ⟨7⟩) (admits_calmMoment _)
    (List.mem_singleton_self _))

theorem guarded_overfull : Reachable narrow overfull ∧ Guarded narrow overfull ∧
    overfull.pool.queue.size = 2 ∧ overfull.pool.firsts.map Ticket.task = [⟨8⟩] ∧
    overfull.pool.returns.map Ticket.task = [⟨7⟩] :=
  ⟨reachable_overfull, reachable_overfull.guarded, rfl, rfl, rfl⟩

end Workshop

end TaskPool
