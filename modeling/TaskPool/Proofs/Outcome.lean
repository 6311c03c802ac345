import TaskPool.Proofs.Split

/-!
# One outcome for each accepted task

* `Chronicle`           a pool together with everything it ever asked for, `run` from the start
* `accepted`            the tasks whose submission was answered with their acceptance
* `deliveries`          how often the outcome of a task was delivered
* `Conserves`           what moves keep: deliveries of a task plus its places in the ledger
* `exactly_one_outcome`   an accepted task is in the ledger and nothing was delivered, or it is out
                        of the ledger for good and one outcome was delivered

Why counting is enough: the six ways out of the ledger all take the task out and deliver in one
step, so the sum of the two never moves; only an acceptance adds to it.
-/

namespace TaskPool

/-! ## what the effects say -/

/-- the task whose acceptance this is the answer to -/
def Effect.accepts? : Effect → Option TaskId
  | .reply _ (.accepted id) => some id
  | _ => none

def Effect.delivers (id : TaskId) : Effect → Bool
  | .deliver task _ => task == id
  | _ => false

def accepted (es : List Effect) : List TaskId := es.filterMap Effect.accepts?

def deliveries (id : TaskId) (es : List Effect) : Nat := es.countP (Effect.delivers id)

/-- neither an acceptance nor an outcome -/
def Effect.Quiet (e : Effect) : Prop := e.accepts? = none ∧ ∀ id, e.delivers id = false

theorem accepted_append (es fs : List Effect) : accepted (es ++ fs) = accepted es ++ accepted fs :=
  List.filterMap_append

theorem deliveries_append (id : TaskId) (es fs : List Effect) :
    deliveries id (es ++ fs) = deliveries id es + deliveries id fs := List.countP_append

theorem deliveries_nil (id : TaskId) : deliveries id [] = 0 := rfl

theorem accepted_eq_nil {es : List Effect} (h : ∀ e ∈ es, e.Quiet) : accepted es = [] :=
  List.filterMap_eq_nil_iff.mpr fun e he => (h e he).1

theorem deliveries_eq_zero {es : List Effect} (h : ∀ e ∈ es, e.Quiet) (id : TaskId) :
    deliveries id es = 0 := by
  refine List.countP_eq_zero.mpr fun e he => ?_
  rw [(h e he).2 id]
  exact Bool.false_ne_true

theorem deliveries_deliver (id task : TaskId) (outcome : Outcome) :
    deliveries id [.deliver task outcome] = if task = id then 1 else 0 := by
  show List.countP _ [_] = _
  rw [List.countP_singleton]
  by_cases h : task = id <;> simp [Effect.delivers, h]

/-- taking a timer back says nothing about a task -/
theorem quiet_disarm (t : Task) : ∀ e ∈ t.disarm.map Consequence.effect, e.Quiet := by
  intro e he
  obtain ⟨c, hc, rfl⟩ := List.mem_map.mp he
  obtain ⟨timer, _, rfl⟩ := List.mem_map.mp hc
  exact ⟨rfl, fun _ => rfl⟩

theorem resolve_effects (t : Task) (outcome : Outcome) :
    (t.resolve outcome).map Consequence.effect
      = t.disarm.map Consequence.effect ++ [.deliver t.id outcome] := by
  rw [Task.resolve, List.map_append]
  rfl

/-! ## what a step conserves -/

namespace Pool

variable {m : Moment}

structure Conserves (p q : Pool) : Prop where
  sublist : q.ledger.ids.Sublist p.ledger.ids
  accepted : accepted q.outbox = TaskPool.accepted p.outbox
  account : p.ledger.ids.Nodup → ∀ id,
    deliveries id q.outbox + q.ledger.ids.count id
      = deliveries id p.outbox + p.ledger.ids.count id

theorem Conserves.refl (p : Pool) : Conserves p p := ⟨.refl _, rfl, fun _ _ => rfl⟩

theorem Conserves.trans {p q r : Pool} (h1 : Conserves p q) (h2 : Conserves q r) :
    Conserves p r where
  sublist := h2.sublist.trans h1.sublist
  accepted := h2.accepted.trans h1.accepted
  account := fun hd id => (h2.account (hd.sublist h1.sublist) id).trans (h1.account hd id)

/-- a step that is silent about tasks and keeps them all -/
theorem Conserves.quiet {p q : Pool} (es : List Effect) (ho : q.outbox = p.outbox ++ es)
    (hq : ∀ e ∈ es, e.Quiet) (hl : q.ledger.ids = p.ledger.ids) : Conserves p q where
  sublist := hl ▸ .refl _
  accepted := by rw [ho, accepted_append, accepted_eq_nil hq, List.append_nil]
  account := fun _ id => by rw [ho, deliveries_append, deliveries_eq_zero hq, hl, Nat.add_zero]

/-- a step that takes one task out and delivers its outcome -/
theorem Conserves.settle {p q : Pool} {t : Task} {id : TaskId} (es : List Effect)
    (outcome : Outcome) (ht : p.ledger.find? id = some t)
    (ho : q.outbox = p.outbox ++ (es ++ [.deliver t.id outcome])) (hq : ∀ e ∈ es, e.Quiet)
    (hl : q.ledger = p.ledger.erase id) : Conserves p q where
  sublist := by
    rw [hl, Ledger.ids_erase]
    exact List.filter_sublist
  accepted := by
    rw [ho, accepted_append, accepted_append, accepted_eq_nil hq]
    show TaskPool.accepted p.outbox ++ [] = _
    rw [List.append_nil]
  account := by
    intro hd x
    have hid : t.id = id := Ledger.id_of_find? ht
    have hmem : id ∈ p.ledger.ids := by
      rw [← hid]
      exact List.mem_map_of_mem (Ledger.mem_of_find? ht)
    rw [ho, deliveries_append, deliveries_append, deliveries_eq_zero hq, deliveries_deliver, hid,
      hl, Ledger.ids_erase]
    by_cases hx : id = x
    · subst hx
      have hout : (p.ledger.ids.filter (· != id)).count id = 0 :=
        List.count_eq_zero.mpr (by simp)
      have hone : p.ledger.ids.count id = 1 :=
        Nat.le_antisymm (List.nodup_iff_count.mp hd id) (List.count_pos_iff.mpr hmem)
      rw [if_pos rfl, hout, hone]
    · rw [if_neg hx, List.count_filter (by simpa using Ne.symm hx)]
      omega

theorem deliveries_drained (id : TaskId) (why : Failure) (ts : List Task) :
    deliveries id ((ts.flatMap fun t => t.resolve (.error why)).map Consequence.effect)
      = (ts.map Task.id).count id := by
  induction ts with
  | nil => rfl
  | cons t ts ih =>
    rw [List.flatMap_cons, List.map_append, deliveries_append, ih, resolve_effects,
      deliveries_append, deliveries_eq_zero (quiet_disarm t), deliveries_deliver, List.map_cons,
      List.count_cons]
    by_cases h : t.id = id
    · simp [h]
      omega
    · simp [h]

theorem accepted_drained (why : Failure) (ts : List Task) :
    TaskPool.accepted ((ts.flatMap fun t => t.resolve (.error why)).map Consequence.effect)
      = [] := by
  induction ts with
  | nil => rfl
  | cons t ts ih =>
    rw [List.flatMap_cons, List.map_append, accepted_append, ih, resolve_effects,
      accepted_append, accepted_eq_nil (quiet_disarm t)]
    rfl

theorem Conserves.shut (p : Pool) : Conserves p p.shut := by
  have ho : p.shut.outbox = p.outbox ++ (p.autoscaleTimer.toList.map Effect.disarm ++
      (p.ledger.tasks.flatMap fun t => t.resolve (.error .shutdown)).map Consequence.effect) := by
    rw [← List.append_assoc]
    rfl
  have hq : ∀ e ∈ p.autoscaleTimer.toList.map Effect.disarm, e.Quiet := by
    intro e he
    obtain ⟨timer, _, rfl⟩ := List.mem_map.mp he
    exact ⟨rfl, fun _ => rfl⟩
  refine ⟨List.nil_sublist _, ?_, fun _ id => ?_⟩
  · rw [ho, accepted_append, accepted_append, accepted_eq_nil hq, accepted_drained,
      List.append_nil, List.append_nil]
  · rw [ho, deliveries_append, deliveries_append, deliveries_eq_zero hq, deliveries_drained]
    show _ + List.count id [] = _ + List.count id (p.ledger.tasks.map Task.id)
    rw [List.count_nil]
    omega

theorem Conserves.dispose (p : Pool) (e : Entry) : Conserves p (p.dispose e) := by
  obtain ⟨s, r, h, hr⟩ := dispose_eq p e
  refine .quiet (farewell e ++ r) (by rw [h]) (fun x hx => ?_) (by rw [h])
  rcases List.mem_append.mp hx with hx | hx
  · rcases List.mem_append.mp hx with hx | hx
    · obtain ⟨timer, _, rfl⟩ := List.mem_map.mp hx
      exact ⟨rfl, fun _ => rfl⟩
    · rw [List.mem_singleton.mp hx]
      exact ⟨rfl, fun _ => rfl⟩
  · obtain ⟨c, rfl⟩ := hr x hx
    exact ⟨rfl, fun _ => rfl⟩

theorem Conserves.failTask (p : Pool) (id : TaskId) (cause : FailureCause) :
    Conserves p (failTask m p id cause) := by
  have h := failTask_cases (m := m) p id cause
  generalize Pool.failTask m p id cause = q at h
  cases h with
  | skipped => exact .refl p
  | exhausted t ht =>
    refine .settle (t.disarm.map Consequence.effect) (.error (t.failure cause).unchecked) ht ?_
      (quiet_disarm t) rfl
    show p.outbox ++ _ = _
    rw [resolve_effects]
  | stranded t =>
    refine .quiet (t.disarm.map Consequence.effect) rfl (quiet_disarm t) ?_
    exact Ledger.ids_modify p.ledger (retryLater cause m.now none) (fun _ => rfl) id
  | retried t =>
    refine .quiet _ rfl (fun e he => ?_) ?_
    · rcases List.mem_append.mp he with he | he
      · exact quiet_disarm t e he
      · rw [List.mem_singleton.mp he]
        exact ⟨rfl, fun _ => rfl⟩
    · exact Ledger.ids_modify p.ledger (retryLater cause m.now (some p.nextTimer))
        (fun _ => rfl) id

theorem Conserves.startAttempt (p : Pool) (id : TaskId) (w : WorkerId) :
    Conserves p (startAttempt m p id w) := by
  have h := startAttempt_cases (m := m) p id w
  generalize Pool.startAttempt m p id w = q at h
  cases h with
  | skipped => exact .refl p
  | untimed t =>
    refine .quiet [] (List.append_nil _).symm (by simp) ?_
    exact Ledger.ids_modify p.ledger (fun t => begun w m.now t.timer t) (fun _ => rfl) id
  | timed t =>
    refine .quiet _ rfl (fun e he => ?_) ?_
    · rcases List.mem_cons.mp he with rfl | he
      · exact ⟨rfl, fun _ => rfl⟩
      · exact quiet_disarm t e he
    · exact Ledger.ids_modify p.ledger (begun w m.now (some p.nextTimer)) (fun _ => rfl) id

theorem Conserves.cancel (p : Pool) (id : TaskId) : Conserves p (p.cancel id).2 := by
  unfold Pool.cancel Ledger.cancel
  cases ht : p.ledger.find? id with
  | none => exact .quiet [] rfl (by simp) rfl
  | some t =>
    by_cases hs : t.status.isTerminal = true
    · simp only [if_pos hs]
      exact .quiet [] rfl (by simp) rfl
    · simp only [if_neg hs]
      refine .settle (t.disarm.map Consequence.effect) (.error .cancelled) ht ?_
        (quiet_disarm t) rfl
      show p.outbox ++ _ = _
      rw [resolve_effects]

/-- an effect that is neither an acceptance nor an outcome, by itself -/
theorem Conserves.one {p q : Pool} (e : Effect) (ho : q.outbox = p.outbox ++ [e]) (he : e.Quiet)
    (hl : q.ledger.ids = p.ledger.ids) : Conserves p q := by
  refine .quiet [e] ho (fun x hx => ?_) hl
  rw [List.mem_singleton.mp hx]
  exact he

theorem Conserves.silent {p q : Pool} (ho : q.outbox = p.outbox) (hl : q.ledger.ids = p.ledger.ids) :
    Conserves p q := .quiet [] (ho.trans (List.append_nil _).symm) (by simp) hl

theorem Move.conserves {p q : Pool} (h : Move m p q) : Conserves p q := by
  cases h with
  | reply caller a ha =>
    refine .one _ rfl ⟨?_, fun _ => rfl⟩ rfl
    cases a with
    | accepted id => exact absurd rfl (ha id)
    | _ => rfl
  | ask w => exact .one _ rfl ⟨rfl, fun _ => rfl⟩ rfl
  | wake caller =>
    obtain ⟨s, r, h, hr⟩ := wake_eq p caller
    refine .quiet r (by rw [h]) (fun x hx => ?_) (by rw [h])
    obtain ⟨c, rfl⟩ := hr x hx
    exact ⟨rfl, fun _ => rfl⟩
  | promise | note | «open» => exact .silent rfl rfl
  | ticks =>
    unfold armTicks
    split
    · exact .one _ rfl ⟨rfl, fun _ => rfl⟩ rfl
    · exact .silent rfl rfl
  | dispatch w e affinity t rest task =>
    refine .one _ rfl ⟨rfl, fun _ => rfl⟩ ?_
    exact Ledger.ids_modify p.ledger (fun t => { t with worker := some w }) (fun _ => rfl) t.task
  | unknown | bounce => exact .one _ rfl ⟨rfl, fun _ => rfl⟩ rfl
  | retire waiter w e he hs hf =>
    rw [stopWorker_of_live waiter he hs]
    refine .quiet (retirement m p w) rfl (fun x hx => ?_) rfl
    rcases List.mem_append.mp hx with hx | hx
    · split at hx
      · rw [List.mem_singleton.mp hx]
        exact ⟨rfl, fun _ => rfl⟩
      · cases hx
    · split at hx
      · rw [List.mem_singleton.mp hx]
        exact ⟨rfl, fun _ => rfl⟩
      · cases hx
  | remove w e =>
    have hdrop : Conserves p (p.dropEntry w) := .silent rfl rfl
    exact hdrop.trans (.dispose (p.dropEntry w) e)
  | cancel id => exact .cancel p id
  | expire id attempt worker ledger consequences h =>
    obtain ⟨t, ht, _, _, _, rfl, rfl⟩ := Ledger.timeOut_eq_some h
    exact .settle [] _ ht rfl (by simp) rfl
  | shut => exact .shut p

theorem Conserves.hire (p : Pool) : Conserves p (p.hire m) := by
  by_cases ha : m.attached = true
  · rw [hire_of_attached ha]
    exact .one _ rfl ⟨rfl, fun _ => rfl⟩ rfl
  · rw [hire_of_detached (by simpa using ha)]
    exact .refl p

theorem Moves.conserves {p q : Pool} (h : Moves m p q) : Conserves p q := by
  induction h with
  | refl => exact .refl p
  | tail _ h ih =>
    rcases h with h | rfl
    · exact ih.trans h.conserves
    · exact ih.trans (.hire _)

/-- what a message does at once keeps the account too, if it is not an acceptance -/
theorem Impact.conserves {p q : Pool} {msg : Message} (h : Impact m p msg q)
    (hr : p.receipt msg = []) : Conserves p q := by
  cases h with
  | none => exact .refl p
  | accept caller id kind payload options h =>
    rw [receipt, h] at hr
    cases hr
  | ready | idle => exact .silent rfl rfl
  | busy w t =>
    have hset : Conserves p (p.updateEntry w fun e => e.setBusy t m.now) := .silent rfl rfl
    exact hset.trans (.startAttempt _ t w)
  | busyLate w t => exact .startAttempt p t w
  | result w t v ledger consequences ha hc =>
    obtain ⟨task, ht, _, rfl, rfl⟩ := Ledger.complete_eq_some hc
    refine .settle (task.disarm.map Consequence.effect) (.ok v) ht ?_ (quiet_disarm task) rfl
    show p.outbox ++ _ = _
    rw [resolve_effects]
  | error w t detail =>
    have hnote : Conserves p (p.updateEntry w fun e => { e with failed := e.failed + 1 }) :=
      .silent rfl rfl
    exact hnote.trans (.failTask _ t (.handler detail))
  | crash w event detail e =>
    have hdrop : Conserves p (p.dropEntry w) := .silent rfl rfl
    exact hdrop.trans (.dispose _ e)
  | crashBusy w event detail e t =>
    have hdrop : Conserves p (p.dropEntry w) := .silent rfl rfl
    exact (hdrop.trans (.dispose _ e)).trans (.failTask _ t (.crash w detail))
  | retry t ticket ledger hr h =>
    obtain ⟨task, _, _, _, rfl⟩ := Ledger.resetForRetry_eq_some h
    exact .silent rfl (Ledger.ids_modify p.ledger Ledger.reset (fun _ => rfl) t)

/-- nothing is accepted before the receipt -/
theorem Impact.accepted {p q : Pool} {msg : Message} (h : Impact m p msg q) :
    TaskPool.accepted q.outbox = TaskPool.accepted p.outbox := by
  by_cases hr : p.receipt msg = []
  · exact (h.conserves hr).accepted
  · cases h with
    | none | accept => rfl
    | _ => exact absurd rfl hr

/-- the receipt of a submission that is not refused -/
theorem accepted_receipt {p : Pool} (h : p.refusal? = none) (caller : CallId) (id : TaskId)
    (kind : Kind) (payload : Json) (options : Options) :
    TaskPool.accepted (p.receipt (.call caller (.submit id kind payload options))) = [id] := by
  rw [receipt, h]
  rfl

/-- what a message has accepted is what its receipt says -/
theorem handle_accepted {p : Pool} (hs : p.roster.Sound) (ho : p.outbox = []) (msg : Message) :
    TaskPool.accepted (p.handle m msg).outbox = TaskPool.accepted (p.receipt msg) := by
  obtain ⟨p1, p2, hi, hm, _, h⟩ := handle_splits (m := m) hs msg
  rw [h]
  show TaskPool.accepted (p2.outbox ++ _) = _
  rw [accepted_append, hm.conserves.accepted, hi.accepted, ho]
  rfl

/-- a step takes a task in with its acceptance, or conserves -/
theorem handle_conserves {p : Pool} (hs : p.roster.Sound) (msg : Message) :
    Conserves p (p.handle m msg) ∨
      ∃ p1 p2 caller id, Conserves p1 p2 ∧ p1.outbox = p.outbox ∧
        p1.ledger.ids = p.ledger.ids ++ [id] ∧
        p.handle m msg = p2.emit (.reply caller (.accepted id)) := by
  obtain ⟨p1, p2, hi, hm, _, h⟩ := handle_splits (m := m) hs msg
  by_cases hr : p.receipt msg = []
  · refine .inl ?_
    rw [h, hr, emitAll_nil]
    exact (hi.conserves hr).trans hm.conserves
  · refine .inr ?_
    cases hi with
    | accept caller id kind payload options hf =>
      refine ⟨_, p2, caller, id, hm.conserves, rfl, Ledger.ids_insert _ _, ?_⟩
      rw [h, receipt, hf]
      rfl
    | none _ hu => exact absurd (receipt_of_unmoved hu) hr
    | _ => exact absurd rfl hr

end Pool

/-! ## whole runs -/

/-- a pool between two messages, and everything it asked for so far -/
structure Chronicle where
  pool : Pool
  history : List Effect

namespace Chronicle

def new (c : Config) : Chronicle := ⟨.new c, []⟩

/-- one message is handled and what the pool asks for goes out -/
def heed (h : Chronicle) (m : Moment) (msg : Message) : Chronicle where
  pool := { h.pool.handle m msg with outbox := [] }
  history := h.history ++ (h.pool.handle m msg).outbox

/-- all that happens when a pool gets these messages, each at its moment -/
def run (c : Config) (xs : List (Moment × Message)) : Chronicle :=
  xs.foldl (fun h x => h.heed x.1 x.2) (.new c)

/-- the task is in the ledger and its caller has heard nothing -/
def Owes (h : Chronicle) (id : TaskId) : Prop :=
  h.pool.ledger.contains id = true ∧ deliveries id h.history = 0

/-- the task is out of the ledger and its caller has heard one outcome -/
def Settled (h : Chronicle) (id : TaskId) : Prop :=
  h.pool.ledger.contains id = false ∧ deliveries id h.history = 1

structure Balanced (h : Chronicle) : Prop where
  sound : h.pool.roster.Sound
  outbox : h.pool.outbox = []
  account : ∀ id,
    deliveries id h.history + h.pool.ledger.ids.count id = (accepted h.history).count id

theorem balanced_new (c : Config) : (new c).Balanced :=
  ⟨Roster.Sound.empty, rfl, fun _ => rfl⟩

theorem accepted_heed (h : Chronicle) (m : Moment) (msg : Message) :
    accepted (h.heed m msg).history
      = accepted h.history ++ accepted (h.pool.handle m msg).outbox := accepted_append _ _

/-- the tasks accepted so far are distinct, so each has one place in the ledger at most -/
theorem Balanced.nodup {h : Chronicle} (hb : h.Balanced) (hd : (accepted h.history).Nodup) :
    h.pool.ledger.ids.Nodup := by
  refine List.nodup_iff_count.mpr fun id => ?_
  have h1 := List.nodup_iff_count.mp hd id
  have h2 := hb.account id
  omega

theorem Balanced.heed {h : Chronicle} (hb : h.Balanced) (m : Moment) (msg : Message)
    (hd : (accepted (h.heed m msg).history).Nodup) : (h.heed m msg).Balanced := by
  refine ⟨Pool.handle_sound hb.sound msg, rfl, fun id => ?_⟩
  rw [accepted_heed] at hd
  have hn := hb.nodup (List.nodup_append.mp hd).1
  have hacc := hb.account id
  rw [accepted_heed, List.count_append]
  show deliveries id (h.history ++ _) + (h.pool.handle m msg).ledger.ids.count id = _
  rw [deliveries_append]
  rcases Pool.handle_conserves (m := m) hb.sound msg with
    hc | ⟨p1, p2, caller, new, hc, hout, hids, hq⟩
  · have h1 := hc.account hn id
    rw [hc.accepted, hb.outbox, show accepted [] = [] from rfl, List.count_nil]
    rw [hb.outbox, deliveries_nil] at h1
    omega
  · -- the new task was not accepted before, so it has no place in the ledger yet
    have hacc2 : accepted (h.pool.handle m msg).outbox = [new] := by
      rw [hq]
      show accepted (p2.outbox ++ [_]) = _
      rw [accepted_append, hc.accepted, hout, hb.outbox]
      rfl
    have hnew : new ∉ h.pool.ledger.ids := by
      rw [hacc2] at hd
      have hout : new ∉ accepted h.history := fun hm =>
        (List.nodup_append.mp hd).2.2 new hm new (List.mem_singleton_self _) rfl
      have h2 := hb.account new
      rw [List.count_eq_zero.mpr hout] at h2
      exact List.count_eq_zero.mp (by omega)
    have hn1 : p1.ledger.ids.Nodup := by
      rw [hids]
      refine List.nodup_append.mpr ⟨hn, by simp, fun a ha b hb hab => ?_⟩
      rw [List.mem_singleton.mp hb] at hab
      exact hnew (hab ▸ ha)
    have h1 := hc.account hn1 id
    rw [hout, hb.outbox, deliveries_nil, hids, List.count_append] at h1
    rw [hacc2, hq]
    show _ + deliveries id (p2.outbox ++ [.reply caller (.accepted new)]) + p2.ledger.ids.count id = _
    rw [deliveries_append, show deliveries id [.reply caller (.accepted new)] = 0 from rfl]
    omega

theorem run_append (c : Config) (xs ys : List (Moment × Message)) :
    run c (xs ++ ys) = ys.foldl (fun h x => h.heed x.1 x.2) (run c xs) := List.foldl_append

/-- the history of a run only grows -/
theorem history_extends (h : Chronicle) (ys : List (Moment × Message)) :
    h.history <+: (ys.foldl (fun h x => h.heed x.1 x.2) h).history := by
  induction ys generalizing h with
  | nil => exact List.prefix_rfl
  | cons y ys ih => exact (List.prefix_append _ _).trans (ih (h.heed y.1 y.2))

theorem accepted_extends {h h' : Chronicle} (hp : h.history <+: h'.history) :
    accepted h.history <+: accepted h'.history := by
  obtain ⟨es, he⟩ := hp
  exact ⟨accepted es, by rw [← he, accepted_append]⟩

theorem deliveries_le {h h' : Chronicle} (hp : h.history <+: h'.history) (id : TaskId) :
    deliveries id h.history ≤ deliveries id h'.history := by
  obtain ⟨es, he⟩ := hp
  rw [← he, deliveries_append]
  exact Nat.le_add_right _ _

theorem Balanced.foldl {h : Chronicle} (hb : h.Balanced) (ys : List (Moment × Message))
    (hd : (accepted (ys.foldl (fun h x => h.heed x.1 x.2) h).history).Nodup) :
    (ys.foldl (fun h x => h.heed x.1 x.2) h).Balanced := by
  induction ys generalizing h with
  | nil => exact hb
  | cons y ys ih =>
    have hp := accepted_extends (history_extends (h.heed y.1 y.2) ys)
    exact ih (hb.heed y.1 y.2 (hd.sublist hp.sublist)) hd

theorem run_balanced (c : Config) (xs : List (Moment × Message))
    (hd : (accepted (run c xs).history).Nodup) : (run c xs).Balanced :=
  (balanced_new c).foldl xs hd

/-- of an accepted task, either the outcome is owed or it was delivered once -/
theorem Balanced.owes_or_settled {h : Chronicle} (hb : h.Balanced)
    (hd : (accepted h.history).Nodup) {id : TaskId} (ha : id ∈ accepted h.history) :
    h.Owes id ∨ h.Settled id := by
  have hone : (accepted h.history).count id = 1 :=
    Nat.le_antisymm (List.nodup_iff_count.mp hd id) (List.count_pos_iff.mpr ha)
  have hacc := hb.account id
  by_cases hc : h.pool.ledger.contains id = true
  · have hpos := List.count_pos_iff.mpr (Ledger.contains_iff.mp hc)
    exact .inl ⟨hc, by omega⟩
  · have hzero := List.count_eq_zero.mpr fun hm => hc (Ledger.contains_iff.mpr hm)
    exact .inr ⟨by simpa using hc, by omega⟩

/-- **every accepted submission gets one outcome**: at any time of a run, whatever the messages and
their order, an accepted task is in the ledger and nothing was delivered for it, or it is out of
the ledger and one outcome was delivered; and then neither changes in the rest of the run -/
theorem exactly_one_outcome (c : Config) (xs ys : List (Moment × Message)) {id : TaskId}
    (hd : (accepted (run c (xs ++ ys)).history).Nodup)
    (ha : id ∈ accepted (run c xs).history) :
    ((run c xs).Owes id ∨ (run c xs).Settled id) ∧
      ((run c xs).Settled id → (run c (xs ++ ys)).Settled id) := by
  have hp : (run c xs).history <+: (run c (xs ++ ys)).history := by
    rw [run_append]
    exact history_extends (run c xs) ys
  have hd1 : (accepted (run c xs).history).Nodup := hd.sublist (accepted_extends hp).sublist
  refine ⟨(run_balanced c xs hd1).owes_or_settled hd1 ha, fun hset => ?_⟩
  have ha2 : id ∈ accepted (run c (xs ++ ys)).history := (accepted_extends hp).subset ha
  rcases (run_balanced c (xs ++ ys) hd).owes_or_settled hd ha2 with ho | hs
  · have hle := deliveries_le hp id
    have h1 := hset.2
    have h0 := ho.2
    omega
  · exact hs

/-- a task is accepted by a pool of two workers and cancelled before either is ready -/
def briefLife : List (Moment × Message) :=
  [(⟨⟨0, 0⟩, [], true⟩, .call 0 .start),
    (⟨⟨1, 0⟩, [], true⟩, .call 1 (.submit ⟨7⟩ .cacheCleanup .null {})),
    (⟨⟨2, 0⟩, [], true⟩, .call 2 (.cancel ⟨7⟩))]

/-- it is cancelled once more, and a result comes that nobody waits for -/
def afterwards : List (Moment × Message) :=
  [(⟨⟨3, 0⟩, [], true⟩, .call 3 (.cancel ⟨7⟩)),
    (⟨⟨4, 0⟩, [], true⟩, .report 1 (.result ⟨7⟩ .null))]

theorem exactly_one_outcome_briefLife :
    (accepted (run {} (briefLife ++ afterwards)).history).Nodup ∧
      (run {} briefLife).Settled ⟨7⟩ ∧ (run {} (briefLife ++ afterwards)).Settled ⟨7⟩ := by
  have hd : (accepted (run {} (briefLife ++ afterwards)).history).Nodup := by decide
  have ha : ⟨7⟩ ∈ accepted (run {} briefLife).history := by decide
  have hs : (run {} briefLife).Settled ⟨7⟩ := ⟨by decide, by decide⟩
  exact ⟨hd, hs, (exactly_one_outcome {} briefLife afterwards hd ha).2 hs⟩

end Chronicle

end TaskPool
