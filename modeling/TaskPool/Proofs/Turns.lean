import TaskPool.Proofs.Diligence
import TaskPool.Proofs.Leaving
import TaskPool.Proofs.Precedence
import TaskPool.Proofs.Workday

/-!
# Tasks are handed out in their turn

* `entrants`, `entered`   the tickets that a message puts into the queue, and the queue with them
* `handle_queue`          after that a message takes tickets out only
* `Served`                tickets that are taken one after the other, each for the worker it is
                          handed to
* `handle_served`         that is how a message hands tasks out
* `Served.ahead`          what is handed out is ahead of what still waits
* `Workshop.Lined c W line`   `line` is what came into the queue on the way to `W`
* `Lined.in_order`        no task is handed out while one waits that is ahead of it

Why only messages that bring a ticket or free a worker hand anything out: before any other one no
worker idles while a ticket waits, and it leaves that so.
-/

namespace TaskPool

open Function Relation

namespace Pool

variable {m : Moment} {now : Nat} {bench : WorkerId → Option Bench} {taken : List TaskId}
  {msg : Message}

/-! ## what comes into the queue -/

/-- the tickets that a message puts into the queue -/
def entrants (p : Pool) : Message → List Ticket
  | .call _ (.submit id kind payload options) =>
    if p.refusal?.isNone then [⟨id, (terms p.config kind payload options).priority, kind⟩] else []
  | .ring (.retryDue t) =>
    if p.running then ((p.ledger.resetForRetry t).map Prod.fst).toList else []
  | _ => []

/-- the queue with those -/
def entered (p : Pool) (msg : Message) : Queue := (p.entrants msg).foldl Queue.push p.queue

theorem mem_entered {p : Pool} {t : Ticket} :
    t ∈ (p.entered msg).waiting ↔ t ∈ p.queue.waiting ∨ t ∈ p.entrants msg := by
  rw [entered, (Queue.pushAll_perm _ _).mem_iff, List.mem_append, or_comm]

theorem entrants_of_unmoved {p : Pool} (h : p.Unmoved msg) : p.entrants msg = [] := by
  cases msg with
  | call caller r =>
    cases r with
    | submit =>
      cases hf : p.refusal? with
      | none => exact absurd hf h
      | some why => simp [entrants, hf]
    | _ => rfl
  | report => rfl
  | ring alarm =>
    cases alarm with
    | retryDue t =>
      show (if p.running then ((p.ledger.resetForRetry t).map Prod.fst).toList else []) = []
      split
      · rename_i hr
        rw [h hr]
        rfl
      · rfl
    | _ => rfl

/-- at once a message puts its tickets into the queue, and takes none out -/
theorem Impact.queue {p q : Pool} (h : Impact m p msg q) : q.queue = p.entered msg := by
  cases h with
  | none _ hu => rw [entered, entrants_of_unmoved hu, List.foldl_nil]
  | accept caller id kind payload options hr =>
    rw [entered, entrants, hr]
    rfl
  | retry t ticket ledger hr h =>
    rw [entered, entrants, if_pos hr, h]
    rfl
  | ready | idle | result => rfl
  | busy w t =>
    rw [startAttempt_queue]
    rfl
  | busyLate w t =>
    rw [startAttempt_queue]
    rfl
  | error w t detail =>
    rw [failTask_queue]
    rfl
  | crash w event detail e hd =>
    rw [dispose_queue]
    cases event <;> rfl
  | crashBusy w event detail e t hd =>
    rw [failTask_queue, dispose_queue]
    cases event <;> rfl

/-- a move only takes tickets out; in particular none is put back -/
theorem Move.queue_sublist {p q : Pool} (h : Staged m now bench taken p) (hm : Move m p q) :
    q.queue.waiting.Sublist p.queue.waiting := by
  cases hm with
  | reply | ask | promise | note | «open» | expire => exact .refl _
  | wake caller =>
    obtain ⟨s, r, hw, _⟩ := wake_eq p caller
    rw [hw]
  | ticks =>
    unfold armTicks
    split <;> exact .refl _
  | dispatch w e affinity t rest task _ _ hq => exact Queue.popFor_sublist hq
  | unknown affinity t rest hq => exact Queue.popFor_sublist hq
  | bounce w e affinity t rest he hi _ hr =>
    rw [h.reaches_of_idle he hi] at hr
    cases hr
  | retire waiter w e he hst =>
    rw [stopWorker_of_live waiter he hst]
  | remove w e =>
    rw [dispose_queue]
    exact .refl _
  | cancel id => exact p.queue.remove_sublist id
  | shut => exact List.nil_sublist _

theorem Moves.queue_sublist {p q : Pool} (h : Staged m now bench taken p) (hm : Moves m p q) :
    q.queue.waiting.Sublist p.queue.waiting := by
  induction hm with
  | refl => exact .refl _
  | tail hpr hr ih =>
    rcases hr with hr | rfl
    · exact (hr.queue_sublist (Moves.staged h hpr)).trans ih
    · have hhire (r : Pool) : (r.hire m).queue = r.queue := by
        unfold hire
        split <;> rfl
      rw [hhire]
      exact ih

theorem handle_queue {p : Pool} (hs : p.roster.Sound)
    (hi : ∀ q, Impact m p msg q → Staged m now bench taken q) :
    (p.handle m msg).queue.waiting.Sublist (p.entered msg).waiting ∧
      (p.entered msg).tasks.Nodup := by
  obtain ⟨p1, p2, himp, hm, _, hq⟩ := handle_splits (m := m) hs msg
  have hst := hi p1 himp
  rw [hq, ← himp.queue]
  refine ⟨?_, hst.harmony.nodup⟩
  show p2.queue.waiting.Sublist _
  exact hm.queue_sublist hst

/-! ## how tasks are handed out -/

/-- the kinds that a worker prefers, if that is heeded -/
def preference (p : Pool) (w : WorkerId) : Option KindSet :=
  if p.config.affinity then (p.roster.find? w).bind Entry.affinity else none

theorem preference_modify {p q : Pool} {w : WorkerId} {f : Entry → Entry}
    (hc : q.config = p.config) (hr : q.roster = p.roster.modify w f)
    (hf : ∀ e, (f e).worker = e.worker) (ha : ∀ e, (f e).affinity = e.affinity) :
    q.preference = p.preference := by
  funext x
  unfold preference
  rw [hc, hr, Roster.find?_modify _ _ hf]
  split
  · split
    · cases p.roster.find? x with
      | none => rfl
      | some e => exact ha e
    · rfl
  · rfl

/-- tickets are taken out of the queue one after the other, each for the worker that is told to run
the task -/
inductive Served (preference : WorkerId → Option KindSet) : Queue → List Effect → Queue → Prop where
  | done (q : Queue) : Served preference q [] q
  | next (w : WorkerId) (t : Ticket) (payload : Json) {q rest r : Queue} {es : List Effect}
      (hq : q.popFor (preference w) = some (t, rest)) (h : Served preference rest es r) :
      Served preference q (.tell w (.task t.task t.kind payload) :: es) r

theorem Served.trans {pref : WorkerId → Option KindSet} {q r s : Queue} {es fs : List Effect}
    (h1 : Served pref q es r) (h2 : Served pref r fs s) : Served pref q (es ++ fs) s := by
  induction h1 with
  | done => exact h2
  | next w t payload hq _ ih => exact .next w t payload hq (ih h2)

/-- from `p` to `q` tickets are handed out, and whatever workers prefer stays as it is -/
def Serves (p q : Pool) : Prop :=
  q.preference = p.preference ∧
    ∃ es, q.outbox = p.outbox ++ es ∧ Served p.preference p.queue es q.queue

theorem Serves.refl (p : Pool) : Serves p p := ⟨rfl, [], (List.append_nil _).symm, .done _⟩

theorem Serves.trans {p q r : Pool} (h1 : Serves p q) (h2 : Serves q r) : Serves p r := by
  obtain ⟨hp, es, ho, hs⟩ := h1
  obtain ⟨hp', fs, ho', hs'⟩ := h2
  rw [hp] at hs'
  refine ⟨hp'.trans hp, es ++ fs, ?_, hs.trans hs'⟩
  rw [ho', ho, List.append_assoc]

theorem Staged.assign_serves {p : Pool} (h : Staged m now bench taken p) (w : WorkerId) :
    Serves p (assign m p w) := by
  have hsame (hno : assign m p w = p) : Serves p (assign m p w) := by
    rw [hno]
    exact .refl p
  cases he : p.roster.find? w with
  | none =>
    refine hsame ?_
    unfold assign
    rw [he]
  | some e =>
    by_cases hi : e.status = .idle
    · cases hq : p.queue.popFor (if p.config.affinity then e.affinity else none) with
      | none =>
        refine hsame ?_
        unfold assign
        simp only [he, if_pos hi, hq]
      | some r =>
        obtain ⟨task, _, heq⟩ := h.assign_eq he hi hq
        have hpref : p.preference w = if p.config.affinity then e.affinity else none := by
          rw [preference, he]
          rfl
        rw [heq]
        refine ⟨preference_modify (w := w) (f := fun e => e.setBusy r.1.task m.now) rfl rfl
          (fun _ => rfl) (fun _ => rfl), _, rfl, ?_⟩
        exact .next w r.1 task.terms.payload (hpref ▸ hq) (.done _)
    · refine hsame ?_
      unfold assign
      simp only [he, if_neg hi]

theorem Staged.assignEach_serves (ws : List WorkerId) {p : Pool} (h : Staged m now bench taken p) :
    Serves p (assignEach m ws p) := by
  induction ws generalizing p with
  | nil => exact .refl p
  | cons w ws ih =>
    rw [assignEach]
    split
    · exact .refl p
    · have hw : Staged m now bench taken (assign m p w) :=
        Moves.staged h (assign_steady p w).moves
      exact (h.assign_serves w).trans (ih hw)

/-! ## messages that hand nothing out -/

theorem Chores.unhanded {p q : Pool} (h : Chores m msg p q) (hs : p.roster.Sound)
    (hd : p.Diligent) : ∃ es, q.outbox = p.outbox ++ es ∧ ∀ w, handed w es = [] := by
  have hall : q.roster.Sound ∧ q.Diligent ∧
      ∃ es, q.outbox = p.outbox ++ es ∧ ∀ w, handed w es = [] := by
    induction h with
    | refl => exact ⟨hs, hd, [], (List.append_nil _).symm, fun _ => rfl⟩
    | @tail q r _ hr ih =>
      obtain ⟨hsound, hdiligent, es, ho, hes⟩ := ih
      obtain ⟨fs, hfs⟩ := hr.hand
      have hmoves : Moves m q r := .single (hr.move.imp_right And.left)
      refine ⟨hmoves.sound hsound, hmoves.eases.keeps_diligent hdiligent, es ++ fs, ?_⟩
      cases hfs with
      | bare _ ho' hb =>
        refine ⟨?_, fun w => ?_⟩
        · rw [ho', ho, List.append_assoc]
        · rw [handed_append, hes, handed_bare hb]
          rfl
      | task w e id kind payload he hi _ hq =>
        refine absurd ⟨e, he, hi⟩ (hdiligent (fun hempty => ?_) w)
        have hnone : q.queue.tasks = [] := congrArg (List.map Ticket.task) hempty
        rw [hnone] at hq
        exact absurd hq.symm (List.cons_ne_nil _ _ ∘ List.Perm.eq_nil)
  exact hall.2.2

theorem Impact.unhanded {p q : Pool} (h : Impact m p msg q) :
    ∃ es, q.outbox = p.outbox ++ es ∧ ∀ w, handed w es = [] := by
  obtain ⟨es, ho, htime⟩ := h.timing
  refine ⟨es, ho, fun w => ?_⟩
  cases htime with
  | bare _ _ hb => exact handed_bare hb
  | busy v id t timer ds _ _ hb => exact (List.filterMap_cons_none rfl).trans (handed_bare hb)

theorem mem_handed {w : WorkerId} {id : TaskId} {kind : Kind} {payload : Json} {es : List Effect}
    (h : .tell w (.task id kind payload) ∈ es) : id ∈ handed w es :=
  List.mem_filterMap.mpr ⟨_, h, if_pos rfl⟩

/-- what hands a task out comes before the effects that hand nothing out -/
theorem tells_of_unhanded {w : WorkerId} {id : TaskId} {kind : Kind} {payload : Json}
    {es fs es1 es2 : List Effect} (h : es ++ fs = es1 ++ .tell w (.task id kind payload) :: es2)
    (hfs : handed w fs = []) : ∃ rest, es = es1 ++ .tell w (.task id kind payload) :: rest := by
  have hout : .tell w (.task id kind payload) ∉ fs := fun hmem =>
    List.not_mem_nil (hfs ▸ mem_handed hmem)
  rcases List.append_eq_append_iff.mp h with ⟨as, _, hfs'⟩ | ⟨bs, rfl, hbs⟩
  · refine absurd ?_ hout
    rw [hfs']
    exact List.mem_append_right as (List.mem_cons_self ..)
  · cases bs with
    | nil =>
      refine absurd ?_ hout
      rw [show fs = _ from hbs.symm]
      exact List.mem_cons_self ..
    | cons b bs =>
      obtain ⟨rfl, _⟩ := List.cons.inj hbs
      exact ⟨bs, rfl⟩

/-! ## every message -/

/-- a message hands tasks out of the queue with its own tickets, one after the other; the rest of
what it asks for hands nothing out -/
theorem handle_served {p : Pool} (ho : p.outbox = []) (hs : p.roster.Sound) (hd : p.Diligent)
    (hi : ∀ q, Impact m p msg q → Staged m now bench taken q) :
    ∃ es fs r, (p.handle m msg).outbox = es ++ fs ∧ Served p.preference (p.entered msg) es r ∧
      ∀ w, handed w fs = [] := by
  obtain ⟨p1, p2, himp, hc, hq⟩ := handle_chores (m := m) hs msg
  have hst := hi p1 himp
  have hreceipt (w : WorkerId) : handed w (p.receipt msg) = [] := by
    refine handed_bare fun e he => ?_
    obtain ⟨caller, id, rfl⟩ := mem_receipt he
    trivial
  have hserve {q : Pool} (h : Serves p1 q) (ho1 : p1.outbox = [])
      (hpref : p1.preference = p.preference) :
      Served p.preference (p.entered msg) q.outbox q.queue := by
    obtain ⟨_, es, ho2, hes⟩ := h
    rw [ho1, List.nil_append] at ho2
    rw [ho2, ← hpref, ← himp.queue]
    exact hes
  rcases himp.stirs with heases | hstirs
  · obtain ⟨es, ho1, hes⟩ := himp.unhanded
    obtain ⟨fs, ho2, hfs⟩ := hc.unhanded hst.sound (heases.keeps_diligent hd)
    refine ⟨[], (p.handle m msg).outbox, p.entered msg, rfl, .done _, fun w => ?_⟩
    rw [hq]
    show handed w (p2.outbox ++ p.receipt msg) = []
    rw [ho2, ho1, ho, handed_append, handed_append, handed_append, hes, hfs, hreceipt]
    rfl
  · cases hstirs with
    | queued ledger t h =>
      rw [h]
      exact ⟨_, _, _, rfl, hserve (hst.assignEach_serves p.roster.idleIds) ho rfl, hreceipt⟩
    | freed w h =>
      have hpref : (p.updateEntry w fun e => e.setIdle m.now).preference = p.preference :=
        preference_modify rfl rfl (fun _ => rfl) (fun _ => rfl)
      rw [h]
      exact ⟨_, [], _, (List.append_nil _).symm, hserve (hst.assign_serves w) ho hpref,
        fun _ => rfl⟩

/-! ## what is ahead of what -/

/-- those of the tickets whose tasks nobody was told to run -/
def untold (es : List Effect) (ts : List Ticket) : List Ticket :=
  ts.filter fun t => (told t.task es).isEmpty

theorem untold_append (es : List Effect) (ts us : List Ticket) :
    untold es (ts ++ us) = untold es ts ++ untold es us := List.filter_append ..

theorem told_cons_task (id t : TaskId) (w : WorkerId) (kind : Kind) (payload : Json)
    (es : List Effect) : told id (.tell w (.task t kind payload) :: es)
      = if t = id then w :: told id es else told id es := by
  split
  · rename_i h
    exact List.filterMap_cons_some (if_pos h)
  · rename_i h
    exact List.filterMap_cons_none (if_neg h)

/-- the first that is handed out is the one that is taken first -/
theorem untold_cons {q rest : Queue} {affinity : Option KindSet} {t : Ticket}
    (hq : q.popFor affinity = some (t, rest)) (hd : q.tasks.Nodup) (w : WorkerId) (payload : Json)
    (es : List Effect) :
    untold (.tell w (.task t.task t.kind payload) :: es) q.waiting = untold es rest.waiting := by
  obtain ⟨before, after, hwaiting, hrest, _, _⟩ := Queue.popFor_split hq
  have hne (x : Ticket) (hx : x ∈ before ++ after) : t.task ≠ x.task := by
    have hperm : q.tasks.Perm (t.task :: rest.tasks) := tasks_popFor hq
    have hout := (List.nodup_cons.mp (hperm.nodup_iff.mp hd)).1
    rw [Queue.tasks, hrest] at hout
    exact fun h => hout (h ▸ List.mem_map_of_mem hx)
  have hother (x : Ticket) (hx : x ∈ before ++ after) :
      (told x.task (.tell w (.task t.task t.kind payload) :: es)).isEmpty
        = (told x.task es).isEmpty := by
    rw [told_cons_task, if_neg (hne x hx)]
  have hfirst : untold (.tell w (.task t.task t.kind payload) :: es) (t :: after)
      = untold (.tell w (.task t.task t.kind payload) :: es) after := by
    refine List.filter_cons_of_neg ?_
    rw [told_cons_task, if_pos rfl]
    exact Bool.false_ne_true
  rw [hwaiting, hrest, untold_append, hfirst, ← untold_append]
  exact List.filter_congr hother

/-- **what is handed out is ahead of what still waits**, of all if the worker prefers nothing, and
of its own kind in any case -/
theorem Served.ahead {line : List Ticket} {pref : WorkerId → Option KindSet} {q r : Queue}
    {es es1 es2 : List Effect} {w : WorkerId} {id : TaskId} {kind : Kind} {payload : Json}
    (h : Served pref q es r) (hs : q.waiting.Pairwise (Ahead line)) (hd : q.tasks.Nodup)
    (he : es = es1 ++ .tell w (.task id kind payload) :: es2) :
    ∃ y ∈ untold es1 q.waiting, y.task = id ∧ y.kind = kind ∧
      ∀ x ∈ untold es1 q.waiting, x ≠ y →
        ((∀ t, Queue.prefers (pref w) t = false) ∨ x.kind = y.kind) → Ahead line y x := by
  induction h generalizing es1 with
  | done => cases es1 <;> cases he
  | next v t payload' hq _ ih =>
    cases es1 with
    | nil =>
      obtain ⟨hhead, _⟩ := List.cons.inj he
      cases hhead
      have hall (ts : List Ticket) : untold [] ts = ts := List.filter_true ts
      rw [hall]
      obtain ⟨hmem, hahead⟩ := Queue.ahead_of_popFor hs hq
      exact ⟨t, hmem, rfl, rfl, hahead⟩
    | cons e es1 =>
      obtain ⟨hhead, htail⟩ := List.cons.inj he
      subst hhead
      have hsub := Queue.popFor_sublist hq
      rw [untold_cons hq hd]
      exact ih (hs.sublist hsub) (hd.sublist (hsub.map Ticket.task)) htail

/-- whatever the worker prefers is not heeded, or it prefers nothing -/
def Impartial (p : Pool) (w : WorkerId) : Prop :=
  p.config.affinity = false ∨ ∀ e kinds, p.roster.find? w = some e → e.affinity = some kinds →
    kinds.toList = []

theorem Impartial.prefers {p : Pool} {w : WorkerId} (h : p.Impartial w) (t : Ticket) :
    Queue.prefers (p.preference w) t = false := by
  cases hp : p.preference w with
  | none => rfl
  | some kinds =>
    unfold preference at hp
    split at hp
    · rename_i ha
      rcases h with h | h
      · rw [h] at ha
        cases ha
      · obtain ⟨e, he, hk⟩ := Option.bind_eq_some_iff.mp hp
        have hnone : kinds.members = [] := KindSet.toList_eq_nil.mp (h e kinds he hk)
        simp [Queue.prefers, KindSet.contains, hnone]
    · cases hp

end Pool

/-! ## whole runs -/

namespace Workshop

variable {c : Config} {W V : Workshop} {line : List Ticket} {m : Moment} {msg : Message}

/-- something happens that the pool does not hear of -/
inductive Passes (W : Workshop) : Workshop → Prop where
  | ring (t : Timer) (ht : t ∈ W.timers) :
      Passes W
        { W with
          timers := if t.repeats then W.timers else W.timers.filter fun x => x.id != t.id
          rung := W.rung ++ [t.alarm] }
  | turn (w : WorkerId) (b b' : Bench) (hb : W.bench w = some b) (ht : b.Turn b') :
      Passes W (W.setBench w b')
  | letGo : Passes W { W with held := false }

/-- a run of the pool that leads to the workshop; the tickets of `line` were put into the queue on
the way, one after the other -/
inductive Lined (c : Config) : Workshop → List Ticket → Prop where
  | new : Lined c (.new c) []
  | hear {W V : Workshop} {line : List Ticket} (h : Lined c W line) (m : Moment) (now : Nat)
      (msg : Message) (hm : W.Admits m) (ht : W.Takes msg V) :
      Lined c (V.deliver m now msg) (line ++ W.pool.entrants msg)
  | pass {W V : Workshop} {line : List Ticket} (h : Lined c W line) (hp : W.Passes V) :
      Lined c V line

theorem Passes.step (h : W.Passes V) : Step W V := by
  cases h with
  | ring t ht => exact .ring t ht
  | turn w b b' hb ht => exact .turn w b b' hb ht
  | letGo => exact .letGo

theorem Lined.reachable (h : Lined c W line) : Reachable c W := by
  induction h with
  | new => exact .new
  | hear _ m now msg hm ht ih => exact ih.step (ht.step hm now)
  | pass _ hp ih => exact ih.step hp.step

/-- every run has its line -/
theorem Reachable.lined (h : Reachable c W) : ∃ line, Lined c W line := by
  induction h with
  | new => exact ⟨[], .new⟩
  | @step W V _ hs ih =>
    obtain ⟨line, hl⟩ := ih
    cases hs with
    | call m now caller request hm hd => exact ⟨_, hl.hear m now _ hm (.call caller request hd)⟩
    | report m now w b e rest hm hb ho => exact ⟨_, hl.hear m now _ hm (.report w b e rest hb ho)⟩
    | alarm m now a hm ha => exact ⟨_, hl.hear m now _ hm (.alarm a ha)⟩
    | ring t ht => exact ⟨line, hl.pass (.ring t ht)⟩
    | turn w b b' hb ht => exact ⟨line, hl.pass (.turn w b b' hb ht)⟩
    | letGo => exact ⟨line, hl.pass .letGo⟩

/-- a message that is taken out of where it waits finds the pool in step -/
theorem InStep.staged_takes (hin : W.InStep) (hm : W.Admits m) (ht : W.Takes msg V) {q : Pool}
    (hi : Pool.Impact m W.pool msg q) :
    Pool.Staged m 0 V.bench (accepted W.history ++ accepted (W.pool.receipt msg)) q := by
  cases ht with
  | call caller request hd => exact hin.staged_call 0 hm hd hi
  | report w b e rest hb ho => exact hin.staged_report 0 hm hb ho hi
  | alarm a ha => exact hin.staged_alarm 0 hm hi

/-- the queue with the tickets of a message is in order if the queue is -/
theorem InStep.entered_ranked (hin : W.InStep) (hm : W.Admits m) (ht : W.Takes msg V)
    (hs : W.pool.queue.waiting.Pairwise (Ahead line)) :
    (W.pool.entered msg).waiting.Pairwise (Ahead (line ++ W.pool.entrants msg)) := by
  have hd := (Pool.handle_queue hin.tuned.sound fun q hi => hin.staged_takes hm ht hi).2
  exact Queue.pairwise_pushAll hs (List.Nodup.of_map Ticket.task hd)

/-- **the queue is always in order**: the more urgent tickets first, and those that are as urgent in
the order in which they came -/
theorem Lined.ranked (h : Lined c W line) :
    W.pool.queue.waiting.Pairwise (Ahead line) ∧ ∀ t ∈ W.pool.queue.waiting, t ∈ line := by
  induction h with
  | new => exact ⟨List.Pairwise.nil, fun t ht => absurd ht List.not_mem_nil⟩
  | @hear W V line h m now msg hm ht ih =>
    have hin := h.reachable.inStep
    have hsub : (V.deliver m now msg).pool.queue.waiting.Sublist
        (W.pool.entered msg).waiting := by
      show (V.pool.handle m msg).queue.waiting.Sublist _
      rw [ht.pool.1]
      exact (Pool.handle_queue hin.tuned.sound fun q hi => hin.staged_takes hm ht hi).1
    refine ⟨(hin.entered_ranked hm ht ih.1).sublist hsub, fun t htm => ?_⟩
    rw [List.mem_append]
    exact (Pool.mem_entered.mp (hsub.subset htm)).imp_left (ih.2 t)
  | pass _ hp ih => cases hp <;> exact ih

/-- **no task is handed out while one waits that is ahead of it**, if the worker prefers nothing,
and in any case none while one of its kind waits that is ahead of it -/
theorem Lined.in_order (h : Lined c W line) (hm : W.Admits m) (ht : W.Takes msg V)
    {es fs : List Effect} {w : WorkerId} {id : TaskId} {kind : Kind} {payload : Json}
    (ho : (V.pool.handle m msg).outbox = es ++ .tell w (.task id kind payload) :: fs) :
    (∀ x ∈ (W.pool.entered msg).waiting, x ∈ line ++ W.pool.entrants msg) ∧
    ∃ y ∈ Pool.untold es (W.pool.entered msg).waiting, y.task = id ∧ y.kind = kind ∧
      ∀ x ∈ Pool.untold es (W.pool.entered msg).waiting, (W.pool.Impartial w ∨ x.kind = y.kind) →
        ¬ Ahead (line ++ W.pool.entrants msg) x y ∧
          (x ≠ y → Ahead (line ++ W.pool.entrants msg) y x) := by
  have hr := h.reachable
  have hin := hr.inStep
  have hstaged (q : Pool) (hi : Pool.Impact m W.pool msg q) := hin.staged_takes hm ht hi
  obtain ⟨es', fs', r, ho', hserved, hunhanded⟩ :=
    Pool.handle_served hin.tuned.outbox hin.tuned.sound hr.pool_diligent hstaged
  -- the command is among those with which tickets are taken out
  obtain ⟨es2, hes⟩ : ∃ es2, es' = es ++ .tell w (.task id kind payload) :: es2 := by
    rw [ht.pool.1, ho'] at ho
    exact Pool.tells_of_unhanded ho (hunhanded w)
  have hranked := hin.entered_ranked hm ht h.ranked.1
  have hdistinct := (Pool.handle_queue hin.tuned.sound hstaged).2
  obtain ⟨y, hy, hid, hkind, hahead⟩ := hserved.ahead hranked hdistinct hes
  refine ⟨fun x hx => ?_, y, hy, hid, hkind, fun x hx hfree => ?_⟩
  · rw [List.mem_append]
    exact (Pool.mem_entered.mp hx).imp_left (h.ranked.2 x)
  · have hyx (hne : x ≠ y) : Ahead (line ++ W.pool.entrants msg) y x :=
      hahead x hx hne (hfree.imp_left fun hi => hi.prefers)
    refine ⟨fun hxy => ?_, hyx⟩
    by_cases hne : x = y
    · rw [hne] at hxy
      exact hxy.irrefl
    · exact hxy.asymm (hyx hne)

/-- a worker that has run its first task -/
def relieved : Bench :=
  { working with
    worker := (working.worker.finish 0 (.value .null)).1
    outgoing := [.busy ⟨7⟩, .result ⟨7⟩ .null, .idle] }

/-- a pool of one worker, which is done with the first task; of the other two the later one is more
urgent -/
def crowded : Workshop :=
  let later := oneHanded.deliver calmMoment 0
    (.call 2 (.submit ⟨8⟩ .cacheCleanup .null { priority := some .low }))
  let urgent := later.deliver calmMoment 0
    (.call 3 (.submit ⟨9⟩ .cacheCleanup .null { priority := some .critical }))
  let ended := (urgent.setBench 1 working).setBench 1 relieved
  let begun := (ended.setBench 1 (relieved.pop [.result ⟨7⟩ .null, .idle])).deliver calmMoment 0
    (.report 1 (.busy ⟨7⟩))
  (begun.setBench 1 (relieved.pop [.idle])).deliver calmMoment 0 (.report 1 (.result ⟨7⟩ .null))

/-- the three tasks as they came -/
def threeCame : List Ticket :=
  [⟨⟨7⟩, .normal, .cacheCleanup⟩, ⟨⟨8⟩, .low, .cacheCleanup⟩, ⟨⟨9⟩, .critical, .cacheCleanup⟩]

theorem lined_crowded : Lined Chronicle.single crowded threeCame := by
  have hopened := Lined.new.hear calmMoment 0 (.call 0 .start)
    (admits_calmMoment (new Chronicle.single)) (.call 0 .start trivial)
  have hannounced := hopened.pass
    (.turn 1 (.new 1 0) announced rfl (.step 0 0 (announced.worker, [.ready]) rfl))
  have hstaffed := hannounced.hear calmMoment 0 (.report 1 .ready) (admits_calmMoment _)
    (.report 1 announced .ready [] rfl rfl)
  have hhanded := hstaffed.hear calmMoment 0 (.call 1 (.submit ⟨7⟩ .cacheCleanup .null {}))
    (admits_calmMoment _) (.call 1 _ List.not_mem_nil)
  have hlater := hhanded.hear calmMoment 0
    (.call 2 (.submit ⟨8⟩ .cacheCleanup .null { priority := some .low })) (admits_calmMoment _)
    (.call 2 _ (show (⟨8⟩ : TaskId) ∉ accepted _ by decide))
  have hurgent := hlater.hear calmMoment 0
    (.call 3 (.submit ⟨9⟩ .cacheCleanup .null { priority := some .critical }))
    (admits_calmMoment _) (.call 3 _ (show (⟨9⟩ : TaskId) ∉ accepted _ by decide))
  have hworking := hurgent.pass
    (.turn 1 ((announced.pop []).tell (.task ⟨7⟩ .cacheCleanup .null)) working rfl
      (.step 0 0 (working.worker, [.busy ⟨7⟩]) rfl))
  have hended := hworking.pass (.turn 1 working relieved rfl (.finish 0 (.value .null)))
  have hbegun := hended.hear calmMoment 0 (.report 1 (.busy ⟨7⟩)) (admits_calmMoment _)
    (.report 1 relieved (.busy ⟨7⟩) [.result ⟨7⟩ .null, .idle] rfl rfl)
  exact hbegun.hear calmMoment 0 (.report 1 (.result ⟨7⟩ .null)) (admits_calmMoment _)
    (.report 1 (relieved.pop [.result ⟨7⟩ .null, .idle]) (.result ⟨7⟩ .null) [.idle] rfl rfl)

/-- when the worker says that it is idle, the urgent task is handed out, which is ahead of the one
that came sooner -/
theorem in_order_crowded :
    Lined Chronicle.single crowded threeCame ∧ crowded.pool.Impartial 1 ∧
      crowded.pool.queue.tasks = [⟨9⟩, ⟨8⟩] ∧
      ∃ y ∈ crowded.pool.queue.waiting, y.task = ⟨9⟩ ∧
        ∀ x ∈ crowded.pool.queue.waiting, x ≠ y → Ahead threeCame y x := by
  have himpartial : crowded.pool.Impartial 1 := by
    refine .inr fun e kinds he ha => ?_
    cases he
    cases ha
  have ho : ((crowded.setBench 1 (relieved.pop [])).pool.handle calmMoment
      (.report 1 .idle)).outbox = [] ++ .tell 1 (.task ⟨9⟩ .cacheCleanup .null) :: [] := rfl
  obtain ⟨_, y, hy, hid, _, hahead⟩ := lined_crowded.in_order (admits_calmMoment _)
    (.report 1 (relieved.pop [.idle]) .idle [] rfl rfl) ho
  exact ⟨lined_crowded, himpartial, rfl, y, hy, hid,
    fun x hx => (hahead x hx (.inl himpartial)).2⟩

end Workshop

end TaskPool
