import TaskPool.Dashboard.Board
import TaskPool.Proofs.Backpressure
import TaskPool.Proofs.Custody

/-!
# The queue as the dashboard shows it

The dashboard knows of the queue what the snapshots of the tasks say.  They do not say when a task
came into the queue, so it lists tasks of one priority by the time of their creation.

* `Queue.Drains`          the tickets of a queue as they leave it one after the other
* `Precedes`              the one task came into the queue for the last time before the other did
* `Lined.tickets`         a ticket that came into the queue is the ticket of its task for good
* `Lined.precedes`        a task that nobody was told to run precedes all that were accepted later
* `Workshop.Lists`        what is listed, and when it is listed in the order of the queue
* `Lined.lists`           that is so whenever no order and no news is on its way

Why tasks that are tried again are listed too early: their tickets go behind all others of their
priority, but they are as old as they were.
-/

namespace TaskPool

/-! ## emptying a queue -/

/-- tickets leave the queue one after the other, for workers that prefer nothing, until it is
empty -/
inductive Queue.Drains : Queue → List Ticket → Prop
  | done (q : Queue) (h : q.popFor none = none) : Drains q []
  | next (q rest : Queue) (t : Ticket) (ts : List Ticket) (h : q.popFor none = some (t, rest))
      (hr : Drains rest ts) : Drains q (t :: ts)

namespace Queue

theorem takeFirst_of_none (xs : List Ticket) : takeFirst (prefers none) xs = none := by
  induction xs with
  | nil => rfl
  | cons x xs ih =>
    rw [takeFirst, if_neg (by simp [prefers]), ih]
    rfl

theorem popFor_none_nil : popFor ⟨[]⟩ none = none := rfl

theorem popFor_none_cons (t : Ticket) (ts : List Ticket) :
    popFor ⟨t :: ts⟩ none = some (t, ⟨ts⟩) := by
  rw [popFor, takeFirst_of_none]

theorem drains_waiting (q : Queue) : q.Drains q.waiting := by
  obtain ⟨ts⟩ := q
  induction ts with
  | nil => exact .done _ popFor_none_nil
  | cons t ts ih => exact .next _ _ t ts (popFor_none_cons t ts) ih

/-- a queue is emptied from its front -/
theorem drains_iff {q : Queue} {ts : List Ticket} : q.Drains ts ↔ ts = q.waiting := by
  constructor
  · intro h
    induction h with
    | done q h =>
      obtain ⟨xs⟩ := q
      cases xs with
      | nil => rfl
      | cons x xs => cases (popFor_none_cons x xs).symm.trans h
    | next q rest t ts h _ ih =>
      obtain ⟨xs⟩ := q
      cases xs with
      | nil => cases h
      | cons x xs =>
        cases (popFor_none_cons x xs).symm.trans h
        exact congrArg (t :: ·) ih
  · intro h
    rw [h]
    exact q.drains_waiting

end Queue

/-! ## who came before whom -/

/-- after the last time of `i`, `j` came once more -/
def Precedes (line : List Ticket) (i j : TaskId) : Prop :=
  ∃ later, later <:+ line ∧ (∃ y ∈ later, y.task = j) ∧ ∀ x ∈ later, x.task ≠ i

section
variable {line ts : List Ticket} {i j : TaskId}

theorem Precedes.append (h : Precedes line i j) (hi : ∀ x ∈ ts, x.task ≠ i) :
    Precedes (line ++ ts) i j := by
  obtain ⟨later, ⟨before, rfl⟩, ⟨y, hy, hyj⟩, hout⟩ := h
  refine ⟨later ++ ts, ⟨before, (List.append_assoc ..).symm⟩,
    ⟨y, List.mem_append_left ts hy, hyj⟩, fun x hx => ?_⟩
  rcases List.mem_append.mp hx with hx | hx
  · exact hout x hx
  · exact hi x hx

/-- all that has come precedes what comes next -/
theorem Precedes.last {t : Ticket} (hi : t.task ≠ i) : Precedes (line ++ [t]) i t.task := by
  refine ⟨[t], List.suffix_append line [t], ⟨t, List.mem_singleton_self t, rfl⟩, fun x hx => ?_⟩
  rw [List.mem_singleton.mp hx]
  exact hi

/-- in terms of the tickets, where a task has but one -/
theorem Precedes.sooner {x y : Ticket} (h : Precedes line x.task y.task)
    (hy : ∀ z ∈ line, z.task = y.task → z = y) : Sooner line x y := by
  obtain ⟨later, hsuffix, ⟨z, hz, hzy⟩, hout⟩ := h
  refine ⟨later, hsuffix, ?_, fun hx => hout x hx rfl⟩
  rw [← hy z (hsuffix.subset hz) hzy]
  exact hz

end

def TaskSnapshot.ticket (t : TaskSnapshot) : Ticket := ⟨t.id, t.priority, t.kind⟩

namespace Workshop

variable {c : Config} {W V : Workshop} {line : List Ticket} {m : Moment} {msg : Message}

/-! ## the tickets of a run -/

/-- a ticket comes with the acceptance of its task, or for a task that is tried again -/
inductive Enters (W : Workshop) (msg : Message) (x : Ticket) : Prop
  | first (caller : CallId) (id : TaskId) (kind : Kind) (payload : Json) (options : Options)
      (hmsg : msg = .call caller (.submit id kind payload options))
      (hr : W.pool.refusal? = none)
      (hx : x = ⟨id, (Pool.terms W.pool.config kind payload options).priority, kind⟩)
  | again (t : Task) (ht : W.pool.ledger.find? t.id = some t) (hs : t.status = .retrying)
      (hx : x = t.ticket)

theorem enters_of_mem {x : Ticket} (hx : x ∈ W.pool.entrants msg) : W.Enters msg x := by
  cases msg with
  | report => cases hx
  | call caller r =>
    cases r with
    | submit id kind payload options =>
      cases hr : W.pool.refusal? with
      | none =>
        refine .first caller id kind payload options rfl hr ?_
        simpa [Pool.entrants, hr] using hx
      | some why => simp [Pool.entrants, hr] at hx
    | _ => cases hx
  | ring alarm =>
    cases alarm with
    | retryDue id =>
      have hmem : x ∈ if W.pool.running then
          ((W.pool.ledger.resetForRetry id).map Prod.fst).toList else [] := hx
      split at hmem
      · cases h : W.pool.ledger.resetForRetry id with
        | none =>
          rw [h] at hmem
          cases hmem
        | some r =>
          rw [h] at hmem
          obtain ⟨t, ht, hs, hticket, _⟩ := Ledger.resetForRetry_eq_some h
          obtain rfl : t.id = id := Ledger.id_of_find? ht
          exact .again t ht hs ((List.mem_singleton.mp hmem).trans hticket)
      · cases hmem
    | _ => cases hx

/-- the record of a task has this ticket -/
def Ticketed (x : Ticket) : List WorkerId → List Outcome → Option Task → Prop :=
  fun _ _ o => ∀ t, o = some t → t.ticket = x

/-- however a task goes on, it keeps its ticket -/
theorem lasting_ticketed (id : TaskId) (x : Ticket) : Pool.Lasting id (Ticketed x) := by
  intro heard l l' ws os us vs h hc t' ht'
  cases hc with
  | apart hl => exact h t' (hl ▸ ht')
  | closed _ _ _ hl | exhausted _ _ _ _ _ _ _ _ hl =>
    rw [hl] at ht'
    cases ht'
  | handed t w ht _ _ hl | begun t w _ _ ht _ _ _ hl | retried t w _ _ _ ht _ _ _ hl
  | reset t ht _ hl =>
    cases hl.symm.trans ht'
    exact h t ht

/-- a ticket that came into the queue is the ticket of its task, for as long as there is a record
of it -/
theorem Lined.tickets (h : Lined c W line) {x : Ticket} (hx : x ∈ line) :
    x.task ∈ accepted W.history ∧ Holds x.task (Ticketed x) W := by
  induction h with
  | new => cases hx
  | @hear W V line h m now msg hm ht ih =>
    have hr := h.reachable
    have hin := hr.inStep
    have hstep := ht.step hm now
    have hkeep (hold : x.task ∈ accepted W.history) (hholds : Holds x.task (Ticketed x) W) :=
      And.intro (hin.accepted_subset hstep hold)
        (hholds.step (lasting_ticketed x.task x) hin hold hstep)
    rcases List.mem_append.mp hx with hx | hx
    · obtain ⟨hold, hholds⟩ := ih hx
      exact hkeep hold hholds
    · cases enters_of_mem hx with
      | first caller id kind payload options hmsg hrefused hticket =>
        subst hmsg hticket
        have haccepted : accepted
            (V.deliver m now (.call caller (.submit id kind payload options))).history
              = accepted W.history
                ++ accepted (W.pool.receipt (.call caller (.submit id kind payload options))) :=
          hin.accepted_deliver ht.pool.1 ht.pool.2.2.1
        rw [Pool.accepted_receipt hrefused caller id kind payload options] at haccepted
        refine ⟨?_, ?_⟩
        · rw [haccepted]
          exact List.mem_append_right _ (List.mem_singleton_self id)
        · cases ht with
          | call _ _ hd =>
            refine hr.holds_accept (lasting_ticketed id _) hm hd hrefused now caller kind payload
              options fun t ht => ?_
            cases ht
            rfl
      | again t ht hs hticket =>
        subst hticket
        refine hkeep (hin.tuned.harmony.listed t.id _ (Ledger.sight_of_find? ht)).1 fun u hu => ?_
        cases ht.symm.trans hu
        rfl
  | pass _ hp ih =>
    cases hp with
    | ring | turn | letGo => exact ih hx

/-! ## who comes first -/

/-- what comes into the queue is no task in flight that nobody was told to run -/
theorem Lined.entrant_ne (h : Lined c W line) (ht : W.Takes msg V) {i : TaskId}
    (hi : i ∈ W.pool.ledger.ids) (htold : told i W.history = []) {x : Ticket}
    (hx : x ∈ W.pool.entrants msg) : x.task ≠ i := by
  have hr := h.reachable
  rintro rfl
  cases enters_of_mem hx with
  | first caller id kind payload options hmsg hrefused hticket =>
    subst hmsg hticket
    cases ht with
    | call _ _ hd =>
      have hnew : W.pool.ledger.find? id = none := hr.inStep.find?_eq_none hd
      exact Ledger.find?_eq_none.mp hnew hi
  | again t ht hs hticket =>
    subst hticket
    exact hr.told_of_retrying ht hs htold

/-- the tasks in flight after a message are some of those before it, in their order, and then the one
that it has accepted -/
theorem handle_ids {p : Pool} (hs : p.roster.Sound) (msg : Message) :
    (p.handle m msg).ledger.ids.Sublist (p.ledger.ids ++ accepted (p.receipt msg)) := by
  obtain ⟨p1, p2, hi, hm, _, h⟩ := Pool.handle_splits (m := m) hs msg
  have hlater : (p.handle m msg).ledger.ids.Sublist p1.ledger.ids := by
    rw [h]
    exact hm.conserves.sublist
  by_cases hr : p.receipt msg = []
  · rw [hr]
    exact (hlater.trans (hi.conserves hr).sublist).trans (List.sublist_append_left ..)
  · cases hi with
    | accept caller id kind payload options hf =>
      have hids (t : Task) (ht : t.id = id) :
          (p.ledger.insert t).ids = p.ledger.ids ++ [id] := by
        rw [Ledger.ids_insert, ht]
      rw [Pool.accepted_receipt hf,
        ← hids (.new id (Pool.terms p.config kind payload options) m.now) rfl]
      exact hlater
    | none _ hu => exact absurd (Pool.receipt_of_unmoved hu) hr
    | _ => exact absurd rfl hr

/-- of two tasks in flight after a message both were in flight before it, or the message has accepted
the later one -/
theorem pair_handled {p : Pool} (hs : p.roster.Sound) {i j : TaskId}
    (hij : [i, j].Sublist (p.handle m msg).ledger.ids) :
    [i, j].Sublist p.ledger.ids ∨ (i ∈ p.ledger.ids ∧ j ∈ accepted (p.receipt msg)) := by
  obtain ⟨before, after, hpair, hbefore, hafter⟩ :=
    List.sublist_append_iff.mp (hij.trans (handle_ids hs msg))
  have hone : (accepted (p.receipt msg)).length ≤ 1 := by
    cases hr : accepted (p.receipt msg) with
    | nil => exact Nat.zero_le 1
    | cons id ids =>
      have hid : id ∈ accepted (p.receipt msg) := by
        rw [hr]
        exact List.mem_cons_self ..
      obtain ⟨hf, caller, kind, payload, options, rfl⟩ := mem_accepted_receipt hid
      rw [Pool.accepted_receipt hf] at hr
      cases hr
      exact Nat.le_refl 1
  have hle := hafter.length_le
  match before, hpair with
  | [], hpair =>
    rw [← show [i, j] = after from hpair, List.length_cons, List.length_singleton] at hle
    omega
  | [b], hpair =>
    obtain ⟨rfl, hafter'⟩ := List.cons.inj hpair
    rw [← show [j] = after from hafter'] at hafter
    exact .inr ⟨hbefore.subset (List.mem_singleton_self _),
      hafter.subset (List.mem_singleton_self j)⟩
  | b :: d :: before, hpair =>
    obtain ⟨rfl, hrest⟩ := List.cons.inj hpair
    obtain ⟨rfl, hnil⟩ := List.cons.inj hrest
    obtain ⟨rfl, rfl⟩ := List.append_eq_nil_iff.mp hnil.symm
    exact .inl hbefore

/-- a task that nobody was told to run precedes all that were accepted later -/
theorem Lined.precedes (h : Lined c W line) {i j : TaskId}
    (hij : [i, j].Sublist W.pool.ledger.ids) (htold : told i W.history = []) :
    Precedes line i j := by
  induction h with
  | new => cases hij
  | @hear W V line h m now msg hm ht ih =>
    have hin := h.reachable.inStep
    have hhist : (V.deliver m now msg).history = W.history ++ (V.pool.handle m msg).outbox := by
      show V.history ++ _ = _
      rw [ht.pool.2.2.1]
    rw [hhist, told_append, List.append_eq_nil_iff] at htold
    have hij' : [i, j].Sublist (V.pool.handle m msg).ledger.ids := hij
    rw [ht.pool.1] at hij'
    rcases pair_handled hin.tuned.sound hij' with hold | ⟨hi, hj⟩
    · have hi : i ∈ W.pool.ledger.ids := hold.subset (List.mem_cons_self ..)
      exact (ih hold htold.1).append fun x hx => h.entrant_ne ht hi htold.1 hx
    · obtain ⟨hf, caller, kind, payload, options, rfl⟩ := mem_accepted_receipt hj
      have hentrants : W.pool.entrants (.call caller (.submit j kind payload options))
          = [⟨j, (Pool.terms W.pool.config kind payload options).priority, kind⟩] := by
        simp [Pool.entrants, hf]
      rw [hentrants]
      refine .last (t := ⟨j, _, kind⟩) (h.entrant_ne ht hi htold.1 ?_)
      rw [hentrants]
      exact List.mem_singleton_self _
  | pass _ hp ih =>
    cases hp with
    | ring | turn | letGo => exact ih hij htold

/-! ## what is listed -/

/-- no order is on its way to a worker, and no news of one to the pool -/
def Settled (W : Workshop) : Prop :=
  ∀ w b, W.bench w = some b → b.orders = [] ∧ b.news = []

/-- where nothing is on its way, a task that is queued waits in the queue -/
theorem Reachable.worker_of_settled (h : Reachable c W) (hs : W.Settled) {t : Task}
    (ht : t ∈ W.pool.ledger.tasks) (hq : t.status = .queued) : t.worker = none := by
  have hf := Ledger.find?_of_mem h.orderly.distinct ht
  have hlisted := (h.inStep.tuned.harmony.listed t.id _ (Ledger.sight_of_find? hf)).2
  rw [hq] at hlisted
  cases hw : t.worker with
  | none => rfl
  | some w =>
    rw [hw] at hlisted
    cases hlisted with
    | handed w b _ hb hpending =>
      obtain ⟨horders, hnews⟩ := hs w b hb
      rcases hpending with hhanded | hunacked
      · obtain ⟨kind, payload, ho⟩ := hhanded.orders
        rw [horders] at ho
        cases ho
      · obtain ⟨es, hn, _⟩ := hunacked.rest
        rw [hnews] at hn
        cases hn

theorem Reachable.mem_waiting_iff (h : Reachable c W) (hs : W.Settled) (x : Ticket) :
    x ∈ W.pool.queue.waiting ↔
      ∃ t ∈ W.pool.ledger.tasks, t.status = .queued ∧ t.ticket = x := by
  have hharmony := h.inStep.tuned.harmony
  constructor
  · intro hx
    have hsight : W.pool.ledger.sight x.task = some (.queued, none) :=
      (hharmony.waits x.task).mp (List.mem_map_of_mem hx)
    obtain ⟨t, hf, hq, _⟩ := Ledger.find?_of_sight hsight
    have ht := Ledger.mem_of_find? hf
    exact ⟨t, ht, hq, (h.orderly.ticket x hx t ht (Ledger.id_of_find? hf).symm).symm⟩
  · rintro ⟨t, ht, hq, rfl⟩
    have hf := Ledger.find?_of_mem h.orderly.distinct ht
    have hsight : W.pool.ledger.sight t.id = some (.queued, none) := by
      rw [Ledger.sight_of_find? hf, hq, h.worker_of_settled hs ht hq]
    obtain ⟨x, hx, hid⟩ := List.mem_map.mp ((hharmony.waits t.id).mpr hsight)
    rw [← h.orderly.ticket x hx t ht hid]
    exact hx

end Workshop

/-! ## the order of the list -/

namespace Board

/-- `s` stands before `t`: it is more urgent, or as urgent and older -/
def Before (s t : TaskSnapshot) : Prop :=
  t.priority.rank < s.priority.rank ∨
    (s.priority.rank = t.priority.rank ∧ s.created.lt t.created = true)

theorem goesFirst_iff {s t : TaskSnapshot} :
    goesFirst s t = true ↔ t.priority.rank < s.priority.rank ∨
      (s.priority.rank = t.priority.rank ∧ ¬ t.created.lt s.created = true) := by
  simp [goesFirst, Timestamp.le_iff]

theorem goesFirst_trans (r s t : TaskSnapshot) (h1 : goesFirst r s = true)
    (h2 : goesFirst s t = true) : goesFirst r t = true := by
  rw [goesFirst_iff, Timestamp.lt_iff] at *
  omega

theorem goesFirst_total (s t : TaskSnapshot) : (goesFirst s t || goesFirst t s) = true := by
  rw [Bool.or_eq_true, goesFirst_iff, goesFirst_iff, Timestamp.lt_iff, Timestamp.lt_iff]
  omega

/-- the queued tasks stand in order, if no two of them are of the same age -/
theorem queued_sorted {b : Board} (hd : b.queued.Pairwise fun s t => s.created ≠ t.created) :
    b.queued.Pairwise Before := by
  have hsorted : b.queued.Pairwise fun s t => goesFirst s t = true :=
    List.pairwise_mergeSort goesFirst_trans goesFirst_total _
  refine (hsorted.and hd).imp fun {s t} h => ?_
  obtain ⟨hfirst, hne⟩ := h
  rcases goesFirst_iff.mp hfirst with hrank | ⟨hrank, hage⟩
  · exact .inl hrank
  · exact .inr ⟨hrank, Timestamp.lt_of_le_of_ne (Timestamp.le_iff.mpr hage) hne⟩

end Board

/-- two members of a list stand in it in one order or the other -/
theorem pair_sublist {α : Type} {x y : α} {xs : List α} (hx : x ∈ xs) (hy : y ∈ xs) (hne : x ≠ y) :
    [x, y].Sublist xs ∨ [y, x].Sublist xs := by
  induction xs with
  | nil => cases hx
  | cons z xs ih =>
    rcases List.mem_cons.mp hx with rfl | hx'
    · have hy' := (List.mem_cons.mp hy).resolve_left hne.symm
      exact .inl ((List.singleton_sublist.mpr hy').cons_cons x)
    · rcases List.mem_cons.mp hy with rfl | hy'
      · exact .inr ((List.singleton_sublist.mpr hx').cons_cons y)
      · exact (ih hx' hy').imp (·.cons z) (·.cons z)

namespace Workshop

variable {c : Config} {W : Workshop} {line : List Ticket} {b : Board}

/-- the dashboard lists the records of the tasks that are queued -/
theorem queued_perm (hb : b.snapshot.tasks = W.pool.ledger.snapshots) :
    b.queued.Perm ((W.pool.ledger.tasks.filter fun t => t.status == .queued).map Task.snapshot) := by
  have hsnapshots : W.pool.ledger.snapshots.Perm (W.pool.ledger.tasks.map Task.snapshot) :=
    List.mergeSort_perm _ _
  refine (List.mergeSort_perm _ _).trans ?_
  rw [hb]
  refine (hsnapshots.filter _).trans ?_
  rw [List.filter_map]
  rfl

theorem mem_queued_iff (hb : b.snapshot.tasks = W.pool.ledger.snapshots) {s : TaskSnapshot} :
    s ∈ b.queued ↔ ∃ t ∈ W.pool.ledger.tasks, t.status = .queued ∧ t.snapshot = s := by
  rw [(queued_perm hb).mem_iff, List.mem_map]
  simp [and_assoc]

/-- how the list of a dashboard and the queue compare -/
structure Lists (W : Workshop) (line : List Ticket) (b : Board) : Prop where
  /-- the tasks that wait are listed, and no others, -/
  same : (b.queued.map TaskSnapshot.ticket).Perm W.pool.queue.waiting
  /-- the more urgent ones first, and those that are as urgent by their age -/
  sorted : b.queued.Pairwise Board.Before
  /-- this is the order in which they leave the queue if and only if of two that are as urgent the
  older one came sooner, too, when each came for the last time -/
  drains_iff : W.pool.queue.Drains (b.queued.map TaskSnapshot.ticket) ↔
    ∀ s ∈ b.queued, ∀ t ∈ b.queued, s.priority.rank = t.priority.rank →
      s.created.lt t.created = true → Sooner line s.ticket t.ticket
  /-- in particular if none of them is tried again, and tasks in flight are the older the sooner they
  were accepted -/
  untried : (∀ s ∈ b.queued, s.retries = 0) →
    W.pool.ledger.tasks.Pairwise (fun s t => s.created.lt t.created = true) →
      W.pool.queue.Drains (b.queued.map TaskSnapshot.ticket)

theorem Reachable.queued_same (h : Reachable c W) (hs : W.Settled)
    (hb : b.snapshot.tasks = W.pool.ledger.snapshots) :
    (b.queued.map TaskSnapshot.ticket).Perm W.pool.queue.waiting := by
  have hlisted := (queued_perm hb).map TaskSnapshot.ticket
  have hids : ((b.queued.map TaskSnapshot.ticket).map Ticket.task).Nodup := by
    rw [(hlisted.map Ticket.task).nodup_iff, List.map_map, List.map_map]
    exact h.orderly.distinct.sublist (List.filter_sublist.map Task.id)
  refine (List.perm_ext_iff_of_nodup (.of_map _ hids)
    (.of_map _ h.inStep.tuned.harmony.nodup)).mpr fun x => ?_
  rw [h.mem_waiting_iff hs, List.mem_map]
  constructor
  · rintro ⟨s, hq, rfl⟩
    obtain ⟨t, ht, hst, rfl⟩ := (mem_queued_iff hb).mp hq
    exact ⟨t, ht, hst, rfl⟩
  · rintro ⟨t, ht, hst, rfl⟩
    exact ⟨t.snapshot, (mem_queued_iff hb).mpr ⟨t, ht, hst, rfl⟩, rfl⟩

/-- the list is in the order of the queue where age and order of arrival agree -/
theorem Lined.drains_queued_iff (h : Lined c W line)
    (hsame : (b.queued.map TaskSnapshot.ticket).Perm W.pool.queue.waiting)
    (hsorted : b.queued.Pairwise Board.Before) :
    W.pool.queue.Drains (b.queued.map TaskSnapshot.ticket) ↔
      ∀ s ∈ b.queued, ∀ t ∈ b.queued, s.priority.rank = t.priority.rank →
        s.created.lt t.created = true → Sooner line s.ticket t.ticket := by
  have hranked := h.ranked.1
  rw [Queue.drains_iff]
  constructor
  · intro heq s hs t ht hrank hage
    rw [← heq, List.pairwise_map] at hranked
    have hne : s ≠ t := by
      rintro rfl
      exact Timestamp.lt_asymm hage hage
    rcases pair_sublist hs ht hne with hst | hts
    · rcases List.pairwise_iff_forall_sublist.mp hranked hst with hlt | ⟨_, hsooner⟩
      · have hlt : t.priority.rank < s.priority.rank := hlt
        omega
      · exact hsooner
    · rcases List.pairwise_iff_forall_sublist.mp hsorted hts with hlt | ⟨_, holder⟩
      · omega
      · exact absurd holder (Timestamp.lt_asymm hage)
  · intro hall
    have hahead : (b.queued.map TaskSnapshot.ticket).Pairwise (Ahead line) := by
      rw [List.pairwise_map, List.pairwise_iff_forall_sublist]
      intro s t hst
      have hs : s ∈ b.queued := hst.subset (List.mem_cons_self ..)
      have ht : t ∈ b.queued := hst.subset (List.mem_cons_of_mem s (List.mem_cons_self ..))
      rcases List.pairwise_iff_forall_sublist.mp hsorted hst with hlt | ⟨hrank, hage⟩
      · exact .inl hlt
      · exact .inr ⟨hrank, hall s hs t ht hrank hage⟩
    exact List.Perm.eq_of_pairwise (fun x y _ _ hxy hyx => absurd hyx hxy.asymm) hahead hranked
      hsame

/-- a task that waits and was not tried yet came sooner than those that were accepted later -/
theorem Lined.sooner_of_untried (h : Lined c W line) (hs : W.Settled) {t u : Task}
    (ht : t ∈ W.pool.ledger.tasks) (hu : u ∈ W.pool.ledger.tasks) (hq : t.status = .queued)
    (hr : t.retries = 0) (htu : [t, u].Sublist W.pool.ledger.tasks) :
    Sooner line t.ticket u.ticket := by
  have hreach := h.reachable
  have hfind := Ledger.find?_of_mem hreach.orderly.distinct ht
  have htold : told t.id W.history = [] := by
    have hlen := (hreach.numbered hfind).away (.inr (hreach.worker_of_settled hs ht hq))
    rw [hr] at hlen
    exact List.length_eq_zero_iff.mp hlen
  have hprecedes : Precedes line t.id u.id := h.precedes (htu.map Task.id) htold
  refine Precedes.sooner (x := t.ticket) (y := u.ticket) hprecedes fun z hz hzu => ?_
  have hfind' : W.pool.ledger.find? z.task = some u := by
    rw [show z.task = u.id from hzu]
    exact Ledger.find?_of_mem hreach.orderly.distinct hu
  exact ((h.tickets hz).2 u hfind').symm

/-- **the dashboard lists the tasks that wait**, by urgency and age; they leave the queue in this
order unless one of them is tried again while a younger one that is as urgent has waited since -/
theorem Lined.lists (h : Lined c W line) (hs : W.Settled)
    (hd : W.pool.ledger.tasks.Pairwise fun s t => s.created ≠ t.created)
    (hb : b.snapshot.tasks = W.pool.ledger.snapshots) : W.Lists line b := by
  have hsame := h.reachable.queued_same hs hb
  have hsorted : b.queued.Pairwise Board.Before := by
    refine Board.queued_sorted (((queued_perm hb).pairwise_iff fun hne => hne.symm).mpr ?_)
    rw [List.pairwise_map]
    exact hd.sublist List.filter_sublist
  have hiff := h.drains_queued_iff hsame hsorted
  refine ⟨hsame, hsorted, hiff, fun hfresh hages => hiff.mpr fun s hq t hq' _ hage => ?_⟩
  obtain ⟨x, hx, hst, rfl⟩ := (mem_queued_iff hb).mp hq
  obtain ⟨y, hy, _, rfl⟩ := (mem_queued_iff hb).mp hq'
  have hne : x ≠ y := by
    rintro rfl
    exact Timestamp.lt_asymm hage hage
  rcases pair_sublist hx hy hne with hxy | hyx
  · exact h.sooner_of_untried hs hx hy hst (hfresh _ hq) hxy
  · have holder := List.pairwise_iff_forall_sublist.mp hages hyx
    exact absurd holder (Timestamp.lt_asymm hage)

/-! ## a task that is tried again -/

/-- a moment like every other, so many seconds later -/
def calmAt (seconds : Int) : Moment := { calmMoment with now := ⟨seconds, 0⟩ }

theorem admits_calmAt (W : Workshop) (seconds : Int) : W.Admits (calmAt seconds) := by
  refine ⟨fun _ => rfl, fun w hw => ?_⟩
  cases hw

/-- the worker whose first task has failed, with the next one -/
def resumed : Bench :=
  { soured.pop [] with
    worker := (((soured.pop []).tell (.task ⟨8⟩ .cacheCleanup .null)).worker.step 0 0).get rfl |>.1
    outgoing := [.busy ⟨8⟩] }

/-- a pool of one worker: the first task has failed, the second one runs, the third one waits, and
the first one waits again -/
def revisited : Workshop :=
  let opened := (new Chronicle.single).deliver calmMoment 0 (.call 0 .start)
  let staffed := ((opened.setBench 1 announced).setBench 1 (announced.pop [])).deliver calmMoment 0
    (.report 1 .ready)
  let handed := staffed.deliver (calmAt 1) 0 (.call 1 (.submit ⟨7⟩ .cacheCleanup .null {}))
  let failed := (handed.setBench 1 working).setBench 1 soured
  let begun := (failed.setBench 1 (soured.pop [.error ⟨7⟩ "out of disk", .idle])).deliver
    (calmAt 1) 0 (.report 1 (.busy ⟨7⟩))
  let retrying := (begun.setBench 1 (soured.pop [.idle])).deliver (calmAt 1) 0
    (.report 1 (.error ⟨7⟩ "out of disk"))
  let relieved := (retrying.setBench 1 (soured.pop [])).deliver (calmAt 1) 0 (.report 1 .idle)
  let second := relieved.deliver (calmAt 2) 0 (.call 2 (.submit ⟨8⟩ .cacheCleanup .null {}))
  let running := ((second.setBench 1 resumed).setBench 1 (resumed.pop [])).deliver (calmAt 2) 0
    (.report 1 (.busy ⟨8⟩))
  let third := running.deliver (calmAt 3) 0 (.call 3 (.submit ⟨9⟩ .cacheCleanup .null {}))
  { third with timers := third.timers.drop 1 }.deliver (calmAt 4) 0 (.ring (.retryDue ⟨7⟩))

def fourCame : List Ticket :=
  [⟨⟨7⟩, .normal, .cacheCleanup⟩, ⟨⟨8⟩, .normal, .cacheCleanup⟩, ⟨⟨9⟩, .normal, .cacheCleanup⟩,
    ⟨⟨7⟩, .normal, .cacheCleanup⟩]

theorem lined_revisited : Lined Chronicle.single revisited fourCame := by
  have hopened := Lined.new.hear calmMoment 0 (.call 0 .start)
    (admits_calmMoment (new Chronicle.single)) (.call 0 .start trivial)
  have hannounced := hopened.pass
    (.turn 1 (.new 1 0) announced rfl (.step 0 0 (announced.worker, [.ready]) rfl))
  have hstaffed := hannounced.hear calmMoment 0 (.report 1 .ready) (admits_calmMoment _)
    (.report 1 announced .ready [] rfl rfl)
  have hhanded := hstaffed.hear (calmAt 1) 0 (.call 1 (.submit ⟨7⟩ .cacheCleanup .null {}))
    (admits_calmAt _ 1) (.call 1 _ List.not_mem_nil)
  have hworking := hhanded.pass
    (.turn 1 ((announced.pop []).tell (.task ⟨7⟩ .cacheCleanup .null)) working rfl
      (.step 0 0 (working.worker, [.busy ⟨7⟩]) rfl))
  have hsoured := hworking.pass
    (.turn 1 working soured rfl (.finish 0 (.error ["out of disk"])))
  have hbegun := hsoured.hear (calmAt 1) 0 (.report 1 (.busy ⟨7⟩)) (admits_calmAt _ 1)
    (.report 1 soured (.busy ⟨7⟩) [.error ⟨7⟩ "out of disk", .idle] rfl rfl)
  have hretrying := hbegun.hear (calmAt 1) 0 (.report 1 (.error ⟨7⟩ "out of disk"))
    (admits_calmAt _ 1)
    (.report 1 (soured.pop [.error ⟨7⟩ "out of disk", .idle]) (.error ⟨7⟩ "out of disk") [.idle]
      rfl rfl)
  have hrelieved := hretrying.hear (calmAt 1) 0 (.report 1 .idle) (admits_calmAt _ 1)
    (.report 1 (soured.pop [.idle]) .idle [] rfl rfl)
  have hsecond := hrelieved.hear (calmAt 2) 0 (.call 2 (.submit ⟨8⟩ .cacheCleanup .null {}))
    (admits_calmAt _ 2) (.call 2 _ (show (⟨8⟩ : TaskId) ∉ accepted _ by decide))
  have hresumed := hsecond.pass
    (.turn 1 ((soured.pop []).tell (.task ⟨8⟩ .cacheCleanup .null)) resumed rfl
      (.step 0 0 (resumed.worker, [.busy ⟨8⟩]) rfl))
  have hrunning := hresumed.hear (calmAt 2) 0 (.report 1 (.busy ⟨8⟩)) (admits_calmAt _ 2)
    (.report 1 resumed (.busy ⟨8⟩) [] rfl rfl)
  have hthird := hrunning.hear (calmAt 3) 0 (.call 3 (.submit ⟨9⟩ .cacheCleanup .null {}))
    (admits_calmAt _ 3) (.call 3 _ (show (⟨9⟩ : TaskId) ∉ accepted _ by decide))
  have hrung := hthird.pass (.ring ⟨1, .retryDue ⟨7⟩, false⟩ (List.mem_cons_self ..))
  exact hrung.hear (calmAt 4) 0 (.ring (.retryDue ⟨7⟩)) (admits_calmAt _ 4)
    (.alarm (.retryDue ⟨7⟩) (List.mem_singleton_self _))

theorem settled_revisited : revisited.Settled := by
  intro w b hb
  match w with
  | 0 => cases hb
  | 1 =>
    cases hb
    exact ⟨rfl, rfl⟩
  | w + 2 =>
    -- there are two worker numbers, and no bench beyond them
    have hnone : revisited.bench (w + 2) = none :=
      (lined_revisited.reachable.inStep.tuned.harmony.fresh (w + 2) (Nat.le_add_left 2 w)).2
    rw [hnone] at hb
    cases hb

/-- a dashboard that has just got the snapshots of this pool -/
def shown : Board :=
  Board.new.apply (.ok ⟨[], revisited.pool.ledger.snapshots, revisited.pool.stats⟩)

theorem distinct_revisited :
    revisited.pool.ledger.tasks.Pairwise fun s t => s.created ≠ t.created := by
  decide

theorem lists_revisited : Lined Chronicle.single revisited fourCame ∧ revisited.Settled ∧
    revisited.Lists fourCame shown :=
  ⟨lined_revisited, settled_revisited,
    lined_revisited.lists settled_revisited distinct_revisited rfl⟩

theorem queued_shown : shown.queued.map TaskSnapshot.ticket
    = [⟨⟨7⟩, .normal, .cacheCleanup⟩, ⟨⟨9⟩, .normal, .cacheCleanup⟩] := by
  have hsnapshots : revisited.pool.ledger.snapshots
      = revisited.pool.ledger.tasks.map Task.snapshot :=
    List.mergeSort_of_pairwise (by decide)
  have hqueued : shown.queued
      = (revisited.pool.ledger.tasks.map Task.snapshot).filter (·.status == .queued) := by
    show (revisited.pool.ledger.snapshots.filter _).mergeSort _ = _
    rw [hsnapshots]
    exact List.mergeSort_of_pairwise (by decide)
  rw [hqueued]
  rfl

/-- nothing is on its way and no alarm waits to be handled, and yet the task that is tried again is
listed first and leaves the queue last -/
theorem misplaced_revisited : Reachable Chronicle.single revisited ∧ revisited.Settled ∧
    revisited.rung = [] ∧
    (revisited.pool.ledger.tasks.Pairwise fun s t => s.created ≠ t.created) ∧
    shown.snapshot.tasks = revisited.pool.ledger.snapshots ∧
    revisited.pool.queue.Drains
      [⟨⟨9⟩, .normal, .cacheCleanup⟩, ⟨⟨7⟩, .normal, .cacheCleanup⟩] ∧
    ¬ revisited.pool.queue.Drains (shown.queued.map TaskSnapshot.ticket) := by
  refine ⟨lined_revisited.reachable, settled_revisited, rfl, distinct_revisited, rfl,
    Queue.drains_iff.mpr rfl, ?_⟩
  rw [Queue.drains_iff, queued_shown]
  decide

end Workshop

end TaskPool
