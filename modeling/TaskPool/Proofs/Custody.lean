import TaskPool.Proofs.Agreement
import TaskPool.Proofs.Winding

/-!
# No task is lost, and none is doubled

* `Orderly`             the tasks in flight are distinct, and each ticket is the ticket of its task
* `Situation`           the four places where a task in flight can be
* `Workshop.Finds`      what it means for a task to be there
* `Reachable.custody`   while somebody holds on to the pool, every task in flight is in one of the
                        four places and in no other

What each part rests on: tickets on `Orderly`, workers on harmony, and the tasks that are to be
tried again on their timers.
-/

namespace TaskPool

open Relation

namespace Ledger

/-- whatever is in flight was in flight before, on the same terms -/
def Heirs (l l' : Ledger) : Prop := ∀ t' ∈ l'.tasks, ∃ t ∈ l.tasks, t'.ticket = t.ticket

theorem Heirs.refl (l : Ledger) : Heirs l l := fun t ht => ⟨t, ht, rfl⟩

theorem Heirs.erase (l : Ledger) (id : TaskId) : Heirs l (l.erase id) :=
  fun t ht => ⟨t, (List.mem_filter.mp ht).1, rfl⟩

theorem Heirs.modify (l : Ledger) (id : TaskId) (f : Task → Task)
    (hf : ∀ t, (f t).ticket = t.ticket) : Heirs l (l.modify id f) := by
  intro t' ht'
  obtain ⟨t, ht, rfl⟩ := List.mem_map.mp ht'
  refine ⟨t, ht, ?_⟩
  split
  · exact hf t
  · rfl

theorem Heirs.empty (l : Ledger) : Heirs l .empty := fun t ht => by cases ht

end Ledger

namespace Pool

variable {m : Moment}

structure Orderly (p : Pool) : Prop where
  distinct : p.ledger.ids.Nodup
  ticket : ∀ x ∈ p.queue.waiting, ∀ t ∈ p.ledger.tasks, x.task = t.id → x = t.ticket

/-! ## tickets -/

theorem Orderly.step {p q : Pool} (h : Orderly p) (hc : q.ledger.ids.Sublist p.ledger.ids)
    (hl : p.ledger.Heirs q.ledger) (hq : ∀ x ∈ q.queue.waiting, x ∈ p.queue.waiting) :
    Orderly q := by
  refine ⟨h.distinct.sublist hc, fun x hx t' ht' hxt => ?_⟩
  obtain ⟨t, ht, htk⟩ := hl t' ht'
  have hid : t'.id = t.id := congrArg Ticket.task htk
  rw [htk]
  exact h.ticket x (hq x hx) t ht (hxt.trans hid)

theorem Orderly.same {p q : Pool} (h : Orderly p) (hl : q.ledger = p.ledger)
    (hq : q.queue = p.queue) : Orderly q := by
  refine ⟨by rw [hl]; exact h.distinct, ?_⟩
  rw [hl, hq]
  exact h.ticket

theorem Move.orderly {p q : Pool} (h : Orderly p) (hm : Move m p q) : Orderly q := by
  have hc := hm.conserves.sublist
  cases hm with
  | reply | ask | promise | note | «open» => exact h.same rfl rfl
  | wake caller =>
    obtain ⟨stops, replies, hw, _⟩ := wake_eq p caller
    rw [hw]
    exact h.same rfl rfl
  | ticks =>
    unfold armTicks
    split <;> exact h.same rfl rfl
  | retire waiter w e he hs =>
    rw [stopWorker_of_live waiter he hs]
    exact h.same rfl rfl
  | remove w e =>
    obtain ⟨stops, replies, hd, _⟩ := dispose_eq (p.dropEntry w) e
    rw [hd]
    exact h.same rfl rfl
  | dispatch w e affinity t rest task he hi hq =>
    refine h.step hc (.modify _ _ _ fun _ => rfl) fun x hx => ?_
    exact (Queue.popFor_perm hq).mem_iff.mpr (List.mem_cons_of_mem t hx)
  | unknown affinity t rest hq =>
    refine h.step hc (.refl _) fun x hx => ?_
    exact (Queue.popFor_perm hq).mem_iff.mpr (List.mem_cons_of_mem t hx)
  | bounce w e affinity t rest he hi hq =>
    refine h.step hc (.refl _) fun x hx => ?_
    exact (Queue.popFor_perm hq).mem_iff.mpr ((Queue.push_perm rest t).mem_iff.mp hx)
  | cancel id =>
    have hsub (x : Ticket) (hx : x ∈ (p.queue.remove id).waiting) : x ∈ p.queue.waiting :=
      (p.queue.remove_sublist id).subset hx
    revert hc
    unfold Pool.cancel Ledger.cancel
    cases p.ledger.find? id with
    | none => exact fun hc => h.step hc (.refl _) hsub
    | some t =>
      by_cases hs : t.status.isTerminal = true
      · simp only [if_pos hs]
        exact fun hc => h.step hc (.refl _) hsub
      · simp only [if_neg hs]
        exact fun hc => h.step hc (.erase _ _) hsub
  | expire id attempt worker ledger consequences he =>
    obtain ⟨t, _, _, _, _, rfl, _⟩ := Ledger.timeOut_eq_some he
    exact h.step hc (.erase _ _) fun x hx => hx
  | shut => exact h.step hc (.empty _) fun x hx => by cases hx

theorem Orderly.hire {p : Pool} (h : Orderly p) : Orderly (p.hire m) := by
  by_cases ha : m.attached = true
  · rw [hire_of_attached ha]
    exact h.same rfl rfl
  · rw [hire_of_detached (by simpa using ha)]
    exact h

theorem Moves.orderly {p q : Pool} (h : Orderly p) (hm : Moves m p q) : Orderly q := by
  induction hm with
  | refl => exact h
  | tail _ hm ih =>
    rcases hm with hm | rfl
    · exact hm.orderly ih
    · exact ih.hire

theorem Orderly.failTask {p : Pool} (h : Orderly p) (id : TaskId) (cause : FailureCause) :
    Orderly (failTask m p id cause) := by
  have hc := (Conserves.failTask (m := m) p id cause).sublist
  have hf := failTask_cases (m := m) p id cause
  generalize Pool.failTask m p id cause = q at hc hf
  cases hf with
  | skipped => exact h
  | exhausted => exact h.step hc (.erase _ _) fun x hx => hx
  | stranded | retried => exact h.step hc (.modify _ _ _ fun _ => rfl) fun x hx => hx

theorem Orderly.startAttempt {p : Pool} (h : Orderly p) (id : TaskId) (w : WorkerId) :
    Orderly (startAttempt m p id w) := by
  have hc := (Conserves.startAttempt (m := m) p id w).sublist
  have hb := startAttempt_cases (m := m) p id w
  generalize Pool.startAttempt m p id w = q at hc hb
  cases hb with
  | skipped => exact h
  | untimed | timed => exact h.step hc (.modify _ _ _ fun _ => rfl) fun x hx => hx

theorem Orderly.dispose {p : Pool} (h : Orderly p) (e : Entry) : Orderly (p.dispose e) := by
  obtain ⟨stops, replies, hd, _⟩ := dispose_eq p e
  rw [hd]
  exact h.same rfl rfl

/-- a ticket is added for a task in flight -/
theorem Orderly.push {p q : Pool} (h : Orderly p) {t : Task} (ht : t ∈ p.ledger.tasks)
    (hc : q.ledger.ids.Sublist p.ledger.ids) (hl : p.ledger.Heirs q.ledger)
    (hq : q.queue = p.queue.push t.ticket) : Orderly q := by
  refine ⟨h.distinct.sublist hc, fun x hx u' hu' hxu => ?_⟩
  obtain ⟨u, hu, huk⟩ := hl u' hu'
  have hid : u'.id = u.id := congrArg Ticket.task huk
  rw [huk]
  rw [hq] at hx
  rcases List.mem_cons.mp ((Queue.push_perm p.queue t.ticket).mem_iff.mp hx) with rfl | hx
  · -- the tasks are distinct, so it is the very task that the ticket is of
    have hsome := Ledger.find?_of_mem h.distinct ht
    have hsome' := Ledger.find?_of_mem h.distinct hu
    have htu : t.id = u.id := hxu.trans hid
    rw [htu, hsome'] at hsome
    cases hsome
    rfl
  · exact h.ticket x hx u hu (hxu.trans hid)

/-- a new task comes with its ticket -/
theorem Orderly.accept {p : Pool} (h : Orderly p) {t : Task} (hl : t.id ∉ p.ledger.ids)
    (hq : t.id ∉ p.queue.tasks) :
    Orderly { p with
      ledger := p.ledger.insert t
      queue := p.queue.push t.ticket } := by
  refine ⟨?_, fun x hx u hu hxu => ?_⟩
  · show (p.ledger.insert t).ids.Nodup
    rw [Ledger.ids_insert]
    refine List.nodup_append.mpr ⟨h.distinct, by simp, fun a ha b hb hab => ?_⟩
    rw [List.mem_singleton.mp hb] at hab
    exact hl (hab ▸ ha)
  · have hu : u ∈ p.ledger.tasks ++ [t] := hu
    rcases List.mem_cons.mp ((Queue.push_perm p.queue t.ticket).mem_iff.mp hx) with rfl | hx
    · rcases List.mem_append.mp hu with hu | hu
      · have hid : u.id = t.id := hxu.symm
        exact absurd (hid ▸ List.mem_map_of_mem hu) hl
      · rw [List.mem_singleton.mp hu]
    · rcases List.mem_append.mp hu with hu | hu
      · exact h.ticket x hx u hu hxu
      · rw [List.mem_singleton.mp hu] at hxu
        exact absurd (hxu ▸ List.mem_map_of_mem hx) hq

/-- `fresh` says of a submission that its identifier is new -/
theorem Impact.orderly {p q : Pool} {msg : Message} (h : Orderly p) (hi : Impact m p msg q)
    (fresh : ∀ caller id kind payload options,
      msg = .call caller (.submit id kind payload options) →
        id ∉ p.ledger.ids ∧ id ∉ p.queue.tasks) : Orderly q := by
  cases hi with
  | none => exact h
  | accept caller id kind payload options =>
    obtain ⟨hl, hq⟩ := fresh caller id kind payload options rfl
    exact h.accept hl hq
  | ready | idle => exact h.same rfl rfl
  | busy w t =>
    have hnote : Orderly (p.updateEntry w fun e => e.setBusy t m.now) := h.same rfl rfl
    exact hnote.startAttempt t w
  | busyLate w t => exact h.startAttempt t w
  | result w t v ledger cs ha hc =>
    obtain ⟨task, _, _, rfl, _⟩ := Ledger.complete_eq_some hc
    refine h.step ?_ (.erase _ _) fun x hx => hx
    show (p.ledger.erase t).ids.Sublist _
    rw [Ledger.ids_erase]
    exact List.filter_sublist
  | error w t detail =>
    have hnote : Orderly (p.updateEntry w fun e => { e with failed := e.failed + 1 }) :=
      h.same rfl rfl
    exact hnote.failTask t (.handler detail)
  | crash w event detail e =>
    have hdrop : Orderly (p.dropEntry w) := h.same rfl rfl
    exact hdrop.dispose e
  | crashBusy w event detail e t =>
    have hdrop : Orderly (p.dropEntry w) := h.same rfl rfl
    exact (hdrop.dispose e).failTask t (.crash w detail)
  | retry t ticket ledger hr hreset =>
    obtain ⟨task, ht, _, rfl, rfl⟩ := Ledger.resetForRetry_eq_some hreset
    refine h.push (Ledger.mem_of_find? ht) ?_ (.modify _ _ _ fun _ => rfl) rfl
    show (p.ledger.modify t Ledger.reset).ids.Sublist _
    rw [Ledger.ids_modify p.ledger Ledger.reset (fun _ => rfl)]

end Pool

/-! ## the four places -/

inductive Situation where
  /-- for a worker -/
  | waiting
  /-- for the news that its worker has taken it up -/
  | handed
  | running
  /-- for its next attempt to be called for -/
  | retrying

/-- the only place where a task with this record can be -/
def Task.situation (t : Task) : Situation :=
  match t.status, t.worker with
  | .queued, none => .waiting
  | .queued, some _ => .handed
  | .running, _ => .running
  | _, _ => .retrying

/-- the worker is busy with the task, as far as the pool knows -/
def Pool.Assigned (p : Pool) (w : WorkerId) (t : TaskId) : Prop :=
  ∃ e, p.roster.find? w = some e ∧ e.status = .busy ∧ e.task = some t

def Workshop.Finds (W : Workshop) (t : Task) : Situation → Prop
  | .waiting => t.status = .queued ∧ t.worker = none ∧
      (W.pool.queue.waiting.filter fun x => x.task == t.id) = [t.ticket]
  | .handed => t.status = .queued ∧ t.id ∉ W.pool.queue.tasks ∧
      ∃ w b, t.worker = some w ∧ W.pool.Assigned w t.id ∧ W.bench w = some b ∧
        (b.Undelivered t.id ∨ .busy t.id ∈ b.outgoing)
  | .running => t.status = .running ∧ t.id ∉ W.pool.queue.tasks ∧
      ∃ w, t.worker = some w ∧ W.pool.Assigned w t.id
  | .retrying => t.status = .retrying ∧ t.id ∉ W.pool.queue.tasks ∧
      callsFor W.timers W.rung t.id = 1

namespace Workshop

theorem Finds.eq {W : Workshop} {t : Task} {s : Situation} (h : W.Finds t s) : s = t.situation := by
  cases s with
  | waiting =>
    obtain ⟨hs, hw, _⟩ := h
    rw [Task.situation, hs, hw]
  | handed =>
    obtain ⟨hs, _, w, b, hw, _⟩ := h
    rw [Task.situation, hs, hw]
  | running =>
    obtain ⟨hs, _⟩ := h
    rw [Task.situation, hs]
  | retrying =>
    obtain ⟨hs, _⟩ := h
    rw [Task.situation, hs]

theorem Reachable.orderly {c : Config} {W : Workshop} (h : Reachable c W) : W.pool.Orderly := by
  induction h with
  | new => exact ⟨List.nodup_nil, fun x hx => by cases hx⟩
  | @step W W' hr hs ih =>
    have ht := hr.inStep.tuned
    rcases hs.heard with ⟨hpool, _⟩ | ⟨m, msg, _, hdraws, hpool, _⟩
    · rw [hpool]
      exact ih
    · -- whatever message it is, its impact and the moves after it keep the pool orderly
      obtain ⟨p1, p2, hi, hm, _, hq⟩ := Pool.handle_splits (m := m) ht.sound msg
      have h1 : p1.Orderly := by
        refine hi.orderly ih fun caller id kind payload options hmsg => ?_
        have hnew : id ∉ accepted W.history := hdraws _ _ hmsg
        refine ⟨fun hm => hnew ?_, fun hm => hnew ?_⟩
        · cases hf : W.pool.ledger.find? id with
          | none => exact absurd hm (Ledger.find?_eq_none.mp hf)
          | some t => exact (ht.harmony.listed id _ (Ledger.sight_of_find? hf)).1
        · exact (ht.harmony.listed id _ ((ht.harmony.waits id).mp hm)).1
      rw [hpool, hq]
      exact (hm.orderly h1).same rfl rfl

/-- a task that waits has one ticket, and it is its own -/
theorem filter_tickets {p : Pool} (h : p.Orderly) (hd : p.queue.tasks.Nodup) {t : Task}
    (ht : t ∈ p.ledger.tasks) (hw : t.id ∈ p.queue.tasks) :
    (p.queue.waiting.filter fun x => x.task == t.id) = [t.ticket] := by
  obtain ⟨x, hx, hxt⟩ := List.mem_map.mp hw
  have hall : ∀ y ∈ p.queue.waiting.filter fun x => x.task == t.id, y = t.ticket := by
    intro y hy
    obtain ⟨hy, hyt⟩ := List.mem_filter.mp hy
    exact h.ticket y hy t ht (by simpa using hyt)
  have hmem : t.ticket ∈ p.queue.waiting.filter fun x => x.task == t.id := by
    rw [← h.ticket x hx t ht hxt]
    exact List.mem_filter.mpr ⟨hx, by simp [hxt]⟩
  have hnodup : (p.queue.waiting.filter fun x => x.task == t.id).Nodup := hd.of_map.filter _
  generalize (p.queue.waiting.filter fun x => x.task == t.id) = ys at hall hmem hnodup
  match ys with
  | [] => cases hmem
  | [y] => rw [hall y (List.mem_cons_self ..)]
  | y :: z :: _ =>
    have hyz : y = z := by
      rw [hall y (List.mem_cons_self ..), hall z (List.mem_cons_of_mem y (List.mem_cons_self ..))]
    exact absurd (hyz ▸ List.mem_cons_self ..) (List.nodup_cons.mp hnodup).1

/-- a task in flight is where its record says -/
theorem Reachable.finds {c : Config} {W : Workshop} (h : Reachable c W) (hh : W.held = true)
    {t : Task} (ht : t ∈ W.pool.ledger.tasks) : W.Finds t t.situation := by
  have hh' := h.inStep.tuned.harmony
  have hf := Ledger.find?_of_mem h.orderly.distinct ht
  have hsight := Ledger.sight_of_find? hf
  have hlisted := (hh'.listed t.id _ hsight).2
  have hout (hne : (t.status, t.worker) ≠ (.queued, none)) : t.id ∉ W.pool.queue.tasks := by
    intro hm
    have := (hh'.waits t.id).mp hm
    rw [show (W.pool.scene W.bench (accepted W.history)).sight t.id = _ from hsight] at this
    exact hne (Option.some.inj this)
  have hassigned {w : WorkerId} (hp : W.pool.roster.post w = some (.busy, some t.id)) :
      W.pool.Assigned w t.id := Roster.find?_of_post hp
  generalize hx : (t.status, t.worker) = x at hlisted hout
  cases hlisted with
  | waiting =>
    obtain ⟨hs, hw⟩ := Prod.mk.inj hx
    rw [Task.situation, hs, hw]
    have hmem : t.id ∈ W.pool.queue.tasks := by
      refine (hh'.waits t.id).mpr ?_
      rw [show (W.pool.scene W.bench (accepted W.history)).sight t.id = _ from hsight, hx]
    exact ⟨hs, hw, filter_tickets h.orderly hh'.nodup ht hmem⟩
  | handed w b hp hb hpend =>
    obtain ⟨hs, hw⟩ := Prod.mk.inj hx
    rw [Task.situation, hs, hw]
    refine ⟨hs, hout (by simp), w, b, hw, hassigned hp, hb, ?_⟩
    rcases hpend with hhand | hun
    · obtain ⟨kind, payload, ho⟩ := hhand.orders
      refine .inl (Bench.undelivered_iff.mpr ⟨kind, payload, ?_⟩)
      rw [ho]
      exact List.mem_singleton_self _
    · obtain ⟨es, hn, _⟩ := hun.rest
      have hnews : Event.busy t.id ∈ b.news := by
        rw [hn]
        exact List.mem_cons_self ..
      exact .inr (List.mem_filter.mp hnews).1
  | running w b hp hb hack =>
    obtain ⟨hs, hw⟩ := Prod.mk.inj hx
    rw [Task.situation, hs]
    exact ⟨hs, hout (by simp), w, hw, hassigned hp⟩
  | retrying w =>
    obtain ⟨hs, hw⟩ := Prod.mk.inj hx
    rw [Task.situation, hs]
    have hdue := (h.wound hh).right.due t.id _ _ (Ledger.kept_of_find? hf)
    rw [hs, if_pos rfl, h.inStep.tuned.outbox] at hdue
    exact ⟨hs, hout (by simp), hdue⟩

/-- **no task is lost, and none is doubled**: while somebody holds on to the pool, every task in
flight is in one of the four places and in no other, every ticket is of a task in flight, and no
task has two -/
theorem Reachable.custody {c : Config} {W : Workshop} (h : Reachable c W) (hh : W.held = true) :
    (∀ t ∈ W.pool.ledger.tasks, ∃! s, W.Finds t s) ∧
      (∀ x ∈ W.pool.queue.waiting, W.pool.ledger.contains x.task = true) ∧
      W.pool.queue.tasks.Nodup := by
  refine ⟨fun t ht => ⟨t.situation, h.finds hh ht, fun s hs => hs.eq⟩, fun x hx => ?_,
    h.inStep.tuned.harmony.nodup⟩
  obtain ⟨task, hf⟩ := h.inStep.agreement.listed x hx
  rw [Ledger.contains_iff]
  exact Ledger.id_of_find? hf ▸ List.mem_map_of_mem (Ledger.mem_of_find? hf)

/-- the one task of `oneHanded` waits for the news that its worker has taken it up -/
theorem custody_oneHanded : Reachable Chronicle.single oneHanded ∧ oneHanded.held = true ∧
    (∀ t ∈ oneHanded.pool.ledger.tasks, ∃! s, oneHanded.Finds t s) ∧
      oneHanded.pool.ledger.tasks.map Task.situation = [.handed] :=
  ⟨reachable_oneHanded, rfl, (reachable_oneHanded.custody rfl).1, rfl⟩

end Workshop

end TaskPool
