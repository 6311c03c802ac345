import TaskPool.Proofs.Shape
import Mathlib.Logic.Relation

/-!
# What a message can do to the pool

`Pool.handle` is taken apart once, so that no later proof has to.

* `Move m p q`         one thing that the pool may do in the course of any step: answer a caller,
                       hand out a task, ask a worker to end, ...
* `Steady`, `Moves`    moves one after the other, and the same with new workers between them
* `Impact m p msg q`   what a message does at once; a message that does nothing at once has the
                       impact `Impact.none`, with the reason why
* `handle_splits`      a message has its impact, then there are moves, and last comes the receipt
                       of a task that was accepted

Why two relations: a move keeps the pool and its workers in step whatever came before it, and an
impact does so only together with the message that it answers.
-/

namespace TaskPool

open Relation

/-- a change of an entry that leaves alone what the pool believes the worker to be doing -/
structure Entry.Keeps (f : Entry → Entry) : Prop where
  worker : ∀ e, (f e).worker = e.worker
  status : ∀ e, (f e).status = e.status
  task : ∀ e, (f e).task = e.task
  stopTimer : ∀ e, (f e).stopTimer = e.stopTimer

/-- no new worker comes with this message -/
def Message.IsCalm : Message → Prop
  | .call _ .start => False
  | .report _ (.fatal _) | .report _ (.exited _) => False
  | .ring (.stopDeadline _) | .ring .autoscaleTick => False
  | _ => True

/-- the worker that is gone for good with this message, if it was stopping -/
def Message.leaver? : Message → Option WorkerId
  | .report w (.fatal _) | .report w (.exited _) => some w
  | .ring (.stopDeadline w) => some w
  | _ => none

namespace Pool

/-! ## moves -/

/-- the entry of a worker that nobody waits for may be told to end -/
def Free (p : Pool) (e : Entry) : Prop :=
  e.status = .idle ∨ ∀ t, e.task = some t → p.ledger.find? t = none

/-- the pool after everything in flight was given up -/
def shut (p : Pool) : Pool :=
  { disarmTicks { p with running := false } with queue := .empty }.post
    (p.ledger.drain .shutdown).1 (p.ledger.drain .shutdown).2

inductive Move (m : Moment) : Pool → Pool → Prop where
  | reply (p : Pool) (caller : CallId) (a : Answer) (ha : ∀ id, a ≠ .accepted id) :
      Move m p (p.reply caller a)
  | ask (p : Pool) (w : WorkerId) : Move m p (p.emit (.tell w .reportMetrics))
  | wake (p : Pool) (caller : CallId) : Move m p (p.wake caller)
  | promise (p : Pool) (s : PendingStop) : Move m p { p with stops := p.stops ++ [s] }
  | note (p : Pool) (w : WorkerId) (f : Entry → Entry) (hf : Entry.Keeps f) :
      Move m p (p.updateEntry w f)
  | open (p : Pool) : Move m p { p with running := true }
  | ticks (p : Pool) (ha : p.config.autoscaling = true) : Move m p (p.armTicks m)
  | dispatch (p : Pool) (w : WorkerId) (e : Entry) (affinity : Option KindSet) (t : Ticket)
      (rest : Queue) (task : Task) (he : p.roster.find? w = some e) (hs : e.status = .idle)
      (hq : p.queue.popFor affinity = some (t, rest)) (ht : p.ledger.find? t.task = some task)
      (hr : m.reaches w = true) :
      Move m p
        { p with
          queue := rest
          roster := p.roster.modify w fun e => e.setBusy t.task m.now
          ledger := p.ledger.markDispatched t.task w
          outbox := p.outbox ++ [.tell w (.task t.task t.kind task.terms.payload)] }
  | unknown (p : Pool) (affinity : Option KindSet) (t : Ticket) (rest : Queue)
      (hq : p.queue.popFor affinity = some (t, rest)) (ht : p.ledger.find? t.task = none) :
      Move m p
        { p with
          queue := rest
          outbox := p.outbox ++ [.warn (.unknownTask t.task)] }
  | bounce (p : Pool) (w : WorkerId) (e : Entry) (affinity : Option KindSet) (t : Ticket)
      (rest : Queue) (he : p.roster.find? w = some e) (hs : e.status = .idle)
      (hq : p.queue.popFor affinity = some (t, rest)) (hr : m.reaches w = false) :
      Move m p
        { p with
          queue := rest.push t
          outbox := p.outbox ++ [.warn (.workerGone w t.task)] }
  | retire (p : Pool) (waiter : Option CallId) (w : WorkerId) (e : Entry)
      (he : p.roster.find? w = some e) (hs : e.status ≠ .stopping) (hf : p.Free e) :
      Move m p (stopWorker m waiter p w)
  | remove (p : Pool) (w : WorkerId) (e : Entry) (he : p.roster.find? w = some e)
      (hs : e.status = .stopping) : Move m p ((p.dropEntry w).dispose e)
  | cancel (p : Pool) (id : TaskId) : Move m p (p.cancel id).2
  | expire (p : Pool) (id : TaskId) (attempt : UInt32) (worker : Option WorkerId)
      (ledger : Ledger) (consequences : List Consequence)
      (h : p.ledger.timeOut id attempt = some (worker, ledger, consequences)) :
      Move m p (p.post ledger consequences)
  | shut (p : Pool) : Move m p p.shut

/-- moves one after the other -/
abbrev Steady (m : Moment) : Pool → Pool → Prop := ReflTransGen (Move m)

/-- moves and new workers, in any order -/
abbrev Moves (m : Moment) : Pool → Pool → Prop :=
  ReflTransGen fun p q => Move m p q ∨ q = p.hire m

theorem Steady.moves {m : Moment} {p q : Pool} (h : Steady m p q) : Moves m p q := by
  induction h with
  | refl => exact .refl
  | tail _ h ih => exact ih.tail (.inl h)

/-! ## impacts -/

/-- why a message does nothing at once -/
def Unmoved (p : Pool) : Message → Prop
  | .call _ (.submit _ _ _ _) => p.refusal? ≠ none
  | .call _ _ => True
  | .report w .ready => ∀ e, p.roster.find? w = some e → e.status ≠ .starting
  | .report w (.busy _) => p.roster.find? w = none
  | .report w .idle => ∀ e, p.roster.find? w = some e → e.status ≠ .busy
  | .report w (.result t v) => p.isAssignedTo t w = true → p.ledger.complete t v = none
  | .report w (.error t _) => p.isAssignedTo t w = false
  | .report w (.fatal _) => ∀ e, p.roster.find? w = some e → e.status = .stopping
  | .report w (.exited _) => ∀ e, p.roster.find? w = some e → e.status = .stopping
  | .report _ (.metrics _) => True
  | .ring (.retryDue t) => p.running = true → p.ledger.resetForRetry t = none
  | .ring _ => True

/-- the detail of the crash that a report tells of -/
def crashDetail? : Event → Option String
  | .fatal detail => some detail
  | .exited graceful => some (exitDetail graceful)
  | _ => none

inductive Impact (m : Moment) (p : Pool) : Message → Pool → Prop where
  | none (msg : Message) (h : p.Unmoved msg) : Impact m p msg p
  | accept (caller : CallId) (id : TaskId) (kind : Kind) (payload : Json) (options : Options)
      (h : p.refusal? = Option.none) :
      Impact m p (.call caller (.submit id kind payload options))
        { p with
          ledger := p.ledger.insert (.new id (terms p.config kind payload options) m.now)
          queue := p.queue.push
            (Task.new id (terms p.config kind payload options) m.now).ticket }
  | ready (w : WorkerId) (e : Entry) (he : p.roster.find? w = some e)
      (hs : e.status = .starting) :
      Impact m p (.report w .ready) (p.updateEntry w fun e => e.setIdle m.now)
  | idle (w : WorkerId) (e : Entry) (he : p.roster.find? w = some e) (hs : e.status = .busy) :
      Impact m p (.report w .idle) (p.updateEntry w fun e => e.setIdle m.now)
  | busy (w : WorkerId) (t : TaskId) (e : Entry) (he : p.roster.find? w = some e)
      (hs : e.status ≠ .stopping) :
      Impact m p (.report w (.busy t))
        (startAttempt m (p.updateEntry w fun e => e.setBusy t m.now) t w)
  | busyLate (w : WorkerId) (t : TaskId) (e : Entry) (he : p.roster.find? w = some e)
      (hs : e.status = .stopping) : Impact m p (.report w (.busy t)) (startAttempt m p t w)
  | result (w : WorkerId) (t : TaskId) (v : Json) (ledger : Ledger)
      (consequences : List Consequence) (ha : p.isAssignedTo t w = true)
      (hc : p.ledger.complete t v = some (ledger, consequences)) :
      Impact m p (.report w (.result t v))
        ((p.updateEntry w fun e => { e with processed := e.processed + 1 }).post ledger
          consequences)
  | error (w : WorkerId) (t : TaskId) (detail : String) (ha : p.isAssignedTo t w = true) :
      Impact m p (.report w (.error t detail))
        (failTask m (p.updateEntry w fun e => { e with failed := e.failed + 1 }) t
          (.handler detail))
  | crash (w : WorkerId) (event : Event) (detail : String) (e : Entry)
      (hd : crashDetail? event = some detail) (he : p.roster.find? w = some e)
      (hs : e.status ≠ .stopping) (ht : e.task = Option.none) :
      Impact m p (.report w event) ((p.dropEntry w).dispose e)
  | crashBusy (w : WorkerId) (event : Event) (detail : String) (e : Entry) (t : TaskId)
      (hd : crashDetail? event = some detail) (he : p.roster.find? w = some e)
      (hs : e.status ≠ .stopping) (ht : e.task = some t) :
      Impact m p (.report w event)
        (failTask m ((p.dropEntry w).dispose e) t (.crash w detail))
  | retry (t : TaskId) (ticket : Ticket) (ledger : Ledger) (hr : p.running = true)
      (h : p.ledger.resetForRetry t = some (ticket, ledger)) :
      Impact m p (.ring (.retryDue t))
        { p with
          ledger := ledger
          queue := p.queue.push ticket }

/-- what the caller of an accepted submission is told in the end -/
def receipt (p : Pool) : Message → List Effect
  | .call caller (.submit id _ _ _) =>
    if p.refusal?.isNone then [.reply caller (.accepted id)] else []
  | _ => []

theorem mem_receipt {p : Pool} {msg : Message} {e : Effect} (h : e ∈ p.receipt msg) :
    ∃ caller id, e = .reply caller (.accepted id) := by
  cases msg with
  | call caller r =>
    cases r with
    | submit id =>
      simp only [receipt] at h
      split at h
      · exact ⟨caller, id, List.mem_singleton.mp h⟩
      · cases h
    | _ => cases h
  | _ => cases h

theorem receipt_of_unmoved {p : Pool} {msg : Message} (h : p.Unmoved msg) : p.receipt msg = [] := by
  cases msg with
  | call caller r =>
    cases r with
    | submit =>
      cases hf : p.refusal? with
      | none => exact absurd hf h
      | some why => simp [receipt, hf]
    | _ => rfl
  | _ => rfl

end Pool

end TaskPool
