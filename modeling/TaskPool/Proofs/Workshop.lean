import TaskPool.Proofs.Harmony
import TaskPool.Proofs.Outcome

/-!
# A pool at work

A `Workshop` is a pool with everything that can send it a message: the benches of its workers, its
timers, and the alarms that went off and were not handled yet.  What comes next is left open.

* `Workshop.deliver`   the pool handles a message, and what it asks for is done
* `Workshop.Step`      a call, the first report of some worker, an alarm, a timer that goes off, a
                       turn of a bench, or the last holder letting go of the pool
* `Workshop.Reachable` what can come of a new pool
* `Workshop.scene`     the records of the pool beside the benches

Reports of one worker are handled in the order in which they were sent; between different senders
any order is possible, and a timer may go off at any time.  Commands that were sent are lost only
with the worker, and no identifier is given to two tasks.

A pool at work does not notice that a counter overflows.  With overflow checks a run ends before
that, so what holds of every run that there can be holds of those as well.
-/

namespace TaskPool

open Function

structure Timer where
  id : TimerId
  alarm : Alarm
  /-- it stays armed when it goes off -/
  repeats : Bool

/-! ## what effects do -/

namespace Effect

def onBench (now : Nat) (bench : WorkerId → Option Bench) : Effect → WorkerId → Option Bench
  | .hire w => update bench w (some (.new w now))
  | .tell w c => update bench w ((bench w).map fun b => b.tell c)
  | .dismiss w => update bench w ((bench w).map Bench.dismiss)
  | _ => bench

def onTimers (timers : List Timer) : Effect → List Timer
  | .arm id _ alarm => timers ++ [⟨id, alarm, false⟩]
  | .armEvery id _ alarm => timers ++ [⟨id, alarm, true⟩]
  | .disarm id => timers.filter fun t => t.id != id
  | _ => timers

end Effect

def stage (now : Nat) (bench : WorkerId → Option Bench) (es : List Effect) :
    WorkerId → Option Bench := es.foldl (Effect.onBench now) bench

def wind (timers : List Timer) (es : List Effect) : List Timer := es.foldl Effect.onTimers timers

theorem stage_append (now : Nat) (bench : WorkerId → Option Bench) (es fs : List Effect) :
    stage now bench (es ++ fs) = stage now (stage now bench es) fs := List.foldl_append

theorem wind_append (timers : List Timer) (es fs : List Effect) :
    wind timers (es ++ fs) = wind (wind timers es) fs := List.foldl_append

/-- no bench is touched -/
def Effect.Aside : Effect → Prop
  | .hire _ | .tell _ _ | .dismiss _ => False
  | _ => True

theorem stage_aside {now : Nat} {bench : WorkerId → Option Bench} {es : List Effect}
    (h : ∀ e ∈ es, e.Aside) : stage now bench es = bench := by
  induction es with
  | nil => rfl
  | cons e es ih =>
    have he : e.onBench now bench = bench := by
      have := h e (List.mem_cons_self ..)
      cases e with
      | hire | tell | dismiss => cases this
      | _ => rfl
    show stage now (e.onBench now bench) es = bench
    rw [he]
    exact ih fun x hx => h x (List.mem_cons_of_mem e hx)

theorem aside_consequences (cs : List Consequence) :
    ∀ e ∈ cs.map Consequence.effect, e.Aside := by
  intro e he
  obtain ⟨c, _, rfl⟩ := List.mem_map.mp he
  cases c <;> trivial

/-! ## what the records say -/

def Roster.post (r : Roster) (w : WorkerId) : Option Post :=
  (r.find? w).map fun e => (e.status, e.task)

def Ledger.sight (l : Ledger) (t : TaskId) : Option Sight :=
  (l.find? t).map fun t => (t.status, t.worker)

namespace Roster

theorem post_of_find? {r : Roster} {w : WorkerId} {e : Entry} (h : r.find? w = some e) :
    r.post w = some (e.status, e.task) := by
  rw [post, h]
  rfl

theorem find?_of_post {r : Roster} {w : WorkerId} {x : Post} (h : r.post w = some x) :
    ∃ e, r.find? w = some e ∧ e.status = x.1 ∧ e.task = x.2 := by
  obtain ⟨e, he, rfl⟩ := Option.map_eq_some_iff.mp h
  exact ⟨e, he, rfl, rfl⟩

theorem post_modify (r : Roster) (f : Entry → Entry) (hf : ∀ e, (f e).worker = e.worker)
    (w : WorkerId) {e : Entry} (he : r.find? w = some e) :
    (r.modify w f).post = update r.post w (some ((f e).status, (f e).task)) := by
  funext x
  rw [post, find?_modify r f hf]
  by_cases hx : x = w
  · rw [hx, if_pos rfl, update_self, he]
    rfl
  · rw [if_neg hx, update_of_ne hx]
    rfl

/-- a change that shows in no post -/
theorem post_modify_same (r : Roster) (f : Entry → Entry) (hf : ∀ e, (f e).worker = e.worker)
    (hs : ∀ e, (f e).status = e.status) (ht : ∀ e, (f e).task = e.task) (w : WorkerId) :
    (r.modify w f).post = r.post := by
  funext x
  rw [post, find?_modify r f hf]
  split
  · rw [post, Option.map_map]
    congr 1
    funext e
    show ((f e).status, (f e).task) = _
    rw [hs, ht]
  · rfl

theorem post_erase (r : Roster) (w : WorkerId) : (r.erase w).post = update r.post w none := by
  funext x
  rw [post, find?_erase]
  by_cases hx : x = w
  · rw [hx, if_pos rfl, update_self]
    rfl
  · rw [if_neg hx, update_of_ne hx]
    rfl

theorem post_enrol (r : Roster) (now : Timestamp) :
    (r.enrol now).post = update r.post r.nextId (some (.starting, none)) := by
  funext x
  rw [post, Roster.find?_enrol]
  by_cases hx : x = r.nextId
  · rw [hx, if_pos rfl, update_self]
    rfl
  · rw [if_neg hx, update_of_ne hx]
    rfl

end Roster

namespace Ledger

section
variable {β : Type} (g : Task → β)

theorem map_find?_modify (l : Ledger) (f : Task → Task) (hf : ∀ t, (f t).id = t.id) (id : TaskId)
    {t : Task} (ht : l.find? id = some t) :
    (fun x => ((l.modify id f).find? x).map g)
      = update (fun x => (l.find? x).map g) id (some (g (f t))) := by
  funext x
  rw [find?_modify l f hf]
  by_cases hx : x = id
  · rw [hx, if_pos rfl, update_self, ht]
    rfl
  · rw [if_neg hx, update_of_ne hx]

theorem map_find?_erase (l : Ledger) (id : TaskId) :
    (fun x => ((l.erase id).find? x).map g) = update (fun x => (l.find? x).map g) id none := by
  funext x
  rw [find?_erase]
  by_cases hx : x = id
  · rw [hx, if_pos rfl, update_self]
    rfl
  · rw [if_neg hx, update_of_ne hx]

theorem map_find?_insert (l : Ledger) {t : Task} (ht : l.find? t.id = none) :
    (fun x => ((l.insert t).find? x).map g)
      = update (fun x => (l.find? x).map g) t.id (some (g t)) := by
  funext x
  rw [find?_insert l ht]
  by_cases hx : x = t.id
  · rw [hx, if_pos rfl, update_self]
    rfl
  · rw [if_neg hx, update_of_ne hx]

end

theorem sight_of_find? {l : Ledger} {id : TaskId} {t : Task} (h : l.find? id = some t) :
    l.sight id = some (t.status, t.worker) := by
  rw [sight, h]
  rfl

theorem sight_eq_none {l : Ledger} {id : TaskId} : l.sight id = none ↔ l.find? id = none :=
  Option.map_eq_none_iff

theorem find?_of_sight {l : Ledger} {id : TaskId} {y : Sight} (h : l.sight id = some y) :
    ∃ t, l.find? id = some t ∧ t.status = y.1 ∧ t.worker = y.2 := by
  obtain ⟨t, ht, rfl⟩ := Option.map_eq_some_iff.mp h
  exact ⟨t, ht, rfl, rfl⟩

theorem sight_modify (l : Ledger) (f : Task → Task) (hf : ∀ t, (f t).id = t.id) (id : TaskId)
    {t : Task} (ht : l.find? id = some t) :
    (l.modify id f).sight = update l.sight id (some ((f t).status, (f t).worker)) :=
  map_find?_modify (fun t => (t.status, t.worker)) l f hf id ht

theorem sight_erase (l : Ledger) (id : TaskId) : (l.erase id).sight = update l.sight id none :=
  map_find?_erase (fun t => (t.status, t.worker)) l id

theorem sight_insert (l : Ledger) {t : Task} (ht : l.find? t.id = none) :
    (l.insert t).sight = update l.sight t.id (some (t.status, t.worker)) :=
  map_find?_insert (fun t => (t.status, t.worker)) l ht

end Ledger

def Queue.tasks (q : Queue) : List TaskId := q.waiting.map Ticket.task

/-- the records of a pool beside the benches -/
def Pool.scene (p : Pool) (bench : WorkerId → Option Bench) (taken : List TaskId) : Scene where
  post := p.roster.post
  sight := p.ledger.sight
  waits := p.queue.tasks
  next := p.roster.nextId
  bench := bench
  taken := taken

/-! ## the workshop -/

structure Workshop where
  /-- its outbox is empty -/
  pool : Pool
  bench : WorkerId → Option Bench
  timers : List Timer
  /-- alarms that the pool has not handled yet -/
  rung : List Alarm
  /-- somebody outside holds on to the pool -/
  held : Bool
  /-- all that the pool ever asked for -/
  history : List Effect

namespace Workshop

def new (c : Config) : Workshop where
  pool := .new c
  bench := fun _ => none
  timers := []
  rung := []
  held := true
  history := []

def scene (W : Workshop) : Scene := W.pool.scene W.bench (accepted W.history)

def deliver (W : Workshop) (m : Moment) (now : Nat) (msg : Message) : Workshop :=
  let q := W.pool.handle m msg
  { W with
    pool := { q with outbox := [] }
    bench := stage now W.bench q.outbox
    timers := wind W.timers q.outbox
    history := W.history ++ q.outbox }

def setBench (W : Workshop) (w : WorkerId) (b : Bench) : Workshop :=
  { W with bench := update W.bench w (some b) }

/-- what the pool may believe of its surroundings -/
structure Admits (W : Workshop) (m : Moment) : Prop where
  attached : W.held = true → m.attached = true
  gone : ∀ w ∈ m.gone, ∃ b, W.bench w = some b ∧ b.worker.isReachable = false

/-- a submission comes with an identifier that no accepted task has -/
def Draws (W : Workshop) : Request → Prop
  | .submit id _ _ _ => id ∉ accepted W.history
  | _ => True

inductive Step (W : Workshop) : Workshop → Prop where
  | call (m : Moment) (now : Nat) (caller : CallId) (request : Request) (hm : W.Admits m)
      (hd : W.Draws request) : Step W (W.deliver m now (.call caller request))
  | report (m : Moment) (now : Nat) (w : WorkerId) (b : Bench) (e : Event) (rest : List Event)
      (hm : W.Admits m) (hb : W.bench w = some b) (ho : b.outgoing = e :: rest) :
      Step W ((W.setBench w (b.pop rest)).deliver m now (.report w e))
  | alarm (m : Moment) (now : Nat) (a : Alarm) (hm : W.Admits m) (ha : a ∈ W.rung) :
      Step W ({ W with rung := W.rung.erase a }.deliver m now (.ring a))
  | ring (t : Timer) (ht : t ∈ W.timers) :
      Step W
        { W with
          timers := if t.repeats then W.timers else W.timers.filter fun x => x.id != t.id
          rung := W.rung ++ [t.alarm] }
  | turn (w : WorkerId) (b b' : Bench) (hb : W.bench w = some b) (ht : b.Turn b') :
      Step W (W.setBench w b')
  | letGo : Step W { W with held := false }

/-- the pool does not notice a step, or handles a message -/
theorem Step.heard {W W' : Workshop} (h : Step W W') :
    (W'.pool = W.pool ∧ W'.history = W.history) ∨ ∃ m msg, W.Admits m ∧
      (∀ caller request, msg = .call caller request → W.Draws request) ∧
      W'.pool = { W.pool.handle m msg with outbox := [] } ∧
      W'.history = W.history ++ (W.pool.handle m msg).outbox := by
  cases h with
  | call m now caller request hm hd =>
    refine .inr ⟨m, _, hm, fun _ _ hmsg => ?_, rfl, rfl⟩
    cases hmsg
    exact hd
  | report m now w b e rest hm => exact .inr ⟨m, _, hm, fun _ _ => Message.noConfusion, rfl, rfl⟩
  | alarm m now a hm => exact .inr ⟨m, _, hm, fun _ _ => Message.noConfusion, rfl, rfl⟩
  | ring | turn | letGo => exact .inl ⟨rfl, rfl⟩

theorem Step.held {W W' : Workshop} (h : Step W W') (hh : W'.held = true) : W.held = true := by
  cases h with
  | letGo => cases hh
  | _ => exact hh

inductive Reachable (c : Config) : Workshop → Prop where
  | new : Reachable c (.new c)
  | step {W W' : Workshop} (h : Reachable c W) (hs : Step W W') : Reachable c W'

end Workshop

end TaskPool
