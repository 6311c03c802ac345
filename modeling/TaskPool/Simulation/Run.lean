import TaskPool.Simulation.Actors

/-!
# Running a world

* `World.quiesce`   actors run until none has anything to do; then a pool that nobody can send to
                    any more ends
* `World.advance`   time passes, with everything at rest after each sleep that ends
* `World.call`      a caller asks the pool
* `World.subscribe` a caller follows the counters of the pool
* `World.takeReports`   what workers without a pool have reported
* `World.letGo`     whoever held the pool drops it
* `World.destroy`   the pool and all that runs for it vanishes

Why `advance` may jump: nothing moves between two deadlines, so the only milliseconds that matter
are those at which a sleep ends.
-/

namespace TaskPool

namespace World

/-- run until no actor has anything to do -/
def runReady : Nat → World → World
  | 0, w => w
  | fuel + 1, w =>
    match w.ready with
    | [] => w
    | a :: rest => runReady fuel ({ w with ready := rest }.run a)

/-- a pool ends when nobody can send to it: what it owed is lost -/
def endPool (w : World) : World :=
  match w.pool with
  | none => w
  | some p =>
    if w.attached then w
    else
      { w with
        pool := none
        out := w.out ++ p.ledger.tasks.map fun t => .settled t.id (.error .unavailable) }

/-- steps that no world needs between two moments of rest -/
def patience : Nat := 10000000

def quiesce (w : World) : World := (runReady patience w).endPool

def rouse (w : World) (s : Sleep) : World :=
  match s.sleeper with
  | .worker seat => w.wake (.worker seat)
  | .timer id => (w.modifyTimer id fun t => { t with phase := .rung s.deadline }).wake (.timer id)
  | .stream caller => w.wake (.stream caller)

/-- the next time at which a sleep ends, if that is no later than `target` -/
def nextDeadline? (w : World) (target : Nat) : Option Nat :=
  ((w.sleeps.map Sleep.deadline).filter (· ≤ target)).min?

/-- the sleeps that are over end, in the order in which they began -/
def wakeDue (w : World) : World :=
  let due := w.sleeps.filter fun s => s.deadline ≤ w.clock
  due.foldl rouse { w with sleeps := w.sleeps.filter fun s => w.clock < s.deadline }

/-- every deadline up to `target` passes; each takes at least a millisecond -/
def advanceTo (target : Nat) : Nat → World → World
  | 0, w => w
  | fuel + 1, w =>
    match w.nextDeadline? target with
    | none => { w with clock := target }
    | some deadline => advanceTo target fuel ({ w with clock := deadline }.wakeDue.quiesce)

def advance (w : World) (ms : Nat) : World := advanceTo (w.clock + ms) (ms + 1) w.quiesce

/-! ## from outside -/

/-- a caller that stays holds on to the pool until its task is over -/
def call (w : World) (caller : CallId) (stays : Bool) (r : Request) : World :=
  if w.pool.isSome then
    let newcomer : Caller := ⟨caller, stays, none⟩
    let w := { w with callers := w.callers ++ [newcomer] }
    w.post (.call caller r)
  else w.emit (.unavailable caller)

def subscribe (w : World) (caller : CallId) : World :=
  let newcomer : Stream := ⟨caller, false, false⟩
  let w := { w with streams := w.streams ++ [newcomer] }
  w.wake (.stream caller)

/-- the reports that no pool has taken, and the world without them -/
def takeReports (w : World) : List (WorkerId × Event) × World :=
  (w.inbox.filterMap fun m =>
    match m with
    | .report worker event => some (worker, event)
    | _ => none,
    { w with inbox := [] })

def letGo (w : World) : World := { w with held := false }

def destroy (w : World) : World :=
  { new w.handlers none with
    clock := w.clock
    micros := w.micros
    held := w.held
    log := w.log
    out := w.out
    listening := false }

end World

end TaskPool
