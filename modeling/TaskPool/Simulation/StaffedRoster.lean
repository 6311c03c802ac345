import TaskPool.Roster
import TaskPool.Simulation.Run

/-!
# A roster with its workers

`StaffedRoster` is a roster whose entries stand for running workers, without a pool over them.

* `StaffedRoster.insert`   a new worker and its entry; an entry it takes the place of is forgotten,
                           so its worker ends by itself and its waiters wait for nothing
* `StaffedRoster.remove`   takes an entry out, ends its worker and wakes its waiters
* `StaffedRoster.send`     a command to the worker behind an entry
-/

namespace TaskPool

/-- a waiter heard of the end of a worker, or lost its hope to -/
structure Woken where
  worker : WorkerId
  signalled : Bool

structure StaffedRoster where
  world : World
  roster : Roster
  woken : List Woken

namespace StaffedRoster

def empty : StaffedRoster := ⟨.new ⟨[]⟩ none, .empty, []⟩

def wake (r : StaffedRoster) (e : Entry) (signalled : Bool) : StaffedRoster :=
  { r with woken := r.woken ++ e.waiters.map fun _ => ⟨e.worker, signalled⟩ }

def forget (r : StaffedRoster) : Option Entry → StaffedRoster
  | none => r
  | some e => { r with world := r.world.detach e.seat }.wake e false

def insert (r : StaffedRoster) (worker : WorkerId) : StaffedRoster :=
  let seat := r.world.seats.size
  let r' : StaffedRoster :=
    { r with
      world := r.world.hire worker
      roster := r.roster.insert (.new worker seat r.world.now) }
  r'.forget (r.roster.find? worker)

def remove (r : StaffedRoster) (worker : WorkerId) : Bool × StaffedRoster :=
  match r.roster.find? worker with
  | none => (false, r)
  | some e =>
    (true,
      { r with
        world := r.world.abort e.seat
        roster := r.roster.erase worker }.wake e true)

def modify (r : StaffedRoster) (worker : WorkerId) (f : Entry → Entry) : StaffedRoster :=
  { r with roster := r.roster.modify worker f }

def send (r : StaffedRoster) (e : Entry) (c : Command) : Bool × StaffedRoster :=
  let (sent, world) := r.world.send e.seat c
  (sent, { r with world := world })

/-- the reports of the workers so far, and the roster without them -/
def takeReports (r : StaffedRoster) : List (WorkerId × Event) × StaffedRoster :=
  let (reports, world) := r.world.takeReports
  (reports, { r with world := world })

end StaffedRoster

end TaskPool
