import TaskPool.Task.Basic

/-!
# The queue of waiting tasks

* `Ticket`         a place in the queue: which task, how urgent, of which kind
* `Queue.push`     puts a ticket behind every ticket of its own or a greater priority
* `Queue.popFor`   takes the first ticket of a preferred kind, or else the first of all
* `Queue.remove`   takes the ticket of a task out
* `Queue.withdraw` does so too, and tells whether there was one

Why the queue is fair: `push` is the insertion step of a stable sort by falling priority, so
among equal priorities the tickets leave in the order they came.
-/

namespace TaskPool

structure Ticket where
  task : TaskId
  priority : Priority
  kind : Kind
  deriving DecidableEq

def Task.ticket (t : Task) : Ticket := ⟨t.id, t.terms.priority, t.terms.kind⟩

structure Queue where
  waiting : List Ticket

namespace Queue

def empty : Queue := ⟨[]⟩

/-- `t` in front of the first ticket of a lower priority -/
def place (t : Ticket) : List Ticket → List Ticket
  | [] => [t]
  | x :: xs => if x.priority.rank < t.priority.rank then t :: x :: xs else x :: place t xs

def push (q : Queue) (t : Ticket) : Queue := ⟨place t q.waiting⟩

/-- the first ticket that passes, and the queue without it -/
def takeFirst (passes : Ticket → Bool) : List Ticket → Option (Ticket × List Ticket)
  | [] => none
  | x :: xs =>
    if passes x then some (x, xs)
    else (takeFirst passes xs).map fun (t, rest) => (t, x :: rest)

/-- the kinds a worker prefers: an empty set is no preference -/
def prefers (affinity : Option KindSet) (t : Ticket) : Bool :=
  match affinity with
  | some kinds => kinds.contains t.kind
  | none => false

def popFor (q : Queue) (affinity : Option KindSet) : Option (Ticket × Queue) :=
  match takeFirst (prefers affinity) q.waiting with
  | some (t, rest) => some (t, ⟨rest⟩)
  | none =>
    match q.waiting with
    | [] => none
    | t :: rest => some (t, ⟨rest⟩)

def contains (q : Queue) (id : TaskId) : Bool := q.waiting.any fun t => t.task == id

def remove (q : Queue) (id : TaskId) : Queue := ⟨q.waiting.eraseP fun t => t.task == id⟩

/-- takes the ticket of a task out, and tells whether there was one -/
def withdraw (q : Queue) (id : TaskId) : Bool × Queue :=
  match takeFirst (fun t => t.task == id) q.waiting with
  | some (_, rest) => (true, ⟨rest⟩)
  | none => (false, q)

def size (q : Queue) : Nat := q.waiting.length

def isEmpty (q : Queue) : Bool := q.waiting.isEmpty

theorem mem_place {t x : Ticket} {xs : List Ticket} : x ∈ place t xs ↔ x = t ∨ x ∈ xs := by
  induction xs with
  | nil => simp [place]
  | cons y ys ih =>
    simp only [place]
    split
    · simp
    · simp only [List.mem_cons, ih]
      constructor
      · rintro (h | h | h) <;> simp [h]
      · rintro (h | h | h) <;> simp [h]

theorem length_place (t : Ticket) (xs : List Ticket) : (place t xs).length = xs.length + 1 := by
  induction xs with
  | nil => rfl
  | cons y ys ih =>
    simp only [place]
    split <;> simp [ih]

theorem takeFirst_eq (passes : Ticket → Bool) (xs : List Ticket) :
    takeFirst passes xs = (xs.find? passes).map fun t => (t, xs.eraseP passes) := by
  induction xs with
  | nil => rfl
  | cons x xs ih =>
    rw [takeFirst]
    split
    · rename_i hx
      rw [List.find?_cons_of_pos hx, List.eraseP_cons_of_pos hx]
      rfl
    · rename_i hx
      rw [List.find?_cons_of_neg hx, List.eraseP_cons_of_neg hx, ih, Option.map_map]
      rfl

theorem withdraw_eq (q : Queue) (id : TaskId) : q.withdraw id = (q.contains id, q.remove id) := by
  unfold withdraw contains remove
  rw [takeFirst_eq]
  cases hf : q.waiting.find? fun t => t.task == id with
  | none =>
    have hnone := List.find?_eq_none.mp hf
    rw [List.eraseP_of_forall_not hnone, List.any_eq_false.mpr hnone]
    rfl
  | some t =>
    have hany := List.any_eq_true.mpr ⟨t, List.mem_of_find?_eq_some hf, List.find?_some hf⟩
    rw [hany]
    rfl

end Queue

end TaskPool
