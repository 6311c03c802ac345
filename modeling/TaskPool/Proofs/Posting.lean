import TaskPool.Proofs.Shape
import Mathlib.Data.List.Nodup

/-!
# What is asked of a ledger, and what comes of it

* `Posting`          one of the operations of a ledger, with its arguments
* `Mark`             what is seen of a task from outside: that it came, began, failed and may go on,
                     waits again, and how it ended
* `Ledger.post`      what an operation makes of a ledger, whether it applied and what is seen of it
* `Posting.Applies`  when an operation applies
* `Advance`          what a posting may do to one task
* `Ledger.advance`   and that it does nothing else, whatever task one looks at

Why `Advance` leaves out the stamps: nothing that decides how a task goes on is among them.
-/

namespace TaskPool

inductive Posting where
  | insert (id : TaskId) (terms : Terms) (now : Timestamp)
  | dispatch (id : TaskId) (worker : WorkerId)
  | start (id : TaskId) (worker : WorkerId) (now : Timestamp)
  | setTimer (id : TaskId) (timer : TimerId)
  | complete (id : TaskId) (value : Json)
  | fail (id : TaskId) (cause : FailureCause) (now : Timestamp)
  | reset (id : TaskId)
  | timeOut (id : TaskId) (attempt : UInt32)
  | cancel (id : TaskId)
  | drain (why : Failure)

/-- what is seen of a task from outside -/
inductive Mark where
  | came (terms : Terms)
  /-- an attempt began and was given a number -/
  | started (number : UInt32)
  /-- an attempt failed and is to be followed by another -/
  | failed
  | reset
  | ended (outcome : Outcome)

structure Receipt where
  ledger : Ledger
  accepted : Bool
  marks : List (TaskId × Mark)

/-- what of a task decides how it may go on -/
structure Standing where
  terms : Terms
  status : Status
  retries : UInt32
  attempt : UInt32

def Task.standing (t : Task) : Standing := ⟨t.terms, t.status, t.retries, t.attempt⟩

/-- how a task ends that has failed for the last time -/
def FailureCause.failure (attempts : UInt32) : FailureCause → Failure
  | .handler detail => .failed detail attempts
  | .crash worker detail => .workerCrashed worker detail

/-- those of a task -/
def marksOf (id : TaskId) (ms : List (TaskId × Mark)) : List Mark :=
  ms.filterMap fun m => if m.1 = id then some m.2 else none

def Consequence.mark? : Consequence → Option (TaskId × Mark)
  | .deliver id outcome => some (id, .ended outcome)
  | .disarm _ => none

def Consequence.marks (cs : List Consequence) : List (TaskId × Mark) :=
  cs.filterMap Consequence.mark?

namespace Ledger

def standing? (l : Ledger) (id : TaskId) : Option Standing := (l.find? id).map Task.standing

def refused (l : Ledger) : Receipt := ⟨l, false, []⟩

/-- what comes of a posting; an end is seen by the outcome that is delivered -/
def post (l : Ledger) : Posting → Receipt
  | .insert id terms now => ⟨l.insert (.new id terms now), true, [(id, .came terms)]⟩
  | .dispatch id worker => ⟨l.markDispatched id worker, l.contains id, []⟩
  | .start id worker now =>
    match (l.startAttempt id worker now).unchecked with
    | some (attempt, ledger) => ⟨ledger, true, [(id, .started attempt.number)]⟩
    | none => l.refused
  | .setTimer id timer =>
    ⟨(l.setTimer id timer).1, l.contains id, Consequence.marks (l.setTimer id timer).2⟩
  | .complete id value =>
    match l.complete id value with
    | some (ledger, cs) => ⟨ledger, true, Consequence.marks cs⟩
    | none => l.refused
  | .fail id cause now =>
    match (l.fail id cause now).unchecked with
    | some (.retry _, ledger, cs) => ⟨ledger, true, (id, .failed) :: Consequence.marks cs⟩
    | some (.exhausted, ledger, cs) => ⟨ledger, true, Consequence.marks cs⟩
    | none => l.refused
  | .reset id =>
    match l.resetForRetry id with
    | some (_, ledger) => ⟨ledger, true, [(id, .reset)]⟩
    | none => l.refused
  | .timeOut id attempt =>
    match l.timeOut id attempt with
    | some (_, ledger, cs) => ⟨ledger, true, Consequence.marks cs⟩
    | none => l.refused
  | .cancel id =>
    let (outcome, ledger, cs) := l.cancel id
    ⟨ledger, outcome == .cancelled, Consequence.marks cs⟩
  | .drain why => ⟨(l.drain why).1, true, Consequence.marks (l.drain why).2⟩

end Ledger

/-- when an operation applies -/
def Posting.Applies (l : Ledger) : Posting → Prop
  | .insert .. | .drain _ => True
  | .dispatch id _ | .setTimer id _ => ∃ t, l.find? id = some t
  | .start id .. => ∃ t, l.find? id = some t ∧ t.status = .queued
  | .complete id _ | .fail id .. => ∃ t, l.find? id = some t ∧ t.status ≠ .retrying
  | .reset id => ∃ t, l.find? id = some t ∧ t.status = .retrying
  | .timeOut id attempt =>
    ∃ t, l.find? id = some t ∧ t.status = .running ∧ t.attempt = attempt
  | .cancel id => ∃ t, l.find? id = some t ∧ t.status.isTerminal = false

/-- a posting that ends a task, and the outcome -/
inductive Closes (id : TaskId) (s : Standing) : Posting → Outcome → Prop where
  | completed (value : Json) :
      s.status ≠ .retrying → Closes id s (.complete id value) (.ok value)
  | exhausted (cause : FailureCause) (now : Timestamp) :
      s.status ≠ .retrying → ¬ s.retries < s.terms.maxRetries →
      Closes id s (.fail id cause now) (.error (cause.failure (s.retries + 1)))
  | timedOut :
      s.status = .running → Closes id s (.timeOut id s.attempt) (.error (.timeout s.terms.timeout))
  | cancelled : Closes id s (.cancel id) (.error .cancelled)
  | drained (why : Failure) : Closes id s (.drain why) (.error why)

/-- what a posting does to one task, and what is seen of it -/
inductive Advance (id : TaskId) :
    Posting → Option Standing → List Mark → Option Standing → Prop where
  | still (p : Posting) (o : Option Standing) : Advance id p o [] o
  | came (terms : Terms) (now : Timestamp) :
      Advance id (.insert id terms now) none [.came terms] (some ⟨terms, .queued, 0, 0⟩)
  | started {s : Standing} (worker : WorkerId) (now : Timestamp) :
      s.status = .queued →
      Advance id (.start id worker now) (some s) [.started (s.attempt + 1)]
        (some
          { s with
            status := .running
            attempt := s.attempt + 1 })
  | failed {s : Standing} (cause : FailureCause) (now : Timestamp) :
      s.status ≠ .retrying → s.retries < s.terms.maxRetries →
      Advance id (.fail id cause now) (some s) [.failed]
        (some
          { s with
            status := .retrying
            retries := s.retries + 1 })
  | reset {s : Standing} :
      s.status = .retrying →
      Advance id (.reset id) (some s) [.reset] (some { s with status := .queued })
  | ended {s : Standing} {p : Posting} {outcome : Outcome} :
      Closes id s p outcome → Advance id p (some s) [.ended outcome] none

/-! ## what is seen -/

section
variable {id : TaskId} {ms : List (TaskId × Mark)}

theorem marksOf_append (id : TaskId) (ms ns : List (TaskId × Mark)) :
    marksOf id (ms ++ ns) = marksOf id ms ++ marksOf id ns := List.filterMap_append

theorem marksOf_cons_self (mark : Mark) (ms : List (TaskId × Mark)) :
    marksOf id ((id, mark) :: ms) = mark :: marksOf id ms := List.filterMap_cons_some (if_pos rfl)

theorem marksOf_cons_of_ne {m : TaskId × Mark} (h : m.1 ≠ id) (ms : List (TaskId × Mark)) :
    marksOf id (m :: ms) = marksOf id ms := List.filterMap_cons_none (if_neg h)

theorem marksOf_eq_nil (h : ∀ m ∈ ms, m.1 ≠ id) : marksOf id ms = [] :=
  List.filterMap_eq_nil_iff.mpr fun m hm => if_neg (h m hm)

theorem marks_append (xs ys : List Consequence) :
    Consequence.marks (xs ++ ys) = Consequence.marks xs ++ Consequence.marks ys :=
  List.filterMap_append

theorem marks_disarm (t : Task) : Consequence.marks t.disarm = [] := by
  unfold Task.disarm
  cases t.timer <;> rfl

theorem marks_resolve (t : Task) (outcome : Outcome) :
    Consequence.marks (t.resolve outcome) = [(t.id, .ended outcome)] := by
  rw [Task.resolve, marks_append, marks_disarm]
  rfl

theorem Task.failure_eq (t : Task) (cause : FailureCause) :
    (t.failure cause).unchecked = cause.failure (t.retries + 1) := by
  cases cause <;> rfl

end

namespace Ledger

variable {l : Ledger} {id : TaskId} {t : Task}

theorem standing?_of_find? (h : l.find? id = some t) : l.standing? id = some t.standing := by
  rw [standing?, h]
  rfl

theorem standing?_eq_some {s : Standing} :
    l.standing? id = some s ↔ ∃ t, l.find? id = some t ∧ t.standing = s := Option.map_eq_some_iff

theorem standing?_eq_none : l.standing? id = none ↔ l.find? id = none := Option.map_eq_none_iff

/-- a task that is drained hears of it once -/
theorem marksOf_drain (hd : l.ids.Nodup) (why : Failure) (id : TaskId) :
    marksOf id (Consequence.marks (l.drain why).2)
      = (l.find? id).toList.map fun _ => .ended (.error why) := by
  obtain ⟨ts⟩ := l
  show marksOf id (Consequence.marks (ts.flatMap fun t => t.resolve (.error why)))
    = (ts.find? fun t => t.id == id).toList.map fun _ => .ended (.error why)
  have hall : Consequence.marks (ts.flatMap fun t => t.resolve (.error why))
      = ts.map fun t => (t.id, .ended (.error why)) := by
    clear hd
    induction ts with
    | nil => rfl
    | cons t ts ih =>
      rw [List.flatMap_cons, marks_append, marks_resolve, ih]
      rfl
  rw [hall]
  clear hall
  induction ts with
  | nil => rfl
  | cons t ts ih =>
    have hout : t.id ∉ ts.map Task.id := (List.nodup_cons.mp hd).1
    rw [List.map_cons, List.find?_cons]
    by_cases ht : t.id = id
    · subst ht
      rw [marksOf_cons_self, marksOf_eq_nil, beq_self_eq_true]
      · rfl
      · intro m hm
        obtain ⟨u, hu, rfl⟩ := List.mem_map.mp hm
        exact fun he => hout (he ▸ List.mem_map_of_mem hu)
    · rw [marksOf_cons_of_ne ht, ih (List.nodup_cons.mp hd).2, beq_false_of_ne ht]

theorem standing?_modify {f : Task → Task} (hf : ∀ t, (f t).id = t.id) (a b : TaskId) :
    (l.modify a f).standing? b
      = if b = a then (l.find? b).map fun t => (f t).standing else l.standing? b := by
  rw [standing?, find?_modify l f hf]
  split
  · rw [Option.map_map]
    rfl
  · rfl

theorem standing?_erase (a b : TaskId) :
    (l.erase a).standing? b = if b = a then none else l.standing? b := by
  rw [standing?, find?_erase]
  split <;> rfl

theorem modify_of_absent (h : l.find? id = none) (f : Task → Task) : l.modify id f = l := by
  have hout := find?_eq_none.mp h
  have hkeep : l.tasks.map (fun t => if t.id = id then f t else t) = l.tasks := by
    refine (List.map_congr_left fun t ht => if_neg ?_).trans (List.map_id _)
    rintro rfl
    exact hout (List.mem_map_of_mem ht)
  show (⟨_⟩ : Ledger) = l
  rw [hkeep]

/-! ## what an operation does -/

/-- the receipt of a posting is of one of these forms -/
inductive Outturn (l : Ledger) (p : Posting) : Receipt → Prop where
  | refused : ¬ p.Applies l → Outturn l p l.refused
  /-- something is noted of a task, and its standing is the same -/
  | noted (id : TaskId) (f : Task → Task) :
      p.Applies l → (∀ t, (f t).id = t.id) → (∀ t, (f t).standing = t.standing) →
      Outturn l p ⟨l.modify id f, true, []⟩
  | moved {id : TaskId} {t : Task} (f : Task → Task) (mark : Mark) :
      p.Applies l → (∀ t, (f t).id = t.id) → l.find? id = some t →
      Advance id p (some t.standing) [mark] (some (f t).standing) →
      Outturn l p ⟨l.modify id f, true, [(id, mark)]⟩
  | closed {id : TaskId} {t : Task} (outcome : Outcome) :
      p.Applies l → l.find? id = some t → Closes id t.standing p outcome →
      Outturn l p ⟨l.erase id, true, [(id, .ended outcome)]⟩
  | inserted (id : TaskId) (terms : Terms) (now : Timestamp) :
      p = .insert id terms now →
      Outturn l p ⟨l.insert (.new id terms now), true, [(id, .came terms)]⟩
  | drained (why : Failure) :
      p = .drain why → Outturn l p ⟨.empty, true, Consequence.marks (l.drain why).2⟩

theorem not_exists_of_none {P : Task → Prop} (hl : l.find? id = none) :
    ¬ ∃ t, l.find? id = some t ∧ P t := by
  rintro ⟨t, ht, -⟩
  exact absurd (hl.symm.trans ht) nofun

theorem not_exists_of_some {P : Task → Prop} (ht : l.find? id = some t) (h : ¬ P t) :
    ¬ ∃ t, l.find? id = some t ∧ P t := by
  rintro ⟨u, hu, hp⟩
  cases ht.symm.trans hu
  exact h hp

theorem outturn_dispatch (id : TaskId) (worker : WorkerId) :
    Outturn l (.dispatch id worker) (l.post (.dispatch id worker)) := by
  cases ht : l.find? id with
  | none =>
    have hout : l.contains id = false :=
      Bool.eq_false_iff.mpr fun h => find?_eq_none.mp ht (contains_iff.mp h)
    rw [post, markDispatched, modify_of_absent ht, hout]
    refine .refused fun ⟨t, h⟩ => ?_
    exact absurd (ht.symm.trans h) nofun
  | some t =>
    rw [post, contains_iff.mpr (mem_ids ht)]
    exact .noted id _ ⟨t, ht⟩ (fun _ => rfl) fun _ => rfl

theorem outturn_setTimer (id : TaskId) (timer : TimerId) :
    Outturn l (.setTimer id timer) (l.post (.setTimer id timer)) := by
  cases ht : l.find? id with
  | none =>
    have hout : l.contains id = false :=
      Bool.eq_false_iff.mpr fun h => find?_eq_none.mp ht (contains_iff.mp h)
    simp only [post, setTimer, ht, hout]
    refine .refused fun ⟨t, h⟩ => ?_
    exact absurd (ht.symm.trans h) nofun
  | some t =>
    simp only [post, setTimer, ht, contains_iff.mpr (mem_ids ht), marks_disarm]
    exact .noted id _ ⟨t, ht⟩ (fun _ => rfl) fun _ => rfl

theorem outturn_start (id : TaskId) (worker : WorkerId) (now : Timestamp) :
    Outturn l (.start id worker now) (l.post (.start id worker now)) := by
  cases ht : l.find? id with
  | none =>
    simp only [post, startAttempt, ht, Overflowing.unchecked_exact]
    exact .refused fun h => not_exists_of_none ht h
  | some t =>
    simp only [post, startAttempt, ht]
    by_cases hs : t.status = .queued
    · simp only [hs, if_true, Overflowing.unchecked_map, Overflowing.unchecked_succ]
      exact .moved _ _ ⟨t, ht, hs⟩ (fun _ => rfl) ht (.started worker now hs)
    · simp only [hs, if_false, Overflowing.unchecked_exact]
      exact .refused fun h => not_exists_of_some ht hs h

theorem outturn_complete (id : TaskId) (value : Json) :
    Outturn l (.complete id value) (l.post (.complete id value)) := by
  cases ht : l.find? id with
  | none =>
    simp only [post, complete, ht]
    exact .refused fun h => not_exists_of_none ht h
  | some t =>
    simp only [post, complete, ht]
    by_cases hs : t.status = .retrying
    · simp only [hs, if_true]
      exact .refused fun h => not_exists_of_some ht (fun hne => hne hs) h
    · simp only [hs, if_false, marks_resolve, id_of_find? ht]
      exact .closed _ ⟨t, ht, hs⟩ ht (.completed value hs)

theorem fail_of_find? (ht : l.find? id = some t) (cause : FailureCause) (now : Timestamp) :
    (l.fail id cause now).unchecked =
      if t.status = .retrying then none
      else if t.retries < t.terms.maxRetries then
        some (.retry t.terms.retryDelay, l.modify id (Pool.retryLater cause now none), t.disarm)
      else some (.exhausted, l.erase id, t.resolve (.error (t.failure cause).unchecked)) := by
  rw [fail, ht]
  dsimp only
  split <;> rfl

theorem outturn_fail (id : TaskId) (cause : FailureCause) (now : Timestamp) :
    Outturn l (.fail id cause now) (l.post (.fail id cause now)) := by
  cases ht : l.find? id with
  | none =>
    simp only [post, fail, ht, Overflowing.unchecked_exact]
    exact .refused fun h => not_exists_of_none ht h
  | some t =>
    simp only [post, fail_of_find? ht]
    by_cases hs : t.status = .retrying
    · simp only [hs, if_true]
      exact .refused fun h => not_exists_of_some ht (fun hne => hne hs) h
    · by_cases hr : t.retries < t.terms.maxRetries
      · simp only [hs, hr, if_true, if_false, marks_disarm]
        exact .moved _ _ ⟨t, ht, hs⟩ (fun _ => rfl) ht (.failed cause now hs hr)
      · simp only [hs, hr, if_false, marks_resolve, id_of_find? ht, Task.failure_eq]
        exact .closed _ ⟨t, ht, hs⟩ ht (.exhausted cause now hs hr)

theorem outturn_reset (id : TaskId) : Outturn l (.reset id) (l.post (.reset id)) := by
  cases ht : l.find? id with
  | none =>
    simp only [post, resetForRetry, ht]
    exact .refused fun h => not_exists_of_none ht h
  | some t =>
    simp only [post, resetForRetry, ht]
    by_cases hs : t.status = .retrying
    · simp only [hs, if_true]
      exact .moved _ _ ⟨t, ht, hs⟩ (fun _ => rfl) ht (.reset hs)
    · simp only [hs, if_false]
      exact .refused fun h => not_exists_of_some ht hs h

theorem outturn_timeOut (id : TaskId) (attempt : UInt32) :
    Outturn l (.timeOut id attempt) (l.post (.timeOut id attempt)) := by
  cases ht : l.find? id with
  | none =>
    simp only [post, timeOut, ht]
    exact .refused fun h => not_exists_of_none ht h
  | some t =>
    simp only [post, timeOut, ht]
    by_cases hs : t.status = .running ∧ t.attempt = attempt
    · obtain ⟨hrunning, rfl⟩ := hs
      simp only [hrunning, and_self, if_true]
      have hid := id_of_find? ht
      subst hid
      exact .closed _ ⟨t, ht, hrunning, rfl⟩ ht (.timedOut hrunning)
    · simp only [hs, if_false]
      exact .refused fun h => not_exists_of_some ht hs h

theorem outturn_cancel (id : TaskId) : Outturn l (.cancel id) (l.post (.cancel id)) := by
  cases ht : l.find? id with
  | none =>
    simp only [post, cancel, ht]
    exact .refused fun h => not_exists_of_none ht h
  | some t =>
    simp only [post, cancel, ht]
    cases hs : t.status.isTerminal with
    | true =>
      simp only [if_true]
      exact .refused fun h => not_exists_of_some ht (by rw [hs]; exact nofun) h
    | false =>
      simp only [Bool.false_eq_true, if_false, marks_resolve, id_of_find? ht]
      exact .closed _ ⟨t, ht, hs⟩ ht .cancelled

/-- **what any operation does** -/
theorem outturn (l : Ledger) (p : Posting) : Outturn l p (l.post p) := by
  cases p with
  | insert id terms now => exact .inserted id terms now rfl
  | dispatch id worker => exact outturn_dispatch id worker
  | start id worker now => exact outturn_start id worker now
  | setTimer id timer => exact outturn_setTimer id timer
  | complete id value => exact outturn_complete id value
  | fail id cause now => exact outturn_fail id cause now
  | reset id => exact outturn_reset id
  | timeOut id attempt => exact outturn_timeOut id attempt
  | cancel id => exact outturn_cancel id
  | drain why => exact .drained why rfl

/-- an operation that does not apply leaves no trace, and one that applies is answered so -/
theorem post_refused {p : Posting} (h : (l.post p).accepted = false) :
    (l.post p).ledger = l ∧ (l.post p).marks = [] := by
  have hr := l.outturn p
  generalize l.post p = r at *
  cases hr with
  | refused => exact ⟨rfl, rfl⟩
  | noted | moved | closed | inserted | drained => cases h

theorem accepted_iff (p : Posting) : (l.post p).accepted = true ↔ p.Applies l := by
  have hr := l.outturn p
  generalize l.post p = r at *
  cases hr with
  | refused hno => exact iff_of_false nofun hno
  | noted id f h => exact iff_of_true rfl h
  | moved f mark h => exact iff_of_true rfl h
  | closed outcome h => exact iff_of_true rfl h
  | inserted id terms now hp => exact iff_of_true rfl (by rw [hp]; trivial)
  | drained why hp => exact iff_of_true rfl (by rw [hp]; trivial)

theorem nodup_post (hd : l.ids.Nodup) {p : Posting}
    (hnew : ∀ id terms now, p = .insert id terms now → l.find? id = none) :
    (l.post p).ledger.ids.Nodup := by
  have hr := l.outturn p
  generalize l.post p = r at *
  cases hr with
  | refused => exact hd
  | noted id f _ hf | moved f mark _ hf =>
    rw [ids_modify l f hf]
    exact hd
  | closed =>
    rw [ids_erase]
    exact hd.filter _
  | inserted id terms now hp =>
    rw [ids_insert]
    refine List.nodup_append.mpr ⟨hd, List.nodup_singleton _, ?_⟩
    rintro x hx y hy rfl
    rw [List.mem_singleton.mp hy] at hx
    exact find?_eq_none.mp (hnew id terms now hp) hx
  | drained => exact List.nodup_nil

/-- **what a posting does to each task** -/
theorem advance (hd : l.ids.Nodup) {p : Posting}
    (hnew : ∀ id terms now, p = .insert id terms now → l.find? id = none) (id : TaskId) :
    Advance id p (l.standing? id) (marksOf id (l.post p).marks)
      ((l.post p).ledger.standing? id) := by
  have hr := l.outturn p
  generalize l.post p = r at *
  cases hr with
  | refused => exact .still p _
  | noted a f _ hf hsame =>
    have hkeep : (l.modify a f).standing? id = l.standing? id := by
      rw [standing?_modify hf]
      split
      · rw [standing?]
        congr 1
        exact funext hsame
      · rfl
    dsimp only
    rw [hkeep]
    exact .still p _
  | @moved a t f mark _ hf ht h =>
    dsimp only
    rw [standing?_modify hf]
    by_cases hid : id = a
    · subst hid
      rw [if_pos rfl, standing?_of_find? ht, ht, marksOf_cons_self]
      exact h
    · rw [if_neg hid, marksOf_cons_of_ne (Ne.symm hid)]
      exact .still p _
  | @closed a t outcome _ ht h =>
    dsimp only
    rw [standing?_erase]
    by_cases hid : id = a
    · subst hid
      rw [if_pos rfl, standing?_of_find? ht, marksOf_cons_self]
      exact .ended h
    · rw [if_neg hid, marksOf_cons_of_ne (Ne.symm hid)]
      exact .still p _
  | inserted a terms now hp =>
    have hnone := hnew a terms now hp
    subst hp
    have hfind : (l.insert (.new a terms now)).find? id
        = if id = a then some (.new a terms now) else l.find? id := find?_insert l hnone id
    dsimp only
    rw [standing?, standing?, hfind]
    by_cases hid : id = a
    · subst hid
      rw [if_pos rfl, hnone, marksOf_cons_self]
      exact .came terms now
    · rw [if_neg hid, marksOf_cons_of_ne (Ne.symm hid)]
      exact .still _ _
  | drained why hp =>
    subst hp
    dsimp only
    rw [marksOf_drain hd]
    show Advance id _ (l.standing? id) _ none
    cases ht : l.find? id with
    | none =>
      rw [standing?_eq_none.mpr ht]
      exact .still _ none
    | some t =>
      rw [standing?_of_find? ht]
      exact .ended (.drained why)

end Ledger

end TaskPool
