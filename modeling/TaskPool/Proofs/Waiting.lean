import TaskPool.Queue
import Mathlib.Data.List.Perm.Basic

/-!
# What the queue holds

The order of the queue does not matter here: every operation is told by what it adds or takes,
up to a permutation.

* `Queue.push_perm`      one ticket more
* `Queue.popFor_perm`    one ticket less, whatever the affinity
* `Queue.popFor_eq_none`   only an empty queue has nothing to give
* `Queue.mem_remove`     the tickets of the other tasks stay
-/

namespace TaskPool

namespace Queue

theorem place_perm (t : Ticket) (xs : List Ticket) : (place t xs).Perm (t :: xs) := by
  induction xs with
  | nil => exact .refl _
  | cons x xs ih =>
    rw [place]
    split
    · exact .refl _
    · exact (ih.cons x).trans (.swap t x xs)

theorem push_perm (q : Queue) (t : Ticket) : (q.push t).waiting.Perm (t :: q.waiting) :=
  place_perm t q.waiting

theorem takeFirst_perm {passes : Ticket → Bool} {xs ys : List Ticket} {t : Ticket}
    (h : takeFirst passes xs = some (t, ys)) : xs.Perm (t :: ys) := by
  induction xs generalizing ys with
  | nil => cases h
  | cons x xs ih =>
    rw [takeFirst] at h
    split at h
    · cases h
      exact .refl _
    · obtain ⟨⟨t', zs⟩, hz, he⟩ := Option.map_eq_some_iff.mp h
      cases he
      exact ((ih hz).cons x).trans (.swap t x zs)

theorem popFor_perm {q rest : Queue} {affinity : Option KindSet} {t : Ticket}
    (h : q.popFor affinity = some (t, rest)) : q.waiting.Perm (t :: rest.waiting) := by
  unfold popFor at h
  split at h
  · rename_i hf
    cases h
    exact takeFirst_perm hf
  · split at h
    · cases h
    · rename_i hq
      cases h
      rw [hq]

theorem popFor_eq_none {q : Queue} {affinity : Option KindSet} :
    q.popFor affinity = none ↔ q.waiting = [] := by
  constructor
  · intro h
    unfold popFor at h
    split at h
    · cases h
    · split at h
      · assumption
      · cases h
  · intro h
    unfold popFor
    rw [h]
    rfl

/-- the only ticket is taken, preferred or not -/
theorem popFor_singleton (t : Ticket) (affinity : Option KindSet) :
    popFor ⟨[t]⟩ affinity = some (t, ⟨[]⟩) := by
  unfold popFor takeFirst
  cases prefers affinity t <;> rfl

theorem remove_sublist (q : Queue) (id : TaskId) : (q.remove id).waiting.Sublist q.waiting :=
  List.eraseP_sublist

/-- where every task has one ticket at most, `remove` leaves those of the other tasks -/
theorem mem_remove {q : Queue} (hd : (q.waiting.map Ticket.task).Nodup) {id : TaskId}
    {t : Ticket} : t ∈ (q.remove id).waiting ↔ t ∈ q.waiting ∧ t.task ≠ id := by
  show t ∈ q.waiting.eraseP (fun t => t.task == id) ↔ _
  generalize q.waiting = xs at hd
  induction xs with
  | nil => simp
  | cons x xs ih =>
    rw [List.map_cons, List.nodup_cons] at hd
    by_cases hx : x.task = id
    · rw [List.eraseP_cons_of_pos (by simp [hx])]
      constructor
      · intro ht
        refine ⟨List.mem_cons_of_mem _ ht, fun h => hd.1 ?_⟩
        rw [hx, ← h]
        exact List.mem_map_of_mem ht
      · rintro ⟨ht, hne⟩
        rcases List.mem_cons.mp ht with rfl | ht
        · exact absurd hx hne
        · exact ht
    · rw [List.eraseP_cons_of_neg (by simp [hx]), List.mem_cons, List.mem_cons, ih hd.2]
      constructor
      · rintro (rfl | ⟨ht, hne⟩)
        · exact ⟨.inl rfl, hx⟩
        · exact ⟨.inr ht, hne⟩
      · rintro ⟨rfl | ht, hne⟩
        · exact .inl rfl
        · exact .inr ⟨ht, hne⟩

end Queue

end TaskPool
