import TaskPool.Proofs.Precedence
import Mathlib.Data.List.Induction
import Mathlib.Data.List.Nodup

/-!
# The queue as a list that is sorted again and again

A `Turnstile` is a queue together with what can be seen of it from outside: which tickets came, and
the tickets of which tasks left.

* `Ticket.asUrgentAs`      the order by falling priority, in which tickets of one priority are alike
* `eq_of_priorities`       a list in this order is known by what it has of each priority
* `Queue.place_mergeSort`  a ticket that is put in stands where a stable sort puts it if it came
                           last
* `Queue.popFor_eq`        the ticket that is taken, and the tickets that stay
* `Turnstile.Sound`        the queue is the sorted list of those who came and have not left
* `Turnstile.refines`      this and what each request is answered, whatever was asked before

Why the sort may be forgotten: of one priority, sorting leaves the tickets as they came, and so does
every operation of the queue, and lists in order of priority cannot differ in anything else.
-/

namespace TaskPool

/-! ## sorted by falling priority -/

/-- `a` is as urgent as `b`, or more so -/
def Ticket.asUrgentAs (a b : Ticket) : Bool := decide (b.priority.rank ≤ a.priority.rank)

namespace Ticket

theorem asUrgentAs_iff {a b : Ticket} :
    a.asUrgentAs b = true ↔ b.priority.rank ≤ a.priority.rank := decide_eq_true_iff

theorem asUrgentAs_trans (a b c : Ticket) (hab : a.asUrgentAs b = true)
    (hbc : b.asUrgentAs c = true) : a.asUrgentAs c = true := by
  rw [asUrgentAs_iff] at *
  exact Nat.le_trans hbc hab

theorem asUrgentAs_total (a b : Ticket) : (a.asUrgentAs b || b.asUrgentAs a) = true := by
  rw [Bool.or_eq_true, asUrgentAs_iff, asUrgentAs_iff]
  exact Nat.le_total _ _

/-- what a list has of a priority -/
def ofPriority (p : Priority) (ts : List Ticket) : List Ticket :=
  ts.filter fun t => decide (t.priority = p)

variable {x y t : Ticket} {xs ys : List Ticket} {p : Priority}

theorem mem_ofPriority : t ∈ ofPriority p xs ↔ t ∈ xs ∧ t.priority = p := by
  simp [ofPriority]

theorem ofPriority_cons_self (t : Ticket) (xs : List Ticket) :
    ofPriority t.priority (t :: xs) = t :: ofPriority t.priority xs := by
  simp [ofPriority]

theorem ofPriority_cons_of_ne (h : t.priority ≠ p) (xs : List Ticket) :
    ofPriority p (t :: xs) = ofPriority p xs := by
  simp [ofPriority, h]

theorem ofPriority_append (p : Priority) (xs ys : List Ticket) :
    ofPriority p (xs ++ ys) = ofPriority p xs ++ ofPriority p ys := List.filter_append ..

theorem ofPriority_filter (p : Priority) (f : Ticket → Bool) (xs : List Ticket) :
    ofPriority p (xs.filter f) = (ofPriority p xs).filter f := by
  rw [ofPriority, ofPriority, List.filter_filter, List.filter_filter]
  exact List.filter_congr fun t _ => Bool.and_comm ..

/-- a sorted list starts with the greatest priority in it -/
theorem rank_le_of_mem (hy : (y :: ys).Pairwise fun a b => a.asUrgentAs b = true)
    (hx : x ∈ y :: ys) : x.priority.rank ≤ y.priority.rank := by
  rcases List.mem_cons.mp hx with rfl | hx
  · exact Nat.le_refl _
  · exact asUrgentAs_iff.mp ((List.pairwise_cons.mp hy).1 x hx)

/-- **a sorted list is known by what it has of each priority** -/
theorem eq_of_priorities (hx : xs.Pairwise fun a b => a.asUrgentAs b = true)
    (hy : ys.Pairwise fun a b => a.asUrgentAs b = true)
    (h : ∀ p, ofPriority p xs = ofPriority p ys) : xs = ys := by
  have hmem (t : Ticket) : t ∈ xs ↔ t ∈ ys := by
    have ht := congrArg (t ∈ ·) (h t.priority)
    simpa [mem_ofPriority] using ht
  induction xs generalizing ys with
  | nil =>
    refine (List.eq_nil_iff_forall_not_mem.mpr fun t ht => ?_).symm
    exact List.not_mem_nil ((hmem t).mpr ht)
  | cons x xs ih =>
    cases ys with
    | nil => exact absurd ((hmem x).mp (List.mem_cons_self ..)) List.not_mem_nil
    | cons y ys =>
      have hle := rank_le_of_mem hy ((hmem x).mp (List.mem_cons_self ..))
      have hge := rank_le_of_mem hx ((hmem y).mpr (List.mem_cons_self ..))
      have hp : y.priority = x.priority := Priority.rank_injective (Nat.le_antisymm hge hle)
      -- the heads have one priority, so they are the first of that priority in both lists
      have hheads := h x.priority
      rw [ofPriority_cons_self, ← hp, ofPriority_cons_self] at hheads
      obtain ⟨rfl, htails⟩ := List.cons.inj hheads
      have hrest (p : Priority) : ofPriority p xs = ofPriority p ys := by
        by_cases hxp : x.priority = p
        · rw [← hxp]
          exact htails
        · have hsame := h p
          rwa [ofPriority_cons_of_ne hxp, ofPriority_cons_of_ne hxp] at hsame
      rw [ih hx.of_cons hy.of_cons hrest fun t => ?_]
      have ht := congrArg (t ∈ ·) (hrest t.priority)
      simpa [mem_ofPriority] using ht

theorem sorted_mergeSort (ts : List Ticket) :
    (ts.mergeSort asUrgentAs).Pairwise fun a b => a.asUrgentAs b = true :=
  List.pairwise_mergeSort asUrgentAs_trans asUrgentAs_total ts

/-- sorting leaves the tickets of one priority as they came -/
theorem ofPriority_mergeSort (p : Priority) (ts : List Ticket) :
    ofPriority p (ts.mergeSort asUrgentAs) = ofPriority p ts := by
  have halike : (ofPriority p ts).Pairwise fun a b => a.asUrgentAs b = true := by
    refine List.pairwise_of_forall_mem_list fun a ha b hb => ?_
    have hsame : b.priority = a.priority :=
      (mem_ofPriority.mp hb).2.trans (mem_ofPriority.mp ha).2.symm
    exact asUrgentAs_iff.mpr (Nat.le_of_eq (congrArg Priority.rank hsame))
  have hsub : (ofPriority p ts).Sublist (ts.mergeSort asUrgentAs) :=
    List.sublist_mergeSort asUrgentAs_trans asUrgentAs_total halike List.filter_sublist
  have hkept : (ofPriority p ts).Sublist (ofPriority p (ts.mergeSort asUrgentAs)) := by
    have hall : ofPriority p (ofPriority p ts) = ofPriority p ts :=
      List.filter_eq_self.mpr fun t ht => decide_eq_true (mem_ofPriority.mp ht).2
    rw [← hall]
    exact hsub.filter _
  exact (hkept.eq_of_length ((List.mergeSort_perm ts _).filter _).length_eq.symm).symm

/-- it makes no difference whether tickets go before or after sorting -/
theorem filter_mergeSort (f : Ticket → Bool) (ts : List Ticket) :
    (ts.mergeSort asUrgentAs).filter f = (ts.filter f).mergeSort asUrgentAs := by
  refine eq_of_priorities ((sorted_mergeSort ts).filter f) (sorted_mergeSort _) fun p => ?_
  rw [ofPriority_mergeSort, ofPriority_filter, ofPriority_filter, ofPriority_mergeSort]

end Ticket

/-! ## what the operations do -/

namespace Queue

open Ticket

variable {q rest : Queue} {affinity : Option KindSet} {t x : Ticket} {xs : List Ticket}

theorem sorted_place (h : xs.Pairwise fun a b => a.asUrgentAs b = true) :
    (place t xs).Pairwise fun a b => a.asUrgentAs b = true := by
  induction xs with
  | nil => exact List.pairwise_singleton _ t
  | cons x xs ih =>
    obtain ⟨hx, hxs⟩ := List.pairwise_cons.mp h
    rw [place]
    split
    · rename_i hlt
      refine List.pairwise_cons.mpr ⟨fun y hy => asUrgentAs_iff.mpr ?_, h⟩
      exact Nat.le_trans (rank_le_of_mem h hy) (Nat.le_of_lt hlt)
    · rename_i hle
      refine List.pairwise_cons.mpr ⟨fun y hy => ?_, ih hxs⟩
      rcases mem_place.mp hy with rfl | hy
      · exact asUrgentAs_iff.mpr (Nat.le_of_not_lt hle)
      · exact hx y hy

/-- a ticket comes last of its priority -/
theorem ofPriority_place (h : xs.Pairwise fun a b => a.asUrgentAs b = true) (p : Priority) :
    ofPriority p (place t xs) = ofPriority p (xs ++ [t]) := by
  induction xs with
  | nil => rfl
  | cons x xs ih =>
    rw [place]
    split
    · rename_i hlt
      by_cases hp : t.priority = p
      · have hnone : ofPriority p (x :: xs) = [] := by
          refine List.eq_nil_iff_forall_not_mem.mpr fun y hy => ?_
          obtain ⟨hmem, hyp⟩ := mem_ofPriority.mp hy
          have hle := rank_le_of_mem h hmem
          rw [hyp, ← hp] at hle
          omega
        subst hp
        rw [ofPriority_cons_self, ofPriority_append, hnone]
        exact (ofPriority_cons_self t []).symm
      · rw [ofPriority_cons_of_ne hp, ofPriority_append, ofPriority_cons_of_ne hp]
        exact (List.append_nil _).symm
    · have hrest := ih h.of_cons
      rw [List.cons_append]
      by_cases hp : x.priority = p
      · subst hp
        rw [ofPriority_cons_self, ofPriority_cons_self, hrest]
      · rw [ofPriority_cons_of_ne hp, ofPriority_cons_of_ne hp, hrest]

/-- **to put a ticket in is to sort again with the ticket at the end** -/
theorem place_mergeSort (t : Ticket) (ts : List Ticket) :
    place t (ts.mergeSort asUrgentAs) = (ts ++ [t]).mergeSort asUrgentAs := by
  refine eq_of_priorities (sorted_place (sorted_mergeSort ts)) (sorted_mergeSort _) fun p => ?_
  rw [ofPriority_place (sorted_mergeSort ts), ofPriority_mergeSort, ofPriority_append,
    ofPriority_append, ofPriority_mergeSort]

/-- the first ticket that is preferred, or else the first of all -/
theorem popFor_fst (q : Queue) (affinity : Option KindSet) :
    (q.popFor affinity).map Prod.fst =
      (q.waiting.find? (prefers affinity)).or q.waiting.head? := by
  unfold popFor
  rw [takeFirst_eq]
  cases q.waiting.find? (prefers affinity) with
  | some t => rfl
  | none =>
    cases q.waiting with
    | nil => rfl
    | cons t ts => rfl

theorem popFor_fst_of_indifferent (h : ∀ t ∈ q.waiting, prefers affinity t = false) :
    (q.popFor affinity).map Prod.fst = q.waiting.head? := by
  have hnone : q.waiting.find? (prefers affinity) = none :=
    List.find?_eq_none.mpr fun t ht => Bool.eq_false_iff.mp (h t ht)
  rw [popFor_fst, hnone, Option.none_or]

/-- the others stay, in their order -/
theorem popFor_rest (hd : (q.waiting.map Ticket.task).Nodup)
    (h : q.popFor affinity = some (t, rest)) :
    t ∈ q.waiting ∧ rest.waiting = q.waiting.filter fun x => decide (x.task ≠ t.task) := by
  obtain ⟨before, after, hq, hr, -, -⟩ := popFor_split h
  rw [hq] at hd ⊢
  have hother : ∀ x ∈ before ++ after, x.task ≠ t.task := by
    have hnodup := (List.perm_middle.map Ticket.task).nodup_iff.mp hd
    intro x hx he
    rw [List.map_cons, List.nodup_cons, ← he] at hnodup
    exact hnodup.1 (List.mem_map_of_mem hx)
  refine ⟨List.mem_append_right _ (List.mem_cons_self ..), ?_⟩
  rw [hr, List.filter_append, List.filter_cons_of_neg (by simp), ← List.filter_append]
  exact (List.filter_eq_self.mpr fun x hx => decide_eq_true (hother x hx)).symm

theorem remove_rest (hd : (q.waiting.map Ticket.task).Nodup) (id : TaskId) :
    (q.remove id).waiting = q.waiting.filter fun x => decide (x.task ≠ id) := by
  show q.waiting.eraseP _ = _
  generalize q.waiting = xs at hd
  induction xs with
  | nil => rfl
  | cons x xs ih =>
    rw [List.map_cons, List.nodup_cons] at hd
    by_cases hx : x.task = id
    · rw [List.eraseP_cons_of_pos (by simp [hx]), List.filter_cons_of_neg (by simp [hx])]
      refine (List.filter_eq_self.mpr fun y hy => decide_eq_true ?_).symm
      rintro rfl
      exact hd.1 (hx ▸ List.mem_map_of_mem hy)
    · rw [List.eraseP_cons_of_neg (by simp [hx]), List.filter_cons_of_pos (by simp [hx]), ih hd.2]

theorem contains_iff_mem {id : TaskId} : q.contains id = true ↔ id ∈ q.waiting.map Ticket.task := by
  simp [contains]

end Queue

/-! ## the queue as it is seen from outside -/

/-- what can be asked of a queue -/
inductive Visit where
  | push (t : Ticket)
  | pop (affinity : Option KindSet)
  | remove (id : TaskId)
  | clear

def Visit.ticket? : Visit → Option Ticket
  | .push t => some t
  | _ => none

structure Turnstile where
  queue : Queue
  /-- in the order in which they came -/
  came : List Ticket
  /-- in the order in which they left -/
  left : List TaskId

namespace Turnstile

/-- those who came and have not left -/
def inside (s : Turnstile) : List Ticket := s.came.filter fun t => decide (t.task ∉ s.left)

/-- what is asked of the queue, and who is seen to come or leave by it: what `popFor` gives has
left, a task that `withdraw` tells of has, and after a `clear` everybody has -/
def visit (s : Turnstile) : Visit → Turnstile
  | .push t =>
    { s with
      queue := s.queue.push t
      came := s.came ++ [t] }
  | .pop affinity =>
    match s.queue.popFor affinity with
    | some (t, rest) =>
      { s with
        queue := rest
        left := s.left ++ [t.task] }
    | none => s
  | .remove id =>
    { s with
      queue := (s.queue.withdraw id).2
      left := if (s.queue.withdraw id).1 then s.left ++ [id] else s.left }
  | .clear =>
    { s with
      queue := .empty
      left := s.left ++ s.inside.map Ticket.task }

/-- an empty queue after some requests -/
def after (vs : List Visit) : Turnstile := vs.foldl visit ⟨.empty, [], []⟩

/-- the tickets that are put in -/
def pushed (vs : List Visit) : List Ticket := vs.filterMap Visit.ticket?

variable {s : Turnstile} {vs : List Visit} {v : Visit} {id : TaskId} {t : Ticket}

theorem after_snoc (vs : List Visit) (v : Visit) : after (vs ++ [v]) = (after vs).visit v :=
  List.foldl_concat ..

theorem came_visit (s : Turnstile) (v : Visit) : (s.visit v).came = s.came ++ v.ticket?.toList := by
  cases v with
  | push t => rfl
  | remove | clear => exact (List.append_nil _).symm
  | pop affinity =>
    unfold visit
    dsimp only
    split <;> exact (List.append_nil _).symm

theorem came_after (vs : List Visit) : (after vs).came = pushed vs := by
  induction vs using List.reverseRecOn with
  | nil => rfl
  | append_singleton vs v ih =>
    rw [after_snoc, came_visit, ih, pushed, pushed, List.filterMap_append]
    congr 1

theorem mem_inside_map :
    id ∈ s.inside.map Ticket.task ↔ id ∈ s.came.map Ticket.task ∧ id ∉ s.left := by
  unfold inside
  constructor
  · intro h
    obtain ⟨t, ht, rfl⟩ := List.mem_map.mp h
    obtain ⟨hcame, hleft⟩ := List.mem_filter.mp ht
    exact ⟨List.mem_map_of_mem hcame, of_decide_eq_true hleft⟩
  · rintro ⟨hcame, hleft⟩
    obtain ⟨t, ht, rfl⟩ := List.mem_map.mp hcame
    exact List.mem_map_of_mem (List.mem_filter.mpr ⟨ht, decide_eq_true hleft⟩)

/-! ## the queue is a sorted list -/

/-- the queue is the sorted list of those inside; everybody who left had come, and left once -/
structure Sound (s : Turnstile) : Prop where
  waiting : s.queue.waiting = s.inside.mergeSort Ticket.asUrgentAs
  came : ∀ id ∈ s.left, id ∈ s.came.map Ticket.task
  once : s.left.Nodup

namespace Sound

variable (h : s.Sound)
include h

theorem perm : s.queue.waiting.Perm s.inside := by
  rw [h.waiting]
  exact List.mergeSort_perm _ _

theorem mem_waiting_map : id ∈ s.queue.waiting.map Ticket.task ↔ id ∈ s.inside.map Ticket.task :=
  (h.perm.map Ticket.task).mem_iff

theorem nodup (hd : (s.came.map Ticket.task).Nodup) : (s.queue.waiting.map Ticket.task).Nodup := by
  refine (h.perm.map Ticket.task).nodup_iff.mpr (hd.sublist ?_)
  exact List.filter_sublist.map Ticket.task

/-- some leave, each once -/
theorem leave {ids : List TaskId} (hids : ids.Nodup)
    (hin : ∀ id ∈ ids, id ∈ s.queue.waiting.map Ticket.task) {q : Queue}
    (hq : q.waiting = s.queue.waiting.filter fun t => decide (t.task ∉ ids)) :
    Sound
      { s with
        queue := q
        left := s.left ++ ids } := by
  have hcame (id : TaskId) (hid : id ∈ ids) : id ∈ s.came.map Ticket.task ∧ id ∉ s.left :=
    mem_inside_map.mp (h.mem_waiting_map.mp (hin id hid))
  refine ⟨?_, fun id hid => ?_, ?_⟩
  · rw [hq, h.waiting, Ticket.filter_mergeSort]
    congr 1
    rw [inside, List.filter_filter]
    refine List.filter_congr fun t _ => ?_
    simp [not_or, and_comm]
  · rcases List.mem_append.mp hid with hid | hid
    · exact h.came id hid
    · exact (hcame id hid).1
  · refine List.nodup_append.mpr ⟨h.once, hids, ?_⟩
    rintro x hx y hy rfl
    exact (hcame x hy).2 hx

theorem push (hd : ((s.came ++ [t]).map Ticket.task).Nodup) : (s.visit (.push t)).Sound := by
  have hnew : t.task ∉ s.came.map Ticket.task := by
    rw [List.map_append, List.nodup_append] at hd
    exact fun hmem => hd.2.2 _ hmem _ (List.mem_singleton_self _) rfl
  have hinside : (s.visit (.push t)).inside = s.inside ++ [t] := by
    show (s.came ++ [t]).filter _ = _
    rw [List.filter_append, List.filter_cons_of_pos]
    · rfl
    · exact decide_eq_true fun hleft => hnew (h.came _ hleft)
  refine ⟨?_, fun id hid => ?_, h.once⟩
  · rw [hinside, ← Queue.place_mergeSort, ← h.waiting]
    rfl
  · show id ∈ (s.came ++ [t]).map Ticket.task
    rw [List.map_append]
    exact List.mem_append_left _ (h.came id hid)

theorem pop (hd : (s.came.map Ticket.task).Nodup) (affinity : Option KindSet) :
    (s.visit (.pop affinity)).Sound := by
  unfold visit
  dsimp only
  split
  · rename_i t rest hpop
    obtain ⟨hmem, hrest⟩ := Queue.popFor_rest (h.nodup hd) hpop
    refine h.leave (List.nodup_singleton _) (fun id hid => ?_) (by simpa using hrest)
    rw [List.mem_singleton.mp hid]
    exact List.mem_map_of_mem hmem
  · exact h

theorem remove (hd : (s.came.map Ticket.task).Nodup) (id : TaskId) :
    (s.visit (.remove id)).Sound := by
  have hrest := Queue.remove_rest (h.nodup hd) id
  show Sound ⟨(s.queue.withdraw id).2, s.came,
    if (s.queue.withdraw id).1 then s.left ++ [id] else s.left⟩
  rw [Queue.withdraw_eq]
  dsimp only
  split
  · rename_i hfound
    refine h.leave (List.nodup_singleton _) (fun x hx => ?_) (by simpa using hrest)
    rw [List.mem_singleton.mp hx]
    exact Queue.contains_iff_mem.mp hfound
  · rename_i hnone
    refine ⟨?_, h.came, h.once⟩
    show (s.queue.remove id).waiting = s.inside.mergeSort _
    rw [hrest, ← h.waiting]
    refine List.filter_eq_self.mpr fun t ht => decide_eq_true ?_
    rintro rfl
    exact hnone (Queue.contains_iff_mem.mpr (List.mem_map_of_mem ht))

theorem clear (hd : (s.came.map Ticket.task).Nodup) : (s.visit .clear).Sound := by
  refine h.leave ?_ (fun id hid => h.mem_waiting_map.mpr hid) ?_
  · exact hd.sublist (List.filter_sublist.map Ticket.task)
  · refine (List.filter_eq_nil_iff.mpr fun t ht => ?_).symm
    have hin := h.mem_waiting_map.mp (List.mem_map_of_mem ht)
    simpa using hin

theorem visit (hd : ((s.visit v).came.map Ticket.task).Nodup) : (s.visit v).Sound := by
  cases v with
  | push t => exact h.push hd
  | pop affinity =>
    rw [came_visit] at hd
    exact h.pop (by simpa [Visit.ticket?] using hd) affinity
  | remove id => exact h.remove hd id
  | clear => exact h.clear hd

end Sound

theorem sound_after (hd : ((pushed vs).map Ticket.task).Nodup) : (after vs).Sound := by
  induction vs using List.reverseRecOn with
  | nil =>
    exact ⟨List.mergeSort_nil.symm, fun id hid => absurd hid List.not_mem_nil, List.nodup_nil⟩
  | append_singleton vs v ih =>
    have hfewer : ((pushed vs).map Ticket.task).Nodup := by
      rw [pushed, List.filterMap_append, List.map_append] at hd
      exact hd.sublist (List.sublist_append_left ..)
    rw [← came_after, after_snoc] at hd
    rw [after_snoc]
    exact (ih hfewer).visit hd

/-! ## what is asked, and what is answered -/

/-- the queue is the sorted list of those who came and have not left, and answers by it -/
structure Refines (s : Turnstile) : Prop where
  waiting : s.queue.waiting = s.inside.mergeSort Ticket.asUrgentAs
  /-- everybody who came has left once, or waits -/
  once : (s.left ++ s.queue.waiting.map Ticket.task).Perm (s.came.map Ticket.task)
  first : (s.queue.popFor none).map Prod.fst = s.queue.waiting.head?
  indifferent : ∀ kinds : KindSet, kinds.isEmpty = true →
    (s.queue.popFor (some kinds)).map Prod.fst = s.queue.waiting.head?
  preferred : ∀ kinds : KindSet, (s.queue.popFor (some kinds)).map Prod.fst =
    (s.queue.waiting.find? fun t => kinds.contains t.kind).or s.queue.waiting.head?
  none_iff : ∀ affinity, s.queue.popFor affinity = none ↔ s.queue.waiting = []
  popped : ∀ affinity t rest, s.queue.popFor affinity = some (t, rest) →
    t ∈ s.queue.waiting ∧ rest.waiting = s.queue.waiting.filter fun x => decide (x.task ≠ t.task)
  found : ∀ id, (s.queue.withdraw id).1 = true ↔ id ∈ s.inside.map Ticket.task
  removed : ∀ id, (s.queue.withdraw id).2.waiting =
    s.queue.waiting.filter fun x => decide (x.task ≠ id)

/-- everybody who came has left or waits -/
theorem Sound.left_append_perm (h : s.Sound) (hd : (s.came.map Ticket.task).Nodup) :
    (s.left ++ s.queue.waiting.map Ticket.task).Perm (s.came.map Ticket.task) := by
  have hin {id : TaskId} : id ∈ s.queue.waiting.map Ticket.task ↔
      id ∈ s.came.map Ticket.task ∧ id ∉ s.left := h.mem_waiting_map.trans mem_inside_map
  have hboth : (s.left ++ s.queue.waiting.map Ticket.task).Nodup := by
    refine List.nodup_append.mpr ⟨h.once, h.nodup hd, ?_⟩
    rintro x hx y hy rfl
    exact (hin.mp hy).2 hx
  refine (List.perm_ext_iff_of_nodup hboth hd).mpr fun id => ?_
  rw [List.mem_append, hin]
  by_cases hleft : id ∈ s.left
  · simp [hleft, h.came id hleft]
  · simp [hleft]

/-- **a queue is a list that is sorted by falling priority**, stably and after every request: this
is what it holds and what it answers by, whatever it was asked, if no task came twice -/
theorem refines (vs : List Visit) (hd : ((pushed vs).map Ticket.task).Nodup) :
    (after vs).came = pushed vs ∧ (after vs).Refines := by
  have h := sound_after hd
  have hcame := came_after vs
  rw [← hcame] at hd
  have hnodup := h.nodup hd
  refine ⟨hcame, h.waiting, h.left_append_perm hd, ?_, fun kinds hk => ?_, fun kinds => ?_,
    fun affinity => Queue.popFor_eq_none, fun affinity t rest => Queue.popFor_rest hnodup,
    fun id => ?_, fun id => ?_⟩
  · exact Queue.popFor_fst_of_indifferent fun t _ => rfl
  · have hmembers : kinds.members = [] := List.isEmpty_iff.mp hk
    refine Queue.popFor_fst_of_indifferent fun t _ => ?_
    simp [Queue.prefers, KindSet.contains, hmembers]
  · exact Queue.popFor_fst ..
  · rw [Queue.withdraw_eq, ← h.mem_waiting_map]
    exact Queue.contains_iff_mem
  · rw [Queue.withdraw_eq]
    exact Queue.remove_rest hnodup id

/-- two tasks overtake others, one is taken for its kind, and one is called off -/
def rush : List Visit :=
  [.push ⟨⟨1⟩, .low, .cacheCleanup⟩, .push ⟨⟨2⟩, .high, .cacheCleanup⟩,
    .push ⟨⟨3⟩, .high, .depositProcessing⟩, .push ⟨⟨4⟩, .critical, .cacheCleanup⟩,
    .push ⟨⟨5⟩, .high, .cacheCleanup⟩, .pop (some (.ofList [.depositProcessing])), .remove ⟨2⟩,
    .remove ⟨2⟩, .push ⟨⟨6⟩, .high, .cacheCleanup⟩, .pop none]

theorem refines_rush : ((pushed rush).map Ticket.task).Nodup ∧ (after rush).Refines ∧
    (after rush).left = [⟨3⟩, ⟨2⟩, ⟨4⟩] ∧
    (after rush).queue.waiting.map Ticket.task = [⟨5⟩, ⟨6⟩, ⟨1⟩] :=
  ⟨by decide, (refines rush (by decide)).2, by decide, by decide⟩

end Turnstile

end TaskPool
