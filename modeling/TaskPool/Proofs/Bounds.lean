import TaskPool.Proofs.Plan
import Mathlib.Algebra.Order.Floor.Div
import Mathlib.Data.Nat.PSub
import Mathlib.Data.Prod.Lex

/-!
# What a plan may do

* `Load.age`              the order in which idle workers are let go: by their last activity, then
                          by their numbers
* `Gauge.idleByAge_sorted`   they stand in this order
* `Gauge.planFor?`        the plan with subtractions that fail where the result is below zero
* `Plan.Bounded`          how many workers a plan adds or stops, which ones, and how many remain
* `Gauge.planFor_bounded` no subtraction fails, and every plan is bounded

Why the signals may be any: they decide whether a pool is to grow or to shrink, and nothing of how
far.
-/

namespace TaskPool

/-! ## the order of idle workers -/

/-- by the last activity, then by the number -/
def Load.age (l : Load) : ℤ ×ₗ ℕ ×ₗ ℕ :=
  toLex (l.lastActivity.seconds, toLex (l.lastActivity.nanos, l.worker))

namespace Load

theorem older_iff {a b : Load} : a.older b = true ↔ a.age ≤ b.age := by
  simp only [older, age, Prod.Lex.le_iff, ofLex_toLex, Bool.or_eq_true, Bool.and_eq_true,
    Timestamp.lt_iff, beq_iff_eq, decide_eq_true_iff]
  obtain ⟨_, _, _, ⟨s, n⟩⟩ := a
  obtain ⟨_, _, _, ⟨s', n'⟩⟩ := b
  simp only [Timestamp.mk.injEq, and_or_left, and_assoc, or_assoc]

theorem older_trans (a b c : Load) (hab : a.older b = true) (hbc : b.older c = true) :
    a.older c = true := by
  rw [older_iff] at *
  exact hab.trans hbc

theorem older_total (a b : Load) : (a.older b || b.older a) = true := by
  rw [Bool.or_eq_true, older_iff, older_iff]
  exact le_total _ _

theorem age_ne {a b : Load} (h : a.worker ≠ b.worker) : a.age ≠ b.age := by
  intro he
  have hrest := congrArg (fun k => (ofLex (ofLex k).2).2) he
  exact h hrest

end Load

namespace Gauge

variable {g : Gauge}

theorem idleByAge_perm (g : Gauge) : g.idleByAge.Perm (g.loads.filter Load.isIdle) :=
  List.mergeSort_perm _ _

theorem length_idleByAge (g : Gauge) : g.idleByAge.length = g.loads.countP Load.isIdle := by
  rw [g.idleByAge_perm.length_eq, List.countP_eq_length_filter]

/-- the idle workers stand in the order of their age -/
theorem idleByAge_sorted (h : (g.loads.map Load.worker).Nodup) :
    g.idleByAge.Pairwise fun a b => a.age < b.age := by
  have hsorted : g.idleByAge.Pairwise fun a b => a.older b = true :=
    List.pairwise_mergeSort Load.older_trans Load.older_total _
  have hapart : g.idleByAge.Pairwise fun a b => a.worker ≠ b.worker :=
    List.pairwise_map.mp (nodup_idleByAge h)
  refine (hsorted.and hapart).imp fun hab => ?_
  exact lt_of_le_of_ne (Load.older_iff.mp hab.1) (Load.age_ne hab.2)

/-! ## no subtraction goes below zero -/

/-- the decision with subtractions that may fail -/
def decision? (g : Gauge) (c : Config) (s : Signals) : Option Decision :=
  if wantsUp c s ∧ g.size < c.maxWorkers then
    (c.maxWorkers.psub g.size).map fun room => .up (min (growth g.size) room)
  else if wantsDown c s ∧ c.minWorkers < g.size then
    (g.size.psub c.minWorkers).map fun spare =>
      match (g.idleByAge.take (min (shrinkage g.size) spare)).map Load.worker with
      | [] => .hold
      | chosen => .down chosen
  else some .hold

def sizeAfter? (g : Gauge) : Decision → Option Nat
  | .up n => some (g.size + n)
  | .down ids => g.size.psub ids.length
  | .hold => some g.size

def evictions? (c : Config) (now : Timestamp) (stopping : List WorkerId) :
    Nat → List Load → Option (List WorkerId)
  | _, [] => some []
  | remaining, l :: rest =>
    if remaining ≤ c.minWorkers then some []
    else if stopping.contains l.worker then evictions? c now stopping remaining rest
    else if overdue c now l then
      (remaining.psub 1).bind fun fewer =>
        (evictions? c now stopping fewer rest).map (l.worker :: ·)
    else evictions? c now stopping remaining rest

def planFor? (g : Gauge) (c : Config) (now : Timestamp) (s : Signals) : Option Plan :=
  (g.decision? c s).bind fun decision =>
    (g.sizeAfter? decision).bind fun remaining =>
      (evictions? c now decision.stopped remaining g.idleByAge).map fun evict =>
        { signals := s
          decision := decision
          evict := evict }

theorem decision?_eq (g : Gauge) (c : Config) (s : Signals) :
    g.decision? c s = some (g.decision c s) := by
  unfold decision? decision
  split
  · rename_i h
    rw [Nat.psub_eq_sub h.2.le]
    rfl
  · split
    · rename_i h
      rw [Nat.psub_eq_sub h.2.le]
      rfl
    · rfl

theorem sizeAfter?_eq (g : Gauge) (c : Config) (s : Signals) :
    g.sizeAfter? (g.decision c s) = some (g.sizeAfter (g.decision c s)) := by
  have hstop := g.length_stopped_le c s
  generalize g.decision c s = d at *
  cases d with
  | up | hold => rfl
  | down ids => exact Nat.psub_eq_sub (hstop.trans (Nat.sub_le ..))

theorem evictions?_eq (c : Config) (now : Timestamp) (stopping : List WorkerId) (n : Nat)
    (ls : List Load) :
    evictions? c now stopping n ls = some (evictions c now stopping n ls) := by
  induction ls generalizing n with
  | nil => rfl
  | cons l ls ih =>
    unfold evictions? evictions
    split
    · rfl
    · -- more than the minimum remain, hence at least one
      rename_i hmore
      split
      · exact ih n
      · split
        · rw [Nat.psub_eq_sub (by omega), Option.bind_some, ih (n - 1), Option.map_some]
        · exact ih n

theorem planFor?_eq (g : Gauge) (c : Config) (now : Timestamp) (s : Signals) :
    g.planFor? c now s = some (g.planFor c now s) := by
  unfold planFor?
  rw [decision?_eq, Option.bind_some, sizeAfter?_eq, Option.bind_some, evictions?_eq,
    Option.map_some]
  rfl

/-! ## how far a plan goes -/

theorem growth_eq (n : Nat) : growth n = max 1 (n ⌈/⌉ 5) := rfl

theorem shrinkage_eq (n : Nat) : shrinkage n = n ⌈/⌉ 10 := rfl

theorem decision_eq_up {c : Config} {s : Signals} {n : Nat} (h : g.decision c s = .up n) :
    g.size < c.maxWorkers ∧ n = min (growth g.size) (c.maxWorkers - g.size) := by
  unfold decision at h
  split at h
  · rename_i hup
    cases h
    exact ⟨hup.2, rfl⟩
  · split at h
    · split at h <;> cases h
    · cases h

/-- the workers to stop are the first of those that are idle -/
theorem decision_eq_down {c : Config} {s : Signals} {ids : List WorkerId}
    (h : g.decision c s = .down ids) :
    ids ≠ [] ∧ c.minWorkers < g.size ∧
      ids = (g.idleByAge.take (min (min (shrinkage g.size) (g.size - c.minWorkers))
        (g.loads.countP Load.isIdle))).map Load.worker := by
  unfold decision at h
  split at h
  · cases h
  · split at h
    · rename_i hdown
      split at h
      · cases h
      · rename_i hne
        cases h
        refine ⟨hne, hdown.2, ?_⟩
        rw [← length_idleByAge, ← List.take_eq_take_min]
    · cases h

theorem mem_idleByAge {l : Load} : l ∈ g.idleByAge ↔ l ∈ g.loads ∧ l.status = .idle := by
  rw [g.idleByAge_perm.mem_iff, List.mem_filter, Load.isIdle, beq_iff_eq]

end Gauge

/-- what the plan `p` may do to a pool of the size of `g` -/
structure Plan.Bounded (p : Plan) (g : Gauge) (c : Config) : Prop where
  /-- a fifth of the size is added, rounded up, and at least one, as far as there is room -/
  up : ∀ n, p.decision = .up n →
    g.size < c.maxWorkers ∧ n = min (Gauge.growth g.size) (c.maxWorkers - g.size)
  /-- a tenth of the size is stopped, rounded up, as far as the minimum allows and there are idle
  workers, and it is those who have been idle longest -/
  down : ∀ ids, p.decision = .down ids → ids ≠ [] ∧ c.minWorkers < g.size ∧
    ids = (g.idleByAge.take (min (min (Gauge.shrinkage g.size) (g.size - c.minWorkers))
      (g.loads.countP Load.isIdle))).map Load.worker
  evict_nodup : p.evict.Nodup
  evict_idle : ∀ w ∈ p.evict, ∃ l ∈ g.loads, l.worker = w ∧ l.status = .idle
  evict_apart : ∀ w ∈ p.evict, w ∉ p.decision.stopped
  leaving_le : p.decision.stopped.length + p.evict.length ≤ g.size + p.decision.added
  min_le : p.decision.stopped ++ p.evict ≠ [] →
    c.minWorkers ≤ g.size + p.decision.added - p.decision.stopped.length - p.evict.length
  le_max : g.size ≤ c.maxWorkers →
    g.size + p.decision.added - p.decision.stopped.length - p.evict.length ≤ c.maxWorkers

namespace Gauge

variable {g : Gauge}

theorem size_added_le (c : Config) (s : Signals) (h : g.size ≤ c.maxWorkers) :
    g.size + (g.decision c s).added ≤ c.maxWorkers := by
  cases hd : g.decision c s with
  | up n =>
    have hn := (decision_eq_up hd).2
    show g.size + n ≤ c.maxWorkers
    omega
  | down | hold => exact h

theorem bounded_planFor (h : (g.loads.map Load.worker).Nodup) (c : Config) (now : Timestamp)
    (s : Signals) : (g.planFor c now s).Bounded g c where
  up _ := decision_eq_up
  down _ := decision_eq_down
  evict_nodup := (List.nodup_append.mp (nodup_leaving h c now s)).2.1
  evict_idle w hw := by
    obtain ⟨l, hl, rfl⟩ := List.mem_map.mp ((evictions_sublist c now _ _ _).subset hw)
    obtain ⟨hmem, hidle⟩ := mem_idleByAge.mp hl
    exact ⟨l, hmem, rfl, hidle⟩
  evict_apart _ hw := not_mem_of_mem_evictions c now _ hw
  leaving_le := (g.leaving_planFor_le c now s).trans (Nat.sub_le ..)
  min_le hne := by
    -- somebody leaves, so that the size is above the minimum before
    have hpos := List.length_pos_of_ne_nil hne
    have hleaving := g.leaving_planFor_le c now s
    rw [List.length_append] at hpos
    omega
  le_max hle := by
    have hadded : g.size + (g.planFor c now s).decision.added ≤ c.maxWorkers :=
      size_added_le c s hle
    omega

/-- **every plan respects the bounds**, whatever the signals are: its subtractions do not go below
zero, and it adds and stops as many workers as it may, and those that it may -/
theorem planFor_bounded (h : (g.loads.map Load.worker).Nodup) (c : Config) (now : Timestamp)
    (s : Signals) :
    g.plan c now = g.planFor c now (g.signals c.maxQueueSize) ∧
      g.planFor? c now s = some (g.planFor c now s) ∧
      growth g.size = max 1 (g.size ⌈/⌉ 5) ∧ shrinkage g.size = g.size ⌈/⌉ 10 ∧
      g.idleByAge.Perm (g.loads.filter Load.isIdle) ∧
      (g.idleByAge.Pairwise fun a b => a.age < b.age) ∧ (g.planFor c now s).Bounded g c :=
  ⟨g.plan_eq_planFor c now, g.planFor?_eq c now s, growth_eq _, shrinkage_eq _, g.idleByAge_perm,
    idleByAge_sorted h, bounded_planFor h c now s⟩

/-- twelve workers, the idle ones by their age; one is busy -/
def overstaffed : Gauge where
  loads := [7, 4, 1, 2, 3, 5, 6, 8, 9, 10, 11, 12].map fun w =>
    { worker := w
      status := if w = 12 then .busy else .idle
      cpu := none
      lastActivity := ⟨if w = 7 then 0 else if w = 4 then 10 else if w = 1 then 20 else 100, 0⟩ }
  queued := 0

/-- nothing to do -/
def calm : Signals := ⟨0.0, 0.0, 1.0⟩

theorem idleByAge_overstaffed : overstaffed.idleByAge = overstaffed.loads.filter Load.isIdle :=
  List.mergeSort_of_pairwise (by decide)

/-- two of the workers are stopped, and one goes because it has been idle for too long -/
theorem planFor_overstaffed :
    (overstaffed.planFor { minWorkers := 1 } ⟨100, 0⟩ calm).decision = .down [7, 4] ∧
      (overstaffed.planFor { minWorkers := 1 } ⟨100, 0⟩ calm).evict = [1] := by
  have hdecision : overstaffed.decision { minWorkers := 1 } calm = .down [7, 4] := by
    unfold decision
    rw [idleByAge_overstaffed]
    decide +kernel
  refine ⟨hdecision, ?_⟩
  unfold planFor
  rw [idleByAge_overstaffed, hdecision]
  decide +kernel

theorem planFor_bounded_overstaffed : (overstaffed.loads.map Load.worker).Nodup ∧
    overstaffed.planFor? { minWorkers := 1 } ⟨100, 0⟩ calm
      = some (overstaffed.planFor { minWorkers := 1 } ⟨100, 0⟩ calm) ∧
    (overstaffed.planFor { minWorkers := 1 } ⟨100, 0⟩ calm).decision = .down [7, 4] ∧
    (overstaffed.planFor { minWorkers := 1 } ⟨100, 0⟩ calm).evict = [1] ∧
    (overstaffed.planFor { minWorkers := 1 } ⟨100, 0⟩ calm).Bounded overstaffed
      { minWorkers := 1 } := by
  have hnodup : (overstaffed.loads.map Load.worker).Nodup := by decide
  have hbounded := planFor_bounded hnodup { minWorkers := 1 } ⟨100, 0⟩ calm
  exact ⟨hnodup, hbounded.2.1, planFor_overstaffed.1, planFor_overstaffed.2, hbounded.2.2.2.2.2.2⟩

end Gauge

end TaskPool
