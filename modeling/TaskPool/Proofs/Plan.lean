import TaskPool.Pool.Step
import TaskPool.Proofs.Keyed

/-!
# What a plan adds and takes

* `Decision.added`    the workers that a decision adds; `Decision.stopped` are those it stops
* `Gauge.planFor`     the plan for any signals
* `Gauge.leaving_le`  no plan goes below the minimum, counting those it stops and those it evicts
* `nodup_leaving`     and it names no worker twice

Both go by the live workers alone, which is all that a `Gauge` shows.
-/

namespace TaskPool

/-- the workers that a decision adds -/
def Decision.added : Decision → Nat
  | .up n => n
  | _ => 0

namespace Gauge

theorem stopped_sublist (g : Gauge) (c : Config) (s : Signals) :
    (g.decision c s).stopped.Sublist (g.idleByAge.map Load.worker) := by
  unfold decision
  split
  · exact List.nil_sublist _
  · split
    · split
      · exact List.nil_sublist _
      · exact (List.take_sublist _ _).map _
    · exact List.nil_sublist _

theorem length_stopped_le (g : Gauge) (c : Config) (s : Signals) :
    (g.decision c s).stopped.length ≤ g.size - c.minWorkers := by
  unfold decision
  split
  · exact Nat.zero_le _
  · split
    · split
      · exact Nat.zero_le _
      · show (List.map _ _).length ≤ _
        rw [List.length_map, List.length_take]
        omega
    · exact Nat.zero_le _

section
variable (c : Config) (now : Timestamp) (stopping : List WorkerId)

theorem evictions_sublist (n : Nat) (ls : List Load) :
    (evictions c now stopping n ls).Sublist (ls.map Load.worker) := by
  induction ls generalizing n with
  | nil => exact List.nil_sublist _
  | cons l ls ih =>
    unfold evictions
    split
    · exact List.nil_sublist _
    · split
      · exact (ih n).cons _
      · split
        · exact (ih (n - 1)).cons_cons _
        · exact (ih n).cons _

theorem not_mem_of_mem_evictions {n : Nat} {ls : List Load} {w : WorkerId}
    (h : w ∈ evictions c now stopping n ls) : w ∉ stopping := by
  induction ls generalizing n with
  | nil => cases h
  | cons l ls ih =>
    unfold evictions at h
    split at h
    · cases h
    · split at h
      · exact ih h
      · rename_i hout
        split at h
        · rcases List.mem_cons.mp h with rfl | h
          · simpa using hout
          · exact ih h
        · exact ih h

theorem length_evictions_le (n : Nat) (ls : List Load) :
    (evictions c now stopping n ls).length ≤ n - c.minWorkers := by
  induction ls generalizing n with
  | nil => exact Nat.zero_le _
  | cons l ls ih =>
    have h0 := ih n
    have h1 := ih (n - 1)
    unfold evictions
    split
    · exact Nat.zero_le _
    · split
      · exact h0
      · split
        · rw [List.length_cons]
          omega
        · exact h0

end

/-- the plan for any signals -/
def planFor (g : Gauge) (c : Config) (now : Timestamp) (s : Signals) : Plan where
  signals := s
  decision := g.decision c s
  evict := evictions c now (g.decision c s).stopped (g.sizeAfter (g.decision c s)) g.idleByAge

theorem plan_eq_planFor (g : Gauge) (c : Config) (now : Timestamp) :
    g.plan c now = g.planFor c now (g.signals c.maxQueueSize) := rfl

theorem leaving_planFor_le (g : Gauge) (c : Config) (now : Timestamp) (s : Signals) :
    (g.planFor c now s).decision.stopped.length + (g.planFor c now s).evict.length
      ≤ g.size + (g.planFor c now s).decision.added - c.minWorkers := by
  have hstop := g.length_stopped_le c s
  have hevict := length_evictions_le c now (g.decision c s).stopped
    (g.sizeAfter (g.decision c s)) g.idleByAge
  unfold planFor
  dsimp only
  generalize g.decision c s = d at *
  cases d with
  | up n =>
    show 0 + _ ≤ g.size + n - _
    have : g.sizeAfter (.up n) = g.size + n := rfl
    omega
  | down ids =>
    show ids.length + _ ≤ g.size + 0 - _
    have h1 : g.sizeAfter (.down ids) = g.size - ids.length := rfl
    have h2 : ids.length ≤ g.size - c.minWorkers := hstop
    omega
  | hold =>
    show 0 + _ ≤ g.size + 0 - _
    have : g.sizeAfter .hold = g.size := rfl
    omega

/-- no plan goes below the minimum -/
theorem leaving_le (g : Gauge) (c : Config) (now : Timestamp) :
    (g.plan c now).decision.stopped.length + (g.plan c now).evict.length
      ≤ g.size + (g.plan c now).decision.added - c.minWorkers :=
  g.leaving_planFor_le c now (g.signals c.maxQueueSize)

theorem nodup_idleByAge {g : Gauge} (h : (g.loads.map Load.worker).Nodup) :
    (g.idleByAge.map Load.worker).Nodup := by
  have hperm : g.idleByAge.Perm (g.loads.filter Load.isIdle) := List.mergeSort_perm _ _
  rw [(hperm.map Load.worker).nodup_iff]
  exact h.sublist (List.filter_sublist.map Load.worker)

/-- no worker is stopped twice by one plan -/
theorem nodup_leaving {g : Gauge} (h : (g.loads.map Load.worker).Nodup) (c : Config)
    (now : Timestamp) (s : Signals) :
    ((g.planFor c now s).decision.stopped ++ (g.planFor c now s).evict).Nodup := by
  have hd := nodup_idleByAge h
  apply List.nodup_append.mpr
  refine ⟨hd.sublist (stopped_sublist _ c _), hd.sublist ?_, ?_⟩
  · exact evictions_sublist c now _ _ _
  · rintro w hw x hx rfl
    exact not_mem_of_mem_evictions c now _ hx hw

end Gauge

namespace Pool

/-- the live workers of a pool have different numbers -/
theorem nodup_loads {p : Pool} (hs : p.roster.Sound) : (p.gauge.loads.map Load.worker).Nodup := by
  show ((p.roster.live.map _).map Load.worker).Nodup
  rw [List.map_map]
  exact hs.nodup.sublist (List.filter_sublist.map Entry.worker)

theorem nodup_leaving {p : Pool} (hs : p.roster.Sound) (c : Config) (now : Timestamp) :
    ((p.gauge.plan c now).decision.stopped ++ (p.gauge.plan c now).evict).Nodup :=
  Gauge.nodup_leaving (nodup_loads hs) c now _

end Pool

end TaskPool
