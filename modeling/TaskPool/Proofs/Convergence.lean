import TaskPool.Proofs.Bounds
import TaskPool.Proofs.Settings
import Mathlib.Data.Nat.Find

/-!
# Scaling comes to its bound and stays there

* `Turnover`            the pool after a cycle: whom the plan names is gone, as many as it adds have
                        come, and everybody else is as busy or as idle as before
* `Season`              a pool from each cycle to the next
* `Gauge.Uniform`       all workers are idle, or none is
* `Gauge.added_pos`, `Gauge.stopped_ne_nil`   what keeps a plan from standing still too early
* `Gauge.still_of_max`, `Gauge.still_of_min`  and what makes it stand still in the end
* `exists_arrival`      a distance that falls with every step is gone after as many steps
* `Season.converges`    a hot pool grows to its maximum and a cold one shrinks to its minimum, in as
                        many cycles as workers are missing or to spare, and there they stay

What the workers report and how many tasks wait may change from each cycle to the next.  It counts
only in so far as the pool is to grow or to shrink.

Why a cold pool is to shrink only until it is at its minimum: that may be zero, and where there is
nobody, no share of the workers is idle.
-/

namespace TaskPool

/-! ## one cycle -/

/-- what a plan leaves of a worker as it is -/
def Load.duty (l : Load) : WorkerId × WorkerStatus := (l.worker, l.status)

/-- from `g` to `g'` by the plan `p` -/
structure Turnover (p : Plan) (g g' : Gauge) where
  leaving : List Load
  staying : List Load
  /-- those who stay, a cycle later -/
  stayed : List Load
  fresh : List Load
  before : g.loads.Perm (leaving ++ staying)
  named : (leaving.map Load.worker).Perm (p.decision.stopped ++ p.evict)
  same : stayed.map Load.duty = staying.map Load.duty
  added : fresh.length = p.decision.added
  busy : ∀ l ∈ fresh, l.isIdle = false
  after : g'.loads.Perm (stayed ++ fresh)

/-- all workers are idle, or none is -/
def Gauge.Uniform (idle : Bool) (g : Gauge) : Prop := ∀ l ∈ g.loads, l.isIdle = idle

/-- it adds nobody and stops nobody -/
def Plan.Still (p : Plan) : Prop := p.decision = .hold ∧ p.evict = []

namespace Turnover

variable {p : Plan} {g g' : Gauge}

theorem size_eq (t : Turnover p g g') :
    g'.size + (p.decision.stopped.length + p.evict.length) = g.size + p.decision.added := by
  have hbefore := t.before.length_eq
  have hnamed := t.named.length_eq
  have hafter := t.after.length_eq
  have hsame := congrArg List.length t.same
  rw [List.length_append] at hbefore hnamed hafter
  rw [List.length_map] at hnamed
  rw [List.length_map, List.length_map] at hsame
  rw [t.added] at hafter
  show g'.loads.length + _ = g.loads.length + _
  omega

/-- those who stay do not change, so that only those who come could make a difference -/
theorem uniform (t : Turnover p g g') {idle : Bool} (h : g.Uniform idle)
    (hadded : idle = true → p.decision.added = 0) : g'.Uniform idle := by
  intro l hl
  rcases List.mem_append.mp (t.after.mem_iff.mp hl) with hl | hl
  · have hduty : l.duty ∈ t.staying.map Load.duty := by
      rw [← t.same]
      exact List.mem_map_of_mem hl
    obtain ⟨a, ha, heq⟩ := List.mem_map.mp hduty
    have hidle := h a (t.before.mem_iff.mpr (List.mem_append_right _ ha))
    rw [← hidle, Load.isIdle, Load.isIdle]
    exact congrArg (fun d : WorkerId × WorkerStatus => d.2 == .idle) heq.symm
  · cases idle with
    | false => exact t.busy l hl
    | true =>
      have hnone := List.eq_nil_of_length_eq_zero (t.added.trans (hadded rfl))
      rw [hnone] at hl
      cases hl

end Turnover

/-! ## what a plan does -/

namespace Gauge

variable {g : Gauge} {c : Config} {now : Timestamp} {s : Signals}

/-- a pool that is to shrink is not to grow, as the thresholds are in their order -/
theorem wantsUp_of_wantsDown (hc : c.validate = none) (h : wantsDown c s = true) :
    wantsUp c s = false := by
  have hapart := (Config.validate_eq_none_iff.mp hc).2.2.2
  have hpressures : ¬ growPressure < shrinkPressure := by decide +kernel
  unfold wantsDown at h
  unfold wantsUp
  simp only [Bool.and_eq_true, decide_eq_true_eq] at h
  obtain ⟨⟨hcpu, hpressure⟩, -⟩ := h
  rw [Bool.or_eq_false_iff, decide_eq_false_iff_not, decide_eq_false_iff_not]
  refine ⟨fun hup => hapart ?_, fun hup => hpressures ?_⟩
  · exact Double.le_of_lt (Double.lt_trans hup hcpu)
  · exact Double.lt_trans hup hpressure

theorem idleByAge_eq_nil (h : g.Uniform false) : g.idleByAge = [] := by
  rw [List.eq_nil_iff_forall_not_mem]
  intro l hl
  obtain ⟨hmem, hstatus⟩ := mem_idleByAge.mp hl
  have hidle := h l hmem
  rw [Load.isIdle, hstatus] at hidle
  cases hidle

/-- where nobody is idle, nobody is stopped -/
theorem plan_busy (h : g.Uniform false) :
    (g.plan c now).decision.stopped = [] ∧ (g.plan c now).evict = [] := by
  have hidle := idleByAge_eq_nil h
  have hstop := stopped_sublist g c (g.signals c.maxQueueSize)
  have hevict := evictions_sublist c now (g.plan c now).decision.stopped
    (g.sizeAfter (g.plan c now).decision) g.idleByAge
  rw [hidle] at hstop hevict
  refine ⟨List.sublist_nil.mp hstop, ?_⟩
  show evictions c now _ _ g.idleByAge = []
  rw [hidle]
  exact List.sublist_nil.mp hevict

theorem added_pos (h : wantsUp c s = true) (hroom : g.size < c.maxWorkers) :
    0 < (g.decision c s).added := by
  unfold decision
  rw [if_pos ⟨h, hroom⟩]
  show 0 < min (growth g.size) (c.maxWorkers - g.size)
  unfold growth
  omega

theorem added_eq_zero (h : wantsUp c s = false ∨ c.maxWorkers ≤ g.size) :
    (g.decision c s).added = 0 := by
  cases hd : g.decision c s with
  | up n =>
    unfold decision at hd
    split at hd
    · rename_i hup
      rcases h with h | h
      · rw [hup.1] at h
        cases h
      · exact absurd hup.2 (Nat.not_lt.mpr h)
    · split at hd
      · split at hd <;> cases hd
      · cases hd
  | down | hold => rfl

/-- where everybody is idle, a pool that is to shrink does -/
theorem stopped_ne_nil (hidle : g.Uniform true) (hup : wantsUp c s = false)
    (hdown : wantsDown c s = true) (hspare : c.minWorkers < g.size) :
    (g.decision c s).stopped ≠ [] := by
  have hcount : g.idleByAge.length = g.size := by
    rw [length_idleByAge]
    exact List.countP_eq_length.mpr hidle
  have hlen : ((g.idleByAge.take
      (min (shrinkage g.size) (g.size - c.minWorkers))).map Load.worker).length ≠ 0 := by
    rw [List.length_map, List.length_take, hcount]
    unfold shrinkage
    omega
  unfold decision
  rw [if_neg (fun h => Bool.eq_false_iff.mp hup h.1), if_pos ⟨hdown, hspare⟩]
  split
  · rename_i hnil
    rw [hnil] at hlen
    exact absurd rfl hlen
  · assumption

/-- a plan that changes nothing decides nothing -/
theorem still_of_unchanged (hadded : (g.plan c now).decision.added = 0)
    (hstop : (g.plan c now).decision.stopped = []) (hevict : (g.plan c now).evict = []) :
    (g.plan c now).Still := by
  refine ⟨?_, hevict⟩
  cases hd : (g.plan c now).decision with
  | hold => rfl
  | up n =>
    obtain ⟨hroom, hn⟩ := decision_eq_up hd
    rw [hd] at hadded
    have hzero : n = 0 := hadded
    unfold growth at hn
    omega
  | down ids =>
    rw [hd] at hstop
    exact absurd hstop (decision_eq_down hd).1

/-- at its maximum a pool in which nobody is idle stays as it is -/
theorem still_of_max (h : g.Uniform false) (hmax : g.size = c.maxWorkers) :
    (g.plan c now).Still :=
  still_of_unchanged (added_eq_zero (.inr hmax.ge)) (plan_busy h).1 (plan_busy h).2

/-- at its minimum a pool that is not to grow stays as it is -/
theorem still_of_min (hup : wantsUp c (g.signals c.maxQueueSize) = false)
    (hmin : g.size = c.minWorkers) : (g.plan c now).Still := by
  have hadded : (g.plan c now).decision.added = 0 := added_eq_zero (.inl hup)
  have hleave := g.leaving_le c now
  rw [hadded] at hleave
  refine still_of_unchanged hadded ?_ ?_ <;> refine List.eq_nil_of_length_eq_zero ?_ <;> omega

/-- there are workers for every name in a plan -/
theorem leaving_subperm (g : Gauge) (c : Config) (now : Timestamp) :
    ((g.plan c now).decision.stopped ++ (g.plan c now).evict).Subperm
      (g.loads.map Load.worker) := by
  have hstop := stopped_sublist g c (g.signals c.maxQueueSize)
  have hevict := evictions_sublist c now (g.plan c now).decision.stopped
    (g.sizeAfter (g.plan c now).decision) g.idleByAge
  have hidle : (g.idleByAge.map Load.worker).Subperm (g.loads.map Load.worker) :=
    (g.idleByAge_perm.map _).subperm.trans (List.filter_sublist.map _).subperm
  refine List.Subperm.trans ?_ hidle
  refine List.subperm_ext_iff.mpr fun w _ => ?_
  rw [List.count_append]
  by_cases hw : w ∈ (g.plan c now).decision.stopped
  · have hout : w ∉ (g.plan c now).evict := fun he => not_mem_of_mem_evictions c now _ he hw
    rw [List.count_eq_zero.mpr hout]
    exact hstop.count_le w
  · rw [List.count_eq_zero.mpr hw, Nat.zero_add]
    exact hevict.count_le w

/-- every plan can be carried out -/
theorem exists_turnover (g : Gauge) (c : Config) (now : Timestamp) :
    ∃ g', Nonempty (Turnover (g.plan c now) g g') := by
  obtain ⟨names, hnames, hsub⟩ := g.leaving_subperm c now
  obtain ⟨leaving, hleaving, rfl⟩ := List.sublist_map_iff.mp hsub
  obtain ⟨staying, hperm⟩ := hleaving.exists_perm_append
  refine ⟨⟨staying ++ List.replicate (g.plan c now).decision.added ⟨0, .busy, none, now⟩, 0⟩, ⟨{
    leaving := leaving
    staying := staying
    stayed := staying
    fresh := List.replicate (g.plan c now).decision.added ⟨0, .busy, none, now⟩
    before := hperm
    named := hnames
    same := rfl
    added := List.length_replicate
    busy := fun l hl => ?_
    after := .refl _ }⟩⟩
  rw [List.eq_of_mem_replicate hl]
  rfl

end Gauge

/-! ## many cycles -/

/-- a pool from each cycle to the next -/
structure Season (c : Config) where
  gauge : ℕ → Gauge
  now : ℕ → Timestamp
  next : ∀ i, Turnover ((gauge i).plan c (now i)) (gauge i) (gauge (i + 1))

/-- a distance that falls with every step is gone after as many steps -/
theorem exists_arrival {d : ℕ → ℕ} {n : ℕ} (h : ∀ i < n, 0 < d i → d (i + 1) < d i) :
    ∃ k ≤ d 0, (∀ i < k, 0 < d i) ∧ (k ≤ n → d k = 0) := by
  classical
  have hex : ∃ k, d 0 ≤ k ∨ d k = 0 := ⟨d 0, .inl (Nat.le_refl _)⟩
  have hbefore : ∀ i < Nat.find hex, i < d 0 ∧ 0 < d i := fun i hi => by
    have hnot := Nat.find_min hex hi
    omega
  refine ⟨Nat.find hex, Nat.find_min' hex (.inl (Nat.le_refl _)), fun i hi => (hbefore i hi).2,
    fun hn => ?_⟩
  -- so far every step has come closer by one at least
  have hcloser : ∀ i ≤ Nat.find hex, d i + i ≤ d 0 := by
    intro i
    induction i with
    | zero => intro _; exact Nat.le_refl _
    | succ i ih =>
      intro hi
      have hfall := h i (by omega) (hbefore i hi).2
      have hrest := ih (by omega)
      omega
  have hlast := hcloser _ (Nat.le_refl _)
  rcases Nat.find_spec hex with hk | hk
  · omega
  · exact hk

namespace Season

open Gauge

variable {c : Config} (S : Season c)

def size (i : ℕ) : Nat := (S.gauge i).size

def signals (i : ℕ) : Signals := (S.gauge i).signals c.maxQueueSize

def plan (i : ℕ) : Plan := (S.gauge i).plan c (S.now i)

theorem exists_from (c : Config) (g : Gauge) (now : ℕ → Timestamp) :
    ∃ S : Season c, S.gauge 0 = g ∧ S.now = now := by
  choose next hnext using fun (i : ℕ) (g : Gauge) => g.exists_turnover c (now i)
  exact ⟨⟨fun i => Nat.rec g next i, now, fun i => (hnext i _).some⟩, rfl, rfl⟩

theorem size_succ (i : ℕ) :
    S.size (i + 1) + ((S.plan i).decision.stopped.length + (S.plan i).evict.length)
      = S.size i + (S.plan i).decision.added := (S.next i).size_eq

theorem size_succ_of_still {i : ℕ} (h : (S.plan i).Still) : S.size (i + 1) = S.size i := by
  have hnext := S.size_succ i
  rw [h.1, h.2] at hnext
  exact hnext

/-- a size at which every plan stands still is kept -/
theorem size_eq_of_still {b k n : ℕ} (hk : S.size k = b)
    (hstill : ∀ i < n, S.size i = b → (S.plan i).Still) (i : ℕ) (hi : k ≤ i) (hin : i ≤ n) :
    S.size i = b := by
  induction i, hi using Nat.le_induction with
  | base => exact hk
  | succ i _ ih =>
    have hsize := ih (by omega)
    exact (S.size_succ_of_still (hstill i hin hsize)).trans hsize

/-! ## hot -/

/-- while there is room it is to grow -/
def Hot (n : ℕ) : Prop := ∀ i < n, S.size i < c.maxWorkers → wantsUp c (S.signals i) = true

section
variable {S} (hbusy : (S.gauge 0).Uniform false)
include hbusy

theorem uniform_busy (i : ℕ) : (S.gauge i).Uniform false := by
  induction i with
  | zero => exact hbusy
  | succ i ih => exact (S.next i).uniform ih nofun

theorem size_succ_busy (i : ℕ) : S.size (i + 1) = S.size i + (S.plan i).decision.added := by
  have hsize := S.size_succ i
  have hnobody : (S.plan i).decision.stopped = [] ∧ (S.plan i).evict = [] :=
    plan_busy (uniform_busy hbusy i)
  rw [hnobody.1, hnobody.2] at hsize
  exact hsize

theorem size_le_max (hmax : S.size 0 ≤ c.maxWorkers) (i : ℕ) : S.size i ≤ c.maxWorkers := by
  induction i with
  | zero => exact hmax
  | succ i ih =>
    rw [size_succ_busy hbusy]
    exact size_added_le c _ ih

/-- **a hot pool grows until it is at its maximum** -/
theorem rises (hmax : S.size 0 ≤ c.maxWorkers) {n : ℕ} (hhot : S.Hot n) :
    ∃ k ≤ c.maxWorkers - S.size 0, (∀ i < n, i < k → S.size i < S.size (i + 1)) ∧
      (k ≤ n → ∀ i ≥ k, S.size i = c.maxWorkers ∧ (S.plan i).Still) := by
  have hle := size_le_max hbusy hmax
  have hgrows : ∀ i < n, S.size i < c.maxWorkers → S.size i < S.size (i + 1) := by
    intro i hi hroom
    rw [size_succ_busy hbusy]
    exact Nat.lt_add_of_pos_right (added_pos (hhot i hi hroom) hroom)
  obtain ⟨k, hk, hbefore, hlast⟩ := exists_arrival (d := fun i => c.maxWorkers - S.size i) (n := n)
    fun i hi hroom => by
      have hgrow := hgrows i hi (by omega)
      have hbound := hle (i + 1)
      omega
  refine ⟨k, hk, fun i hi hik => hgrows i hi ?_, fun hkn i hi => ?_⟩
  · have hroom := hbefore i hik
    omega
  · have hfull := hlast hkn
    have hboundk := hle k
    have hsize := S.size_eq_of_still (k := k) (n := i) (b := c.maxWorkers) (by omega)
      (fun j _ hj => still_of_max (uniform_busy hbusy j) hj) i hi (Nat.le_refl i)
    exact ⟨hsize, still_of_max (uniform_busy hbusy i) hsize⟩

end

/-! ## cold -/

/-- until it is at its minimum it is to shrink, and there it is not to grow -/
def Cold (n : ℕ) : Prop :=
  ∀ i < n, wantsDown c (S.signals i) = true ∨
    S.size i = c.minWorkers ∧ wantsUp c (S.signals i) = false

section
variable {S} {n : ℕ}

theorem Cold.wantsUp (h : S.Cold n) (hc : c.validate = none) {i : ℕ} (hi : i < n) :
    wantsUp c (S.signals i) = false := by
  rcases h i hi with hdown | hstay
  · exact wantsUp_of_wantsDown hc hdown
  · exact hstay.2

variable (hc : c.validate = none) (hidle : (S.gauge 0).Uniform true)
  (hmin : c.minWorkers ≤ S.size 0) (hcold : S.Cold n)
include hc hidle hmin hcold

theorem uniform_idle (i : ℕ) (hi : i ≤ n) :
    (S.gauge i).Uniform true ∧ c.minWorkers ≤ S.size i := by
  induction i with
  | zero => exact ⟨hidle, hmin⟩
  | succ i ih =>
    obtain ⟨hall, hsize⟩ := ih (by omega)
    have hadded : (S.plan i).decision.added = 0 := added_eq_zero (.inl (hcold.wantsUp hc hi))
    have hnext := S.size_succ i
    have hleave : (S.plan i).decision.stopped.length + (S.plan i).evict.length
        ≤ S.size i + (S.plan i).decision.added - c.minWorkers :=
      (S.gauge i).leaving_le c (S.now i)
    refine ⟨(S.next i).uniform hall fun _ => hadded, ?_⟩
    omega

/-- **a cold pool shrinks until it is at its minimum** -/
theorem falls :
    ∃ k ≤ S.size 0 - c.minWorkers, (∀ i < n, i < k → S.size (i + 1) < S.size i) ∧
      ∀ i ≥ k, i ≤ n → S.size i = c.minWorkers ∧ (i < n → (S.plan i).Still) := by
  have hrest := uniform_idle hc hidle hmin hcold
  have hshrinks : ∀ i < n, c.minWorkers < S.size i → S.size (i + 1) < S.size i := by
    intro i hi hspare
    have hdown : wantsDown c (S.signals i) = true :=
      (hcold i hi).resolve_right fun h => hspare.ne' h.1
    have hstop : 0 < (S.plan i).decision.stopped.length := List.length_pos_of_ne_nil <|
      stopped_ne_nil (hrest i hi.le).1 (hcold.wantsUp hc hi) hdown hspare
    have hadded : (S.plan i).decision.added = 0 := added_eq_zero (.inl (hcold.wantsUp hc hi))
    have hnext := S.size_succ i
    omega
  obtain ⟨k, hk, hbefore, hlast⟩ := exists_arrival (d := fun i => S.size i - c.minWorkers) (n := n)
    fun i hi hspare => by
      have hshrink := hshrinks i hi (by omega)
      omega
  refine ⟨k, hk, fun i hi hik => hshrinks i hi ?_, fun i hi hin => ?_⟩
  · have hspare := hbefore i hik
    omega
  · have hgone := hlast (hi.trans hin)
    have hleast := (hrest k (hi.trans hin)).2
    have hsize := S.size_eq_of_still (k := k) (n := n) (b := c.minWorkers) (by omega)
      (fun j hj hsize => still_of_min (hcold.wantsUp hc hj) hsize) i hi hin
    exact ⟨hsize, fun h => still_of_min (hcold.wantsUp hc h) hsize⟩

end

/-! ## both -/

/-- **scaling comes to its bound and stays there**, with any valid settings, from any pool and at
any times.  A pool in which nobody is idle and that is to grow while there is room grows with every
cycle until it is at its maximum, and then nothing changes any more; a pool in which everybody is
idle and that is to shrink while somebody is to spare shrinks with every cycle until it is at its
minimum, and then nothing changes while it is not to grow. -/
theorem converges (hc : c.validate = none) :
    (∀ (g : Gauge) (now : ℕ → Timestamp), ∃ S : Season c, S.gauge 0 = g ∧ S.now = now) ∧
      (∀ s, wantsDown c s = true → wantsUp c s = false) ∧
      (∀ (S : Season c) (n : ℕ), (S.gauge 0).Uniform false → S.size 0 ≤ c.maxWorkers → S.Hot n →
        (∀ i, S.size i ≤ c.maxWorkers) ∧
          ∃ k ≤ c.maxWorkers - S.size 0, (∀ i < n, i < k → S.size i < S.size (i + 1)) ∧
            (k ≤ n → ∀ i ≥ k, S.size i = c.maxWorkers ∧ (S.plan i).Still)) ∧
      ∀ (S : Season c) (n : ℕ), (S.gauge 0).Uniform true → c.minWorkers ≤ S.size 0 → S.Cold n →
        (∀ i ≤ n, c.minWorkers ≤ S.size i) ∧
          ∃ k ≤ S.size 0 - c.minWorkers, (∀ i < n, i < k → S.size (i + 1) < S.size i) ∧
            ∀ i ≥ k, i ≤ n → S.size i = c.minWorkers ∧ (i < n → (S.plan i).Still) :=
  ⟨exists_from c, fun _ => wantsUp_of_wantsDown hc,
    fun _ _ hbusy hmax hhot => ⟨size_le_max hbusy hmax, rises hbusy hmax hhot⟩,
    fun _ _ hidle hmin hcold =>
      ⟨fun i hi => (uniform_idle hc hidle hmin hcold i hi).2, falls hc hidle hmin hcold⟩⟩

/-- `n` busy workers, and as many tasks as the queue holds -/
def crowd (n : ℕ) : Gauge where
  loads := (List.range n).map fun w => ⟨w, .busy, none, ⟨0, 0⟩⟩
  queued := 1000

/-- idle workers, and nothing to do -/
def team (ids : List WorkerId) : Gauge where
  loads := ids.map fun w => ⟨w, .idle, none, ⟨0, 0⟩⟩
  queued := 0

def crowdSize : ℕ → ℕ
  | 0 => 2
  | i + 1 => crowdSize i + ((crowd (crowdSize i)).plan {} ⟨0, 0⟩).decision.added

theorem size_crowd (n : ℕ) : (crowd n).size = n := by
  simp [crowd, Gauge.size]

theorem uniform_crowd (n : ℕ) : (crowd n).Uniform false := by
  intro l hl
  obtain ⟨w, -, rfl⟩ := List.mem_map.mp hl
  rfl

theorem wantsUp_crowd (n : ℕ) : wantsUp {} ((crowd n).signals 1000) = true := by
  have hpressure : growPressure < ratio 1000 1000 := by decide +kernel
  rw [wantsUp, Bool.or_eq_true, decide_eq_true_eq, decide_eq_true_eq]
  exact .inr hpressure

/-- a crowd grows by those whom the plan adds -/
theorem turnover_crowd (n : ℕ) : Nonempty (Turnover ((crowd n).plan {} ⟨0, 0⟩) (crowd n)
    (crowd (n + ((crowd n).plan {} ⟨0, 0⟩).decision.added))) := by
  have hnobody : ((crowd n).plan {} ⟨0, 0⟩).decision.stopped = [] ∧
      ((crowd n).plan {} ⟨0, 0⟩).evict = [] := plan_busy (uniform_crowd n)
  generalize (crowd n).plan {} ⟨0, 0⟩ = p at *
  refine ⟨{
    leaving := []
    staying := (crowd n).loads
    stayed := (crowd n).loads
    fresh := (List.range p.decision.added).map fun w => ⟨n + w, .busy, none, ⟨0, 0⟩⟩
    before := .refl _
    named := ?_
    same := rfl
    added := ?_
    busy := fun l hl => ?_
    after := ?_ }⟩
  · rw [hnobody.1, hnobody.2]
    exact .refl _
  · rw [List.length_map, List.length_range]
  · obtain ⟨w, -, rfl⟩ := List.mem_map.mp hl
    rfl
  · show List.Perm (List.map _ (List.range (n + p.decision.added))) _
    rw [List.range_add, List.map_append, List.map_map]
    exact .refl _

/-- a crowd, which grows by one, and in the end by two -/
noncomputable def crowded : Season {} where
  gauge i := crowd (crowdSize i)
  now _ := ⟨0, 0⟩
  next i := (turnover_crowd (crowdSize i)).some

/-- workers leave a team when they are stopped -/
def turnoverTeam {p : Plan} {out : List WorkerId} (rest : List WorkerId)
    (hstop : p.decision.stopped = out) (hevict : p.evict = []) (hadded : p.decision.added = 0) :
    Turnover p (team (out ++ rest)) (team rest) where
  leaving := (team out).loads
  staying := (team rest).loads
  stayed := (team rest).loads
  fresh := []
  before := by
    show List.Perm (List.map _ (out ++ rest)) _
    rw [List.map_append]
    exact .refl _
  named := by
    rw [hstop, hevict, List.append_nil]
    show List.Perm (List.map _ (List.map _ out)) _
    rw [List.map_map]
    exact .of_eq (List.map_id _)
  same := rfl
  added := hadded.symm
  busy := nofun
  after := by rw [List.append_nil]

theorem idleByAge_team {ids : List WorkerId} (h : ids.Pairwise (· ≤ ·)) :
    (team ids).idleByAge = (team ids).loads := by
  have hidle : (team ids).loads.filter Load.isIdle = (team ids).loads := by
    refine List.filter_eq_self.mpr fun l hl => ?_
    obtain ⟨w, -, rfl⟩ := List.mem_map.mp hl
    rfl
  rw [idleByAge, hidle]
  refine List.mergeSort_of_pairwise (List.pairwise_map.mpr (h.imp fun {a b} hab => ?_))
  simp [Load.older, hab]

/-- the first of a team is stopped, as long as there are more than two -/
theorem plan_team {out rest : List WorkerId}
    (h : (out, rest) ∈ [([1], [2, 3, 4]), ([2], [3, 4]), ([], [3, 4])]) :
    ((team (out ++ rest)).plan {} ⟨0, 0⟩).decision.stopped = out ∧
      ((team (out ++ rest)).plan {} ⟨0, 0⟩).evict = [] ∧
      ((team (out ++ rest)).plan {} ⟨0, 0⟩).decision.added = 0 := by
  have hsorted : (out ++ rest).Pairwise (· ≤ ·) := by
    revert h
    simp only [List.mem_cons, Prod.mk.injEq, List.not_mem_nil, or_false]
    rintro (⟨rfl, rfl⟩ | ⟨rfl, rfl⟩ | ⟨rfl, rfl⟩) <;> decide
  unfold Gauge.plan Gauge.decision
  dsimp only
  rw [idleByAge_team hsorted]
  revert h
  simp only [List.mem_cons, Prod.mk.injEq, List.not_mem_nil, or_false]
  rintro (⟨rfl, rfl⟩ | ⟨rfl, rfl⟩ | ⟨rfl, rfl⟩) <;> decide +kernel

/-- a team of four, of which half has to go -/
def dwindling : Season {} where
  gauge
    | 0 => team [1, 2, 3, 4]
    | 1 => team [2, 3, 4]
    | _ + 2 => team [3, 4]
  now _ := ⟨0, 0⟩
  next
    | 0 =>
      have h := @plan_team [1] [2, 3, 4] (by simp)
      turnoverTeam [2, 3, 4] h.1 h.2.1 h.2.2
    | 1 =>
      have h := @plan_team [2] [3, 4] (by simp)
      turnoverTeam [3, 4] h.1 h.2.1 h.2.2
    | _ + 2 =>
      have h := @plan_team [] [3, 4] (by simp)
      turnoverTeam [3, 4] h.1 h.2.1 h.2.2

theorem cold_dwindling (n : ℕ) : dwindling.Cold n := by
  intro i _
  refine .inl ?_
  match i with
  | 0 | 1 => decide +kernel
  | _ + 2 =>
    show wantsDown {} ((team [3, 4]).signals 1000) = true
    decide +kernel

/-- a crowd of two becomes one of eight, and a team of four one of two -/
theorem converges_crowded : ({} : Config).validate = none ∧
    (∃ k ≤ 6, ∀ i ≥ k, crowded.size i = 8 ∧ (crowded.plan i).Still) ∧
    ∃ k ≤ 2, ∀ i ≥ k, dwindling.size i = 2 ∧ (dwindling.plan i).Still := by
  have hvalid : ({} : Config).validate = none := rfl
  obtain ⟨-, -, hhot, hcold⟩ := converges hvalid
  refine ⟨hvalid, ?_, ?_⟩
  · have hroom : crowded.size 0 ≤ 8 := by
      show (crowd 2).size ≤ 8
      rw [size_crowd]
      decide
    obtain ⟨-, k, hk, -, hlast⟩ := hhot crowded 6 (uniform_crowd 2) hroom
      fun i _ _ => wantsUp_crowd (crowdSize i)
    have hsix : k ≤ 6 := by
      have hsize : crowded.size 0 = 2 := size_crowd 2
      rw [hsize] at hk
      exact hk
    exact ⟨k, hsix, hlast hsix⟩
  · have hidle : (dwindling.gauge 0).Uniform true := by
      intro l hl
      obtain ⟨w, -, rfl⟩ := List.mem_map.mp hl
      rfl
    refine ⟨2, Nat.le_refl 2, fun i hi => ?_⟩
    obtain ⟨-, k, hk, -, hlast⟩ := hcold dwindling (i + 1) hidle (by decide)
      (cold_dwindling (i + 1))
    have hsize : k ≤ i := Nat.le_trans hk hi
    obtain ⟨htwo, hstill⟩ := hlast i hsize (Nat.le_succ i)
    exact ⟨htwo, hstill (Nat.lt_succ_self i)⟩

end Season

end TaskPool
