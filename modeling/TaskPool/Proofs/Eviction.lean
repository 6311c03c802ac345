import TaskPool.Config.Environment
import TaskPool.Proofs.Bounds
import Mathlib.Data.List.TakeWhile

/-!
# Who is let go for being idle

* `LongestStart`          the longest list that another one starts with, of bounded length, all of
                          it with some property
* `Load.lapsed`           a worker has been idle for more than a limit
* `Gauge.staying`         the idle workers that a decision does not stop, by their age
* `Gauge.evict_eq`        a plan lets go those of them that have lapsed, as long as more than the
                          minimum remain
* `Gauge.KeepsToTimeout`  they are the longest start, and the limit is the timeout
* `Gauge.evict_exact_iff` which holds of all plans if and only if the timeout, of 64 bits, fits
                          in 63

The timeout is compared as a number of 64 bits with a sign.  One that does not fit is read as a
limit below zero, so that the longest timeouts let everybody go at once.
-/

namespace TaskPool

/-! ## a timeout read with a sign -/

theorem size_uInt64 : UInt64.size = 2 ^ 64 := rfl

theorem signed64_of_lt {n : Nat} (h : n < 2 ^ 63) : signed64 n = n := by
  unfold signed64
  refine Int.bmod_eq_of_le ?_ ?_ <;> rw [size_uInt64] <;> omega

theorem signed64_neg {n : Nat} (h : 2 ^ 63 ≤ n) (hn : n < UInt64.size) : signed64 n < 0 := by
  have hle : ((UInt64.size : ℤ) + 1) / 2 ≤ n := by
    rw [size_uInt64]
    omega
  have hmod : (n : ℤ) % UInt64.size = n :=
    Int.emod_eq_of_lt (by omega) (by exact_mod_cast hn)
  unfold signed64
  rw [Int.bmod_def, hmod, if_neg (not_lt.mpr hle)]
  omega

/-! ## the longest start of a list -/

/-- `ys` is the longest list that `xs` starts with, of those that have at most `k` elements, all of
them with `p` -/
structure LongestStart {α : Type} (p : α → Bool) (k : Nat) (xs ys : List α) : Prop where
  starts : ys <+: xs
  length_le : ys.length ≤ k
  all : ∀ y ∈ ys, p y = true
  longest : ∀ zs, zs <+: xs → zs.length ≤ k → (∀ z ∈ zs, p z = true) → zs.length ≤ ys.length

theorem longestStart_take {α : Type} (p : α → Bool) (k : Nat) (xs : List α) :
    LongestStart p k xs ((xs.takeWhile p).take k) where
  starts := (List.take_prefix _ _).trans (List.takeWhile_prefix _)
  length_le := List.length_take_le _ _
  all y hy := List.mem_takeWhile_imp ((List.take_sublist _ _).subset hy)
  longest := by
    rintro zs ⟨rest, rfl⟩ hk hall
    rw [List.takeWhile_append_of_pos hall, List.length_take, List.length_append]
    omega

/-- where every element with `p` comes before the others -/
theorem filter_eq_takeWhile {α : Type} {p : α → Bool} {xs : List α}
    (h : xs.Pairwise fun a b => p b = true → p a = true) : xs.filter p = xs.takeWhile p := by
  induction xs with
  | nil => rfl
  | cons x xs ih =>
    obtain ⟨hx, hxs⟩ := List.pairwise_cons.mp h
    cases hp : p x with
    | true => rw [List.filter_cons_of_pos hp, List.takeWhile_cons_of_pos hp, ih hxs]
    | false =>
      have hnone : xs.filter p = [] := by
        refine List.filter_eq_nil_iff.mpr fun y hy hpy => ?_
        exact absurd (hx y hy hpy) (by simp [hp])
      rw [List.filter_cons_of_neg (by simp [hp]), List.takeWhile_cons_of_neg (by simp [hp]), hnone]

/-! ## how long a worker has been idle -/

namespace Timestamp

theorem nanosSince_eq {later earlier : Timestamp} (hl : later.isLeap = false)
    (he : earlier.isLeap = false) :
    later.nanosSince earlier = later.totalNanos - earlier.totalNanos := by
  simp [nanosSince, leapNanos, hl, he]

theorem isLeap_ofNanos (n : Int) : (ofNanos n).isLeap = false := by
  have h : (n % 1000000000).toNat < 1000000000 := by omega
  exact decide_eq_false (Nat.not_le.mpr h)

theorem millisSince_ofMillis (m n : Int) : (ofMillis m).millisSince (ofMillis n) = m - n := by
  unfold millisSince ofMillis
  rw [nanosSince_eq (isLeap_ofNanos _) (isLeap_ofNanos _), totalNanos_ofNanos,
    totalNanos_ofNanos, ← Int.sub_mul]
  exact Int.mul_tdiv_cancel _ (by decide)

end Timestamp

namespace Load

/-- idle for more than `limit` milliseconds -/
def lapsed (limit : Int) (now : Timestamp) (l : Load) : Bool :=
  decide (limit < now.millisSince l.lastActivity)

theorem lapsed_iff {limit : Int} {now : Timestamp} {l : Load} :
    l.lapsed limit now = true ↔ limit < now.millisSince l.lastActivity := decide_eq_true_iff

theorem totalNanos_le {a b : Load} (h : a.age ≤ b.age) (ha : a.lastActivity.isLeap = false) :
    a.lastActivity.totalNanos ≤ b.lastActivity.totalNanos := by
  have hlt : a.lastActivity.nanos < 1000000000 := by simpa [Timestamp.isLeap] using ha
  have hcases : a.lastActivity.seconds < b.lastActivity.seconds ∨
      a.lastActivity.seconds = b.lastActivity.seconds ∧
        a.lastActivity.nanos ≤ b.lastActivity.nanos := by
    simp only [age, Prod.Lex.le_iff, ofLex_toLex] at h
    omega
  unfold Timestamp.totalNanos
  omega

/-- who has been idle for longer has lapsed before -/
theorem lapsed_of_age_le {limit : Int} {now : Timestamp} {a b : Load} (h : a.age ≤ b.age)
    (hnow : now.isLeap = false) (ha : a.lastActivity.isLeap = false)
    (hb : b.lastActivity.isLeap = false) (hlapsed : b.lapsed limit now = true) :
    a.lapsed limit now = true := by
  rw [lapsed_iff, Timestamp.millisSince, Timestamp.nanosSince_eq hnow ‹_›] at *
  have hle := totalNanos_le h ha
  exact hlapsed.trans_le (Int.tdiv_le_tdiv (by decide) (by omega))

/-- past midnight, the earlier of two times may lie less far back if it is inside a leap second -/
example : Timestamp.lt ⟨86399, 1500000000⟩ ⟨86400, 300000000⟩ = true ∧
    Timestamp.millisSince ⟨86400, 450000000⟩ ⟨86399, 1500000000⟩ = -50 ∧
    Timestamp.millisSince ⟨86400, 450000000⟩ ⟨86400, 300000000⟩ = 150 := by
  decide

end Load

/-! ## who is let go -/

namespace Gauge

variable {g : Gauge} {c : Config} {now : Timestamp}

theorem overdue_eq (c : Config) (now : Timestamp) :
    overdue c now = Load.lapsed (signed64 c.idleTimeout.millis) now := rfl

theorem evictions_eq (c : Config) (now : Timestamp) (stopping : List WorkerId) (n : Nat)
    (ls : List Load) :
    evictions c now stopping n ls
      = (((ls.filter fun l => !stopping.contains l.worker).filter
          (Load.lapsed (signed64 c.idleTimeout.millis) now)).take (n - c.minWorkers)).map
            Load.worker := by
  rw [← overdue_eq]
  -- the loop stops when it has taken what may go; what is skipped does not count
  induction ls generalizing n with
  | nil => simp [evictions]
  | cons l ls ih =>
    unfold evictions
    by_cases hmin : n ≤ c.minWorkers
    · rw [if_pos hmin, Nat.sub_eq_zero_of_le hmin, List.take_zero, List.map_nil]
    · rw [if_neg hmin]
      by_cases hstop : stopping.contains l.worker = true
      · rw [if_pos hstop, ih n, List.filter_cons_of_neg (by simpa using hstop)]
      · rw [if_neg hstop, List.filter_cons_of_pos (by simpa using hstop)]
        by_cases hover : overdue c now l = true
        · obtain ⟨k, hk⟩ : ∃ k, n - c.minWorkers = k + 1 := ⟨n - c.minWorkers - 1, by omega⟩
          have hfewer : n - 1 - c.minWorkers = k := by omega
          rw [if_pos hover, ih (n - 1), List.filter_cons_of_pos hover, hk, hfewer,
            List.take_succ_cons, List.map_cons]
        · rw [if_neg hover, ih n, List.filter_cons_of_neg hover]

/-- the idle workers that a decision does not stop, by their age -/
def staying (g : Gauge) (d : Decision) : List Load :=
  g.idleByAge.filter fun l => !d.stopped.contains l.worker

/-- how many workers may go after a decision -/
def spare (g : Gauge) (c : Config) (d : Decision) : Nat := g.sizeAfter d - c.minWorkers

theorem evict_eq (g : Gauge) (c : Config) (now : Timestamp) :
    (g.plan c now).evict = (((g.staying (g.plan c now).decision).filter
      (Load.lapsed (signed64 c.idleTimeout.millis) now)).take
        (g.spare c (g.plan c now).decision)).map Load.worker :=
  evictions_eq c now _ _ _

theorem staying_perm (g : Gauge) (d : Decision) :
    (g.staying d).Perm
      (g.loads.filter fun l => l.isIdle && !d.stopped.contains l.worker) := by
  rw [← List.filter_filter]
  have h := g.idleByAge_perm.filter fun l => !d.stopped.contains l.worker
  rwa [List.filter_comm] at h

theorem staying_sorted (h : (g.loads.map Load.worker).Nodup) (d : Decision) :
    (g.staying d).Pairwise fun a b => a.age < b.age :=
  (idleByAge_sorted h).sublist List.filter_sublist

theorem mem_staying {d : Decision} {l : Load} :
    l ∈ g.staying d ↔ l ∈ g.loads ∧ l.status = .idle ∧ l.worker ∉ d.stopped := by
  rw [staying, List.mem_filter, mem_idleByAge, and_assoc]
  simp

/-- the numbers of the workers differ, and no time is inside a leap second: no clock shows one -/
structure Clocked (g : Gauge) (now : Timestamp) : Prop where
  nodup : (g.loads.map Load.worker).Nodup
  now : now.isLeap = false
  loads : ∀ l ∈ g.loads, l.lastActivity.isLeap = false

/-- of the idle workers that are not stopped, those that are let go are the longest start by age
that has been idle for longer than the timeout and leaves the minimum -/
structure Dismissal (g : Gauge) (c : Config) (now : Timestamp) (stay due : List Load) : Prop where
  perm : stay.Perm
    (g.loads.filter fun l => l.isIdle && !(g.plan c now).decision.stopped.contains l.worker)
  sorted : stay.Pairwise fun a b => a.age < b.age
  longest : LongestStart (Load.lapsed c.idleTimeout.millis now)
    (g.sizeAfter (g.plan c now).decision - c.minWorkers) stay due
  evict : (g.plan c now).evict = due.map Load.worker

def KeepsToTimeout (g : Gauge) (c : Config) (now : Timestamp) : Prop :=
  ∃ stay due, g.Dismissal c now stay due

/-- no worker is let go before it has been idle for longer than the timeout -/
def Patient (g : Gauge) (c : Config) (now : Timestamp) : Prop :=
  ∀ l ∈ g.loads, l.worker ∈ (g.plan c now).evict →
    (c.idleTimeout.millis : ℤ) < now.millisSince l.lastActivity

theorem Clocked.lapsed_of_age_lt (h : g.Clocked now) {limit : ℤ} {a b : Load} (ha : a ∈ g.loads)
    (hb : b ∈ g.loads) (hab : a.age < b.age) (hlapsed : b.lapsed limit now = true) :
    a.lapsed limit now = true :=
  Load.lapsed_of_age_le hab.le h.now (h.loads a ha) (h.loads b hb) hlapsed

theorem Clocked.filter_staying (h : g.Clocked now) (d : Decision) (limit : ℤ) :
    (g.staying d).filter (Load.lapsed limit now)
      = (g.staying d).takeWhile (Load.lapsed limit now) := by
  refine filter_eq_takeWhile ((staying_sorted h.nodup d).imp_of_mem fun ha hb hab => ?_)
  exact h.lapsed_of_age_lt (mem_staying.mp ha).1 (mem_staying.mp hb).1 hab

theorem Clocked.keepsToTimeout (h : g.Clocked now) (hc : c.idleTimeout.millis < 2 ^ 63) :
    g.KeepsToTimeout c now := by
  refine ⟨_, _, g.staying_perm _, staying_sorted h.nodup _, longestStart_take _ _ _, ?_⟩
  rw [← h.filter_staying, evict_eq, signed64_of_lt hc]
  rfl

/-- who is let go has been idle for longer than the timeout, read with its sign -/
theorem lapsed_of_mem_evict (h : (g.loads.map Load.worker).Nodup) {l : Load} (hl : l ∈ g.loads)
    (hmem : l.worker ∈ (g.plan c now).evict) :
    signed64 c.idleTimeout.millis < now.millisSince l.lastActivity := by
  rw [evict_eq] at hmem
  obtain ⟨l', hl', hworker⟩ := List.mem_map.mp hmem
  obtain ⟨hstay, hlapsed⟩ := List.mem_filter.mp ((List.take_sublist _ _).subset hl')
  obtain rfl := List.inj_on_of_nodup_map h (mem_staying.mp hstay).1 hl hworker
  exact Load.lapsed_iff.mp hlapsed

theorem patient (h : (g.loads.map Load.worker).Nodup) (hc : c.idleTimeout.millis < 2 ^ 63) :
    g.Patient c now := fun l hl hmem => by
  rw [← signed64_of_lt hc]
  exact lapsed_of_mem_evict h hl hmem

theorem KeepsToTimeout.patient (h : g.KeepsToTimeout c now)
    (hnodup : (g.loads.map Load.worker).Nodup) : g.Patient c now := by
  intro l hl hmem
  obtain ⟨stay, due, hd⟩ := h
  rw [hd.evict] at hmem
  obtain ⟨l', hl', hworker⟩ := List.mem_map.mp hmem
  have hloads := (List.mem_filter.mp (hd.perm.subset (hd.longest.starts.subset hl'))).1
  obtain rfl := List.inj_on_of_nodup_map hnodup hloads hl hworker
  exact Load.lapsed_iff.mp (hd.longest.all l' hl')

/-! ## a timeout that is read as less than it is -/

/-- `n` idle workers, last active when time began -/
def crew (n : Nat) : Gauge where
  loads := (List.range n).map fun i =>
    { worker := i + 1
      status := .idle
      cpu := some 50.0
      lastActivity := .ofMillis 0 }
  queued := 0

theorem workers_crew (n : Nat) : (crew n).loads.map Load.worker = (List.range n).map (· + 1) := by
  rw [crew, List.map_map]
  rfl

theorem of_mem_crew {n : Nat} {l : Load} (h : l ∈ (crew n).loads) :
    l.status = .idle ∧ l.lastActivity = .ofMillis 0 := by
  obtain ⟨i, _, rfl⟩ := List.mem_map.mp h
  exact ⟨rfl, rfl⟩

theorem millisSince_crew {n : Nat} {l : Load} (h : l ∈ (crew n).loads) :
    Timestamp.millisSince (.ofMillis 0) l.lastActivity = 0 := by
  rw [(of_mem_crew h).2, Timestamp.millisSince_ofMillis, sub_zero]

theorem lapsed_crew (n : Nat) (h : 2 ^ 63 ≤ c.idleTimeout.millis)
    (hc : c.idleTimeout.millis < UInt64.size) :
    ∀ l ∈ (crew n).loads,
      signed64 c.idleTimeout.millis < Timestamp.millisSince (.ofMillis 0) l.lastActivity := by
  intro l hl
  rw [millisSince_crew hl]
  exact signed64_neg h hc

theorem clocked_crew (n : Nat) : (crew n).Clocked (.ofMillis 0) where
  nodup := by
    rw [workers_crew]
    exact List.nodup_range.map fun _ _ => Nat.succ.inj
  now := Timestamp.isLeap_ofNanos _
  loads l hl := by
    rw [(of_mem_crew hl).2]
    exact Timestamp.isLeap_ofNanos _

/-- there are more idle workers than a decision may stop -/
theorem staying_ne_nil (hidle : ∀ l ∈ g.loads, l.status = .idle)
    (hnodup : (g.loads.map Load.worker).Nodup) {d : Decision} (h : d.stopped.length < g.size) :
    g.staying d ≠ [] := by
  intro hnil
  have hall : g.loads.map Load.worker ⊆ d.stopped := by
    intro w hw
    obtain ⟨l, hl, rfl⟩ := List.mem_map.mp hw
    by_contra hout
    have hmem : l ∈ g.staying d := mem_staying.mpr ⟨hl, hidle l hl, hout⟩
    rw [hnil] at hmem
    cases hmem
  have hle := (hnodup.subperm hall).length_le
  rw [List.length_map] at hle
  exact absurd hle (Nat.not_le.mpr h)

theorem length_stopped_lt {s : Signals} (h : 2 ≤ g.size) :
    (g.decision c s).stopped.length < g.size := by
  cases hd : g.decision c s with
  | up | hold => exact Nat.lt_of_lt_of_le Nat.zero_lt_two h
  | down ids =>
    rw [(decision_eq_down hd).2.2]
    show (List.map _ _).length < _
    rw [List.length_map, List.length_take]
    unfold shrinkage
    omega

/-- twice the minimum, and two more, leave somebody to spare whatever is decided -/
theorem spare_pos {s : Signals} (h : g.size = 2 * c.minWorkers + 2) :
    0 < g.spare c (g.decision c s) := by
  unfold spare
  cases hd : g.decision c s with
  | up n =>
    show 0 < g.size + n - _
    omega
  | hold =>
    show 0 < g.size - _
    omega
  | down ids =>
    have hlen : ids.length ≤ (g.size + 9) / 10 := by
      rw [(decision_eq_down hd).2.2, List.length_map, List.length_take]
      unfold shrinkage
      omega
    show 0 < g.size - ids.length - _
    omega

/-- where all have lapsed, those who may go do -/
theorem evict_of_lapsed
    (h : ∀ l ∈ g.loads, signed64 c.idleTimeout.millis < now.millisSince l.lastActivity) :
    (g.plan c now).evict = ((g.staying (g.plan c now).decision).take
      (g.spare c (g.plan c now).decision)).map Load.worker := by
  rw [evict_eq, List.filter_eq_self.mpr fun l hl => Load.lapsed_iff.mpr (h l (mem_staying.mp hl).1)]

theorem exists_evict (hidle : ∀ l ∈ g.loads, l.status = .idle)
    (hnodup : (g.loads.map Load.worker).Nodup) (hsize : g.size = 2 * c.minWorkers + 2)
    (hlapsed : ∀ l ∈ g.loads,
      signed64 c.idleTimeout.millis < now.millisSince l.lastActivity) :
    ∃ l ∈ g.loads, l.worker ∈ (g.plan c now).evict := by
  have hstay : g.staying (g.plan c now).decision ≠ [] :=
    staying_ne_nil hidle hnodup (length_stopped_lt (by omega))
  have hspare : 0 < g.spare c (g.plan c now).decision := spare_pos hsize
  obtain ⟨l, rest, hl⟩ := List.exists_cons_of_ne_nil hstay
  obtain ⟨k, hk⟩ := Nat.exists_eq_succ_of_ne_zero hspare.ne'
  have hmem : l ∈ g.staying (g.plan c now).decision := by
    rw [hl]
    exact List.mem_cons_self
  refine ⟨l, (mem_staying.mp hmem).1, ?_⟩
  rw [evict_of_lapsed hlapsed, hl, hk, List.take_succ_cons]
  exact List.mem_cons_self

/-- somebody is let go that has been idle for no time at all -/
theorem not_patient_crew (h : 2 ^ 63 ≤ c.idleTimeout.millis)
    (hc : c.idleTimeout.millis < UInt64.size) :
    ¬ (crew (2 * c.minWorkers + 2)).Patient c (.ofMillis 0) := by
  intro hpatient
  have hsize : (crew (2 * c.minWorkers + 2)).size = 2 * c.minWorkers + 2 := by
    rw [size, crew, List.length_map, List.length_range]
  obtain ⟨l, hl, hevict⟩ := exists_evict (fun l hl => (of_mem_crew hl).1)
    (clocked_crew _).nodup hsize (lapsed_crew _ h hc)
  have hlate := hpatient l hl hevict
  rw [millisSince_crew hl] at hlate
  omega

/-- **idle workers are let go by the idle timeout** if and only if it fits in 63 bits: then they are
the longest start by age that is past it, and nobody goes early; with a longer one, those who may
go do, however short they have been idle -/
theorem evict_exact_iff (c : Config) (hc : c.idleTimeout.millis < UInt64.size) :
    (∀ (g : Gauge) (now : Timestamp), (g.plan c now).evict
      = (((g.staying (g.plan c now).decision).filter
          (Load.lapsed (signed64 c.idleTimeout.millis) now)).take
            (g.spare c (g.plan c now).decision)).map Load.worker) ∧
      ((∀ (g : Gauge) (now : Timestamp), g.Clocked now → g.KeepsToTimeout c now) ↔
        c.idleTimeout.millis < 2 ^ 63) ∧
      ((∀ (g : Gauge) (now : Timestamp), (g.loads.map Load.worker).Nodup → g.Patient c now) ↔
        c.idleTimeout.millis < 2 ^ 63) ∧
      (2 ^ 63 ≤ c.idleTimeout.millis →
        ∀ (g : Gauge) (now : Timestamp), (∀ l ∈ g.loads, 0 ≤ now.millisSince l.lastActivity) →
          (g.plan c now).evict = ((g.staying (g.plan c now).decision).take
            (g.spare c (g.plan c now).decision)).map Load.worker) := by
  refine ⟨fun g now => g.evict_eq c now, ⟨fun h => ?_, fun hc g now h => h.keepsToTimeout hc⟩,
    ⟨fun h => ?_, fun hc g now h => patient h hc⟩, fun h g now hidle => ?_⟩
  · -- a crew of which somebody is let go too early, whatever its settings make of the signals
    by_contra hlong
    have hclocked := clocked_crew (2 * c.minWorkers + 2)
    exact not_patient_crew (Nat.not_lt.mp hlong) hc ((h _ _ hclocked).patient hclocked.nodup)
  · by_contra hlong
    exact not_patient_crew (Nat.not_lt.mp hlong) hc (h _ _ (clocked_crew _).nodup)
  · exact evict_of_lapsed fun l hl => (signed64_neg h hc).trans_le (hidle l hl)

/-- a timeout of 2 ^ 63 ms, the first that does not fit -/
def unhurried : Config := { minWorkers := 1, idleTimeout := .ofMillis (2 ^ 63) }

theorem ofEnvironment_unhurried : Config.ofEnvironment
    [("POOL_MIN_WORKERS", "1"), ("POOL_IDLE_TIMEOUT_MS", "9223372036854775808")]
      = .ok unhurried := by
  rfl

/-- two of three go that have been idle for no time at all -/
theorem evict_unhurried : ((crew 3).plan unhurried (.ofMillis 0)).evict = [1, 2] := by
  have hdecision : ((crew 3).plan unhurried (.ofMillis 0)).decision = .hold := by
    decide +kernel
  have hsorted : (crew 3).idleByAge = (crew 3).loads.filter Load.isIdle :=
    List.mergeSort_of_pairwise (by decide)
  rw [evict_of_lapsed (lapsed_crew 3 (by decide) (by decide)), hdecision, staying, hsorted]
  decide

/-- the default is kept to, and this one is not -/
theorem evict_exact_unhurried : ({} : Config).idleTimeout.millis < UInt64.size ∧
    unhurried.idleTimeout.millis < UInt64.size ∧
    (∀ (g : Gauge) (now : Timestamp), g.Clocked now → g.KeepsToTimeout {} now) ∧
    ¬ ∀ (g : Gauge) (now : Timestamp), g.Clocked now → g.KeepsToTimeout unhurried now :=
  ⟨by decide, by decide, (evict_exact_iff {} (by decide)).2.1.mpr (by decide),
    fun h => absurd ((evict_exact_iff unhurried (by decide)).2.1.mp h) (by decide)⟩

/-- **idle workers are not let go by the idle timeout** alone, with settings that anybody can make
and that are valid -/
theorem not_keepsToTimeout_unhurried : ¬ ∀ (env : Environment) (c : Config) (g : Gauge)
    (now : Timestamp), Config.ofEnvironment env = .ok c → c.validate = none → g.Clocked now →
      g.KeepsToTimeout c now := by
  intro h
  have hclocked := clocked_crew 3
  have hkeeps := h _ unhurried (crew 3) (.ofMillis 0) ofEnvironment_unhurried rfl hclocked
  have hfirst : ∃ l ∈ (crew 3).loads, l.worker = 1 := ⟨_, List.mem_cons_self, rfl⟩
  obtain ⟨l, hl, hone⟩ := hfirst
  have hlate := hkeeps.patient hclocked.nodup l hl (by rw [evict_unhurried, hone]; decide)
  rw [millisSince_crew hl] at hlate
  exact absurd hlate (by decide)

end Gauge

end TaskPool
