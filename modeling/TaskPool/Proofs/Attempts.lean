import TaskPool.Proofs.Course

/-!
# The attempts of one task

How often a task is tried is told by its retries: as long as it is in flight, as many workers were
told to run it as there were retries, and one more while it is at a worker.

* `Underway`, `Over`   the books of a task in flight, and of one that is over
* `Tally.course`       the books stay right, however the task goes on
* `Sole`               one bench at most has to do with the task
* `HasRun`             a worker has run the task since anybody was last told to
* `InStep.handles`     a step of the workshop, as far as one task is concerned
* `Tracks.step`        the books and the benches stay right with it
* `Reachable.unheard`  nothing is said of a task before it is accepted
* `Employs`            a workshop in which the task was accepted, on these terms
* `Employs.attempts`   its attempts do not overlap, and are counted exactly

Why attempts do not overlap: a task is handed out only while it waits, and then no bench names it.
-/

namespace TaskPool

open Function Relation

/-! ## the books -/

/-- the books of a task in flight: `ws` were told to run it, `os` was delivered of it, and `ran`
have run it since -/
structure Underway (terms : Terms) (ws : List WorkerId) (os : List Outcome)
    (ran : WorkerId → Prop) (t : Task) : Prop where
  agreed : t.terms = terms
  retries : t.retries.toNat ≤ terms.maxRetries.toNat
  silent : os = []
  away : t.status = .retrying ∨ t.worker = none → ws.length = t.retries.toNat
  posted : ∀ w, t.status ≠ .retrying → t.worker = some w →
    ws.length = t.retries.toNat + 1 ∧ ws.getLast? = some w
  ran : ∀ w, t.status = .running → t.worker = some w → ran w

/-- the books of a task that is over -/
structure Over (terms : Terms) (ws : List WorkerId) (os : List Outcome) (ran : WorkerId → Prop) :
    Prop where
  bound : ws.length ≤ terms.maxRetries.toNat + 1
  failed : ∀ detail attempts, .error (.failed detail attempts) ∈ os →
    attempts.toNat = terms.maxRetries.toNat + 1 ∧ ws.length = terms.maxRetries.toNat + 1
  crashed : ∀ w detail, .error (.workerCrashed w detail) ∈ os →
    ws.length = terms.maxRetries.toNat + 1 ∧ ws.getLast? = some w ∧ ran w

inductive Tally (terms : Terms) (ws : List WorkerId) (os : List Outcome)
    (ran : WorkerId → Prop) : Option Task → Prop where
  | underway (t : Task) (h : Underway terms ws os ran t) : Tally terms ws os ran (some t)
  | finished (h : Over terms ws os ran) : Tally terms ws os ran none

section
variable {terms : Terms} {ws : List WorkerId} {os : List Outcome} {ran ran' : WorkerId → Prop}

theorem Underway.length_le {t : Task} (h : Underway terms ws os ran t) :
    ws.length ≤ t.retries.toNat + 1 := by
  cases hw : t.worker with
  | none =>
    have := h.away (.inr hw)
    omega
  | some w =>
    by_cases hs : t.status = .retrying
    · have := h.away (.inl hs)
      omega
    · exact Nat.le_of_eq (h.posted w hs hw).1

theorem Underway.bound {t : Task} (h : Underway terms ws os ran t) :
    ws.length ≤ terms.maxRetries.toNat + 1 :=
  Nat.le_trans h.length_le (Nat.succ_le_succ h.retries)

theorem Tally.bound {o : Option Task} (h : Tally terms ws os ran o) :
    ws.length ≤ terms.maxRetries.toNat + 1 := by
  cases h with
  | underway t h => exact h.bound
  | finished h => exact h.bound

theorem Tally.mono {o : Option Task} (h : Tally terms ws os ran o) (hr : ∀ w, ran w → ran' w) :
    Tally terms ws os ran' o := by
  cases h with
  | underway t h =>
    exact .underway t ⟨h.agreed, h.retries, h.silent, h.away, h.posted,
      fun w hs hw => hr w (h.ran w hs hw)⟩
  | finished h =>
    refine .finished ⟨h.bound, h.failed, fun w detail ho => ?_⟩
    obtain ⟨hl, hlast, hran⟩ := h.crashed w detail ho
    exact ⟨hl, hlast, hr w hran⟩

theorem Tally.of_some {l : Ledger} {id : TaskId} {t : Task} (h : Tally terms ws os ran (l.find? id))
    (ht : l.find? id = some t) : Underway terms ws os ran t := by
  rw [ht] at h
  cases h with
  | underway _ h => exact h

theorem toNat_add_one {n : UInt32} (h : n.toNat < UInt32.size - 1) :
    (n + 1).toNat = n.toNat + 1 := by
  have hone : (1 : UInt32).toNat = 1 := rfl
  have hsize : UInt32.size = 4294967296 := rfl
  rw [UInt32.toNat_add, hone]
  rw [hsize] at h
  exact Nat.mod_eq_of_lt (by omega)

/-- a number that is below another can be counted up -/
theorem toNat_add_one_of_lt {m n : UInt32} (h : m < n) : (m + 1).toNat = m.toNat + 1 := by
  have hlast := n.toNat_lt_size
  have hlt := UInt32.lt_iff_toNat_lt.mp h
  exact toNat_add_one (by omega)

/-- **the books stay right, however the task goes on** -/
theorem Tally.course {heard : WorkerId → Prop} {id : TaskId} {l l' : Ledger}
    {us : List WorkerId} {vs : List Outcome} (h : Tally terms ws os ran (l.find? id))
    (hc : Course heard id l l' us vs) (hmax : terms.maxRetries.toNat < UInt32.size - 1)
    (hran : us = [] → ∀ w, ran w → ran' w) (hheard : ∀ w, heard w → ran w) :
    Tally terms (ws ++ us) (os ++ vs) ran' (l'.find? id) := by
  cases hc with
  | apart hl =>
    rw [hl, List.append_nil, List.append_nil]
    exact h.mono (hran rfl)
  | closed t _ ht hl ho =>
    have hu := h.of_some ht
    rw [hl, List.append_nil, hu.silent, List.nil_append]
    refine .finished ⟨hu.bound, fun detail attempts hm => ?_, fun w detail hm => ?_⟩
    · exact (ho _ hm).elim
    · exact (ho _ hm).elim
  | handed t w ht hs hw hl =>
    have hu := h.of_some ht
    have hlen := hu.away (.inr hw)
    rw [hl, List.append_nil]
    refine .underway _ ⟨hu.agreed, hu.retries, hu.silent, fun hno => ?_, fun v _ hv => ?_,
      fun v hv => ?_⟩
    · rcases hno with hno | hno
      · have hno' : t.status = .retrying := hno
        rw [hs] at hno'
        cases hno'
      · cases hno
    · cases hv
      rw [List.length_append, hlen, List.getLast?_concat]
      exact ⟨rfl, rfl⟩
    · have hv' : t.status = .running := hv
      rw [hs] at hv'
      cases hv'
  | begun t w now timer ht hs hw hh hl =>
    have hu := h.of_some ht
    have hqueued : t.status ≠ .retrying := by
      rw [hs]
      exact Status.noConfusion
    rw [hl, List.append_nil, List.append_nil]
    refine .underway _ ⟨hu.agreed, hu.retries, hu.silent, fun hno => ?_, fun v _ hv => ?_,
      fun v _ hv => ?_⟩
    · rcases hno with hno | hno <;> cases hno
    · cases hv
      exact hu.posted w hqueued hw
    · cases hv
      exact hran rfl w (hheard w hh)
  | retried t w cause now timer ht hs hw hr hl =>
    have hu := h.of_some ht
    have hrunning : t.status ≠ .retrying := by
      rw [hs]
      exact Status.noConfusion
    have hlt : t.retries.toNat < terms.maxRetries.toNat := by
      rw [← hu.agreed]
      exact hr
    have hone : (t.retries + 1).toNat = t.retries.toNat + 1 := toNat_add_one (by omega)
    rw [hl, List.append_nil, List.append_nil]
    refine .underway _ ⟨hu.agreed, ?_, hu.silent, fun _ => ?_, fun v hno => ?_, fun v hv => ?_⟩
    · show (t.retries + 1).toNat ≤ _
      omega
    · show _ = (t.retries + 1).toNat
      rw [hone]
      exact (hu.posted w hrunning hw).1
    · exact absurd rfl hno
    · cases hv
  | exhausted t w cause ht hs hw hr hc hl =>
    have hu := h.of_some ht
    have hrunning : t.status ≠ .retrying := by
      rw [hs]
      exact Status.noConfusion
    obtain ⟨hlen, hlast⟩ := hu.posted w hrunning hw
    -- the retries are used up
    have hall : t.retries.toNat = terms.maxRetries.toNat := by
      refine Nat.le_antisymm hu.retries (Nat.le_of_not_lt fun hlt => hr ?_)
      rw [hu.agreed]
      exact hlt
    have hone : (t.retries + 1).toNat = terms.maxRetries.toNat + 1 := by
      rw [toNat_add_one (by omega), hall]
    rw [hl, List.append_nil, hu.silent, List.nil_append]
    refine .finished ⟨hu.bound, fun detail attempts hm => ?_, fun v detail hm => ?_⟩
    · have heq := List.mem_singleton.mp hm
      cases cause with
      | handler d =>
        cases heq
        exact ⟨hone, by rw [hlen, hall]⟩
      | crash v d => cases heq
    · have heq := List.mem_singleton.mp hm
      cases cause with
      | handler d => cases heq
      | crash v' d =>
        cases heq
        cases hc
        exact ⟨by rw [hlen, hall], hlast, hran rfl _ (hu.ran _ hs hw)⟩
  | reset t ht hs hl =>
    have hu := h.of_some ht
    rw [hl, List.append_nil, List.append_nil]
    refine .underway _ ⟨hu.agreed, hu.retries, hu.silent, fun _ => hu.away (.inl hs),
      fun v _ hv => ?_, fun v hv => ?_⟩
    · cases hv
    · cases hv

end

/-! ## the benches -/

/-- one bench at most has to do with the task, and with one attempt of it; whoever has begun it is
among `ran` -/
structure Sole (id : TaskId) (ran : WorkerId → Prop) (bench : WorkerId → Option Bench) :
    Prop where
  sole : ∀ w w' b b', bench w = some b → bench w' = some b' → b.Names id → b'.Names id → w = w'
  once : ∀ w b, bench w = some b → b.unfinished.count id ≤ 1
  began : ∀ w b, bench w = some b → b.Began id → ran w

section
variable {id : TaskId} {ran ran' : WorkerId → Prop} {bench : WorkerId → Option Bench}

theorem Bench.count_unfinished {b : Bench} {t : TaskId} (h : ¬ b.Names t) :
    b.unfinished.count t = 0 :=
  List.count_eq_zero.mpr fun hm => h (names_of_unfinished hm)

theorem Sole.of_nobody (h : ∀ w b, bench w = some b → ¬ b.Names id) : Sole id ran bench := by
  refine ⟨fun w _ b _ hb _ hn _ => (h w b hb hn).elim, fun w b hb => ?_,
    fun w b hb hbg => (h w b hb hbg.names).elim⟩
  rw [Bench.count_unfinished (h w b hb)]
  exact Nat.zero_le 1

theorem Sole.mono (h : Sole id ran bench) (hr : ∀ w, ran w → ran' w) : Sole id ran' bench :=
  ⟨h.sole, h.once, fun w b hb hbg => hr w (h.began w b hb hbg)⟩

/-- nobody has more to do with the task than before -/
def Lighter (id : TaskId) (bench bench' : WorkerId → Option Bench) : Prop :=
  ∀ w b, bench' w = some b → b.Names id → ∃ b0, bench w = some b0 ∧ b0.Names id ∧
    b.unfinished.count id ≤ b0.unfinished.count id

theorem Lighter.refl (id : TaskId) (bench : WorkerId → Option Bench) : Lighter id bench bench :=
  fun _ b hb hn => ⟨b, hb, hn, Nat.le_refl _⟩

theorem Lighter.update {w : WorkerId} {b b' : Bench} (hb : bench w = some b)
    (hn : b'.Names id → b.Names id) (hc : b'.unfinished.count id ≤ b.unfinished.count id) :
    Lighter id bench (update bench w (some b')) := by
  intro v x hx hnx
  rcases bench_of_update hx with ⟨rfl, hnew⟩ | ⟨_, hold⟩
  · cases hnew
    exact ⟨b, hb, hn hnx, hc⟩
  · exact ⟨x, hold, hnx, Nat.le_refl _⟩

theorem Sole.lighter {bench' : WorkerId → Option Bench} (h : Sole id ran bench)
    (hl : Lighter id bench bench') (hbg : ∀ w b, bench' w = some b → b.Began id → ran w) :
    Sole id ran bench' := by
  refine ⟨fun w w' b b' hb hb' hn hn' => ?_, fun w b hb => ?_, hbg⟩
  · obtain ⟨b0, hb0, hn0, _⟩ := hl w b hb hn
    obtain ⟨b1, hb1, hn1, _⟩ := hl w' b' hb' hn'
    exact h.sole w w' b0 b1 hb0 hb1 hn0 hn1
  · by_cases hn : b.Names id
    · obtain ⟨b0, hb0, _, hle⟩ := hl w b hb hn
      exact Nat.le_trans hle (h.once w b0 hb0)
    · rw [Bench.count_unfinished hn]
      exact Nat.zero_le 1

variable {now : Nat} {es : List Effect}

/-- effects by which nobody is told to run the task -/
theorem Lighter.stage (hn : told id es = []) : Lighter id bench (stage now bench es) := by
  intro w b hb hnb
  rcases stage_names hb hnb with hw | ⟨b0, hb0, hn0⟩
  · rw [hn] at hw
    cases hw
  · refine ⟨b0, hb0, hn0, ?_⟩
    obtain ⟨prior, hprior, hle⟩ := stage_unfinished hb id
    rw [hn, List.count_nil, Nat.add_zero] at hle
    rcases hprior with rfl | ⟨b1, hb1, rfl⟩
    · exact Nat.le_trans hle (Nat.zero_le _)
    · rw [hb0] at hb1
      cases hb1
      exact hle

theorem Sole.stage (h : Sole id ran bench) (hn : told id es = []) :
    Sole id ran (stage now bench es) := by
  refine h.lighter (.stage hn) fun w b hb hbg => ?_
  obtain ⟨b0, hb0, hbg0⟩ := stage_began hb hbg
  exact h.began w b0 hb0 hbg0

/-- one worker is told to run a task that is on no bench -/
theorem Sole.hand (h : ∀ w b, bench w = some b → ¬ b.Names id) {w : WorkerId}
    (hn : told id es = [w]) : Sole id ran (TaskPool.stage now bench es) := by
  have honly {v : WorkerId} {b : Bench} (hb : TaskPool.stage now bench es v = some b)
      (hnb : b.Names id) : v = w := by
    rcases stage_names hb hnb with hv | ⟨b0, hb0, hn0⟩
    · rw [hn] at hv
      exact List.mem_singleton.mp hv
    · exact (h v b0 hb0 hn0).elim
  refine ⟨fun v v' b b' hb hb' hnb hnb' => ?_, fun v b hb => ?_, fun v b hb hbg => ?_⟩
  · exact (honly hb hnb).trans (honly hb' hnb').symm
  · obtain ⟨prior, hprior, hle⟩ := stage_unfinished hb id
    have hzero : prior.count id = 0 := by
      rcases hprior with rfl | ⟨b0, hb0, rfl⟩
      · rfl
      · exact Bench.count_unfinished (h v b0 hb0)
    have hone : ([w] : List WorkerId).count v ≤ 1 := List.count_le_length
    rw [hn, hzero, Nat.zero_add] at hle
    exact Nat.le_trans hle hone
  · obtain ⟨b0, hb0, hbg0⟩ := stage_began hb hbg
    exact (h v b0 hb0 hbg0.names).elim

end

/-! ## one step -/

namespace Pool

variable {m : Moment} {heard : WorkerId → Prop} {id : TaskId} {terms : Terms}
  {past : List Effect} {now : Nat} {bench : WorkerId → Option Bench} {run : WorkerId → Prop}

/-- within a step: nobody has been told to run the task so far, and the worker had run it before -/
def Since (id : TaskId) (run : WorkerId → Prop) (p : Pool) (w : WorkerId) : Prop :=
  told id p.outbox = [] ∧ run w

/-- the books of the task and the benches, within a step; `past` is what was asked for before -/
structure Tracked (id : TaskId) (terms : Terms) (past : List Effect) (run : WorkerId → Prop)
    (now : Nat) (bench : WorkerId → Option Bench) (p : Pool) : Prop where
  tally : Tally terms (told id (past ++ p.outbox)) (outcomes id (past ++ p.outbox))
    (Since id run p) (p.ledger.find? id)
  sole : Sole id (Since id run p) (stage now bench p.outbox)

theorem Tracked.follows {p q : Pool} (h : Tracked id terms past run now bench p)
    (hf : Follows heard id p q) (hmax : terms.maxRetries.toNat < UInt32.size - 1)
    (hheard : ∀ w, heard w → Since id run p w)
    (hwait : p.ledger.sight id = some (.queued, none) → ∀ w b,
      stage now bench p.outbox w = some b → ¬ b.Names id) :
    Tracked id terms past run now bench q := by
  obtain ⟨es, ho, hc⟩ := hf
  have hsince (hn : told id es = []) (w : WorkerId) (hw : Since id run p w) :
      Since id run q w := by
    refine ⟨?_, hw.2⟩
    rw [ho, told_append, hw.1, hn, List.append_nil]
  refine ⟨?_, ?_⟩
  · rw [ho, ← List.append_assoc, told_append, outcomes_append]
    exact h.tally.course hc hmax hsince hheard
  · rw [ho, stage_append]
    have hquiet (hn : told id es = []) :
        Sole id (Since id run q) (stage now (stage now bench p.outbox) es) :=
      (h.sole.mono (hsince hn)).stage hn
    generalize hus : told id es = us at hc
    generalize outcomes id es = vs at hc
    cases hc with
    | handed t w ht hs hw =>
      refine .hand (hwait ?_) hus
      rw [Ledger.sight_of_find? ht, hs, hw]
    | _ => exact hquiet hus

theorem Tracked.moves {taken : List TaskId} {p q : Pool}
    (h : Tracked id terms past run now bench p) (hst : Staged m now bench taken p)
    (hm : Moves m p q) (hmax : terms.maxRetries.toNat < UInt32.size - 1) :
    Tracked id terms past run now bench q := by
  have hone {r r' : Pool} (hst : Staged m now bench taken r)
      (h : Tracked id terms past run now bench r)
      (hf : Follows (fun _ => False) id r r') : Tracked id terms past run now bench r' := by
    refine h.follows hf hmax (fun _ hw => hw.elim) fun hs w b hb => ?_
    exact fun hn => (hst.harmony.of_names hb hn).2 hs
  induction hm with
  | refl => exact h
  | tail hpr hr ih =>
    have hstr := Moves.staged hst hpr
    rcases hr with hr | rfl
    · exact hone hstr ih (hr.follows hstr)
    · exact hone hstr ih (.hire _)

/-- a task that is not in flight is not begun by what a move does -/
theorem Follows.unheard {p q : Pool} (hf : Follows heard id p q)
    (hn : p.ledger.find? id = none) (ht : told id p.outbox = []) (ho : outcomes id p.outbox = []) :
    q.ledger.find? id = none ∧ told id q.outbox = [] ∧ outcomes id q.outbox = [] := by
  obtain ⟨es, he, hc⟩ := hf
  rw [he, told_append, outcomes_append, ht, ho, List.nil_append, List.nil_append]
  generalize told id es = us at hc
  generalize outcomes id es = vs at hc
  cases hc with
  | apart hl => exact ⟨hl.trans hn, rfl, rfl⟩
  | closed t _ hs | handed t _ hs | begun t _ _ _ hs | retried t _ _ _ _ hs | exhausted t _ _ hs
  | reset t hs =>
    rw [hn] at hs
    cases hs

theorem Moves.unheard {taken : List TaskId} {p q : Pool} (hst : Staged m now bench taken p)
    (hm : Moves m p q) (hn : p.ledger.find? id = none) (ht : told id p.outbox = [])
    (ho : outcomes id p.outbox = []) :
    q.ledger.find? id = none ∧ told id q.outbox = [] ∧ outcomes id q.outbox = [] := by
  induction hm with
  | refl => exact ⟨hn, ht, ho⟩
  | @tail r r' hpr hr ih =>
    obtain ⟨hn', ht', ho'⟩ := ih
    have hstr := Moves.staged hst hpr
    have hf : Follows (fun _ => False) id r r' := by
      rcases hr with hr | rfl
      · exact hr.follows hstr
      · exact .hire r
    exact hf.unheard hn' ht' ho'

theorem omits_receipt (id : TaskId) (p : Pool) (msg : Message) :
    ∀ e ∈ p.receipt msg, e.Omits id := by
  intro e he
  obtain ⟨caller, x, rfl⟩ := mem_receipt he
  exact ⟨rfl, rfl⟩

end Pool

/-! ## whole runs -/

namespace Workshop

/-- the worker has run the task since anybody was last told to, on the way from a new pool to here -/
def HasRun (c : Config) (id : TaskId) (W : Workshop) (w : WorkerId) : Prop :=
  ∃ V, Reachable c V ∧ ReflTransGen Step V W ∧ told id V.history = told id W.history ∧
    ∃ b, V.bench w = some b ∧ b.Executing id

theorem HasRun.step {c : Config} {id : TaskId} {W W' : Workshop} {w : WorkerId}
    (h : HasRun c id W w) (hs : Step W W') (ht : told id W'.history = told id W.history) :
    HasRun c id W' w := by
  obtain ⟨V, hr, hV, hsame, hb⟩ := h
  exact ⟨V, hr, hV.tail hs, hsame.trans ht.symm, hb⟩

/-- the books of the task and the benches, between two steps -/
structure Tracks (c : Config) (W : Workshop) (id : TaskId) (terms : Terms) : Prop where
  tally : Tally terms (told id W.history) (outcomes id W.history) (HasRun c id W)
    (W.pool.ledger.find? id)
  sole : Sole id (HasRun c id W) W.bench

theorem mem_accepted_receipt {id : TaskId} {p : Pool} {msg : Message}
    (h : id ∈ accepted (p.receipt msg)) : p.refusal? = none ∧
      ∃ caller kind payload options, msg = .call caller (.submit id kind payload options) := by
  obtain ⟨e, he, ha⟩ := List.mem_filterMap.mp h
  cases msg with
  | call caller request =>
    cases request with
    | submit x kind payload options =>
      simp only [Pool.receipt] at he
      split at he
      · next hr =>
        rw [List.mem_singleton.mp he] at ha
        cases ha
        exact ⟨Option.isNone_iff_eq_none.mp hr, caller, kind, payload, options, rfl⟩
      · cases he
    | _ => cases he
  | _ => cases he

section
variable {c : Config} {id : TaskId} {terms : Terms} {W V : Workshop} {m : Moment} {now : Nat}
  {msg : Message}

/-- a message is handled by the pool of `W`, with the benches of `V` -/
theorem deliver_splits (m : Moment) (now : Nat) (msg : Message) (hsound : W.pool.roster.Sound)
    (hpool : V.pool = W.pool) (hhistory : V.history = W.history) :
    ∃ p q, Pool.Impact m W.pool msg p ∧ Pool.Moves m p q ∧
      (V.deliver m now msg).pool.ledger = q.ledger ∧
      (V.deliver m now msg).history = (W.history ++ q.outbox) ++ W.pool.receipt msg ∧
      (V.deliver m now msg).bench = stage now (stage now V.bench q.outbox) (W.pool.receipt msg) := by
  obtain ⟨p, q, hi, hm, _, hq⟩ := Pool.handle_splits (m := m) hsound msg
  have hout : (V.pool.handle m msg).outbox = q.outbox ++ W.pool.receipt msg := by
    rw [hpool, hq]
    rfl
  refine ⟨p, q, hi, hm, ?_, ?_, ?_⟩
  · show (V.pool.handle m msg).ledger = _
    rw [hpool, hq]
    rfl
  · show V.history ++ (V.pool.handle m msg).outbox = _
    rw [hout, hhistory, List.append_assoc]
  · show stage now V.bench (V.pool.handle m msg).outbox = _
    rw [hout, stage_append]

theorem InStep.accepted_deliver (hin : W.InStep) (hpool : V.pool = W.pool)
    (hhistory : V.history = W.history) : accepted (V.deliver m now msg).history
      = accepted W.history ++ accepted (W.pool.receipt msg) := by
  show accepted (V.history ++ (V.pool.handle m msg).outbox) = _
  rw [hpool, hhistory, accepted_append, Pool.handle_accepted hin.tuned.sound hin.tuned.outbox]

/-- a step accepts nothing, or it is a submission that is not refused -/
theorem InStep.accepted_step (hin : W.InStep) (hs : Step W V) :
    accepted V.history = accepted W.history ∨
      ∃ m now caller id kind payload options, W.Admits m ∧ id ∉ accepted W.history ∧
        W.pool.refusal? = none ∧
        V = W.deliver m now (.call caller (.submit id kind payload options)) ∧
        accepted V.history = accepted W.history ++ [id] := by
  cases hs with
  | call m now caller request hm hd =>
    have hacc : accepted (W.deliver m now (.call caller request)).history = _ :=
      hin.accepted_deliver rfl rfl
    cases hn : accepted (W.pool.receipt (.call caller request)) with
    | nil =>
      rw [hn, List.append_nil] at hacc
      exact .inl hacc
    | cons id rest =>
      have hmem : id ∈ accepted (W.pool.receipt (.call caller request)) := by
        rw [hn]
        exact List.mem_cons_self ..
      obtain ⟨hr, _, kind, payload, options, heq⟩ := mem_accepted_receipt hmem
      cases heq
      rw [Pool.accepted_receipt hr] at hacc
      exact .inr ⟨m, now, caller, id, kind, payload, options, hm, hd, hr, rfl, hacc⟩
  | report m now w b e rest =>
    have hacc : accepted ((W.setBench w (b.pop rest)).deliver m now (.report w e)).history = _ :=
      hin.accepted_deliver rfl rfl
    exact .inl (hacc.trans (List.append_nil _))
  | alarm m now a =>
    have hacc : accepted ({ W with rung := W.rung.erase a }.deliver m now (.ring a)).history = _ :=
      hin.accepted_deliver rfl rfl
    exact .inl (hacc.trans (List.append_nil _))
  | ring | letGo | turn => exact .inl rfl

theorem InStep.accepted_subset (hin : W.InStep) (hs : Step W V) :
    accepted W.history ⊆ accepted V.history := by
  rcases hin.accepted_step hs with h | ⟨_, _, _, _, _, _, _, _, _, _, _, h⟩
  · rw [h]
    exact List.Subset.refl _
  · rw [h]
    exact List.subset_append_left _ _

/-- how the pool of `W` handles a message, as far as one task is concerned; `heard` are the workers
that report just now that they have begun it -/
structure Handles (id : TaskId) (heard : WorkerId → Prop) (W V : Workshop) (m : Moment) (now : Nat)
    (msg : Message) : Prop where
  pool : V.pool = W.pool
  history : V.history = W.history
  lighter : Lighter id W.bench V.bench
  began : ∀ w b, V.bench w = some b → b.Began id → ∃ b0, W.bench w = some b0 ∧ b0.Began id
  reported : ∀ w, heard w → ∃ b, W.bench w = some b ∧ b.Began id
  staged : ∀ q, Pool.Impact m W.pool msg q → Pool.Staged m now V.bench
    (accepted W.history ++ accepted (W.pool.receipt msg)) q
  fresh : ∀ x ∈ accepted (W.pool.receipt msg), x ∉ accepted W.history
  follows : id ∉ accepted (W.pool.receipt msg) → ∀ q, Pool.Impact m W.pool msg q →
    Pool.Follows heard id W.pool q

/-- a step is that of a worker or a timer, or a message is handled -/
theorem InStep.handles (hin : W.InStep) (hs : Step W V) (id : TaskId) :
    (V.pool = W.pool ∧ V.history = W.history ∧ Lighter id W.bench V.bench ∧
      ∀ w b, V.bench w = some b → b.Began id →
        (∃ b0, W.bench w = some b0 ∧ b0.Began id) ∨ b.Executing id) ∨
    ∃ heard V' m now msg, V = V'.deliver m now msg ∧ Handles id heard W V' m now msg := by
  cases hs with
  | call m now caller request hm hd =>
    refine .inr ⟨fun _ => False, W, m, now, _, rfl, rfl, rfl, .refl _ _, ?_, ?_, ?_, ?_, ?_⟩
    · exact fun w b hb hbg => ⟨b, hb, hbg⟩
    · exact fun _ hw => hw.elim
    · exact fun q hi => hin.staged_call now hm hd hi
    · intro x hx
      obtain ⟨_, _, _, _, _, heq⟩ := mem_accepted_receipt hx
      cases heq
      exact hd
    · exact fun hid q hi => hin.follows_call hd hid hi
  | alarm m now a hm ha =>
    refine .inr ⟨fun _ => False, { W with rung := W.rung.erase a }, m, now, _, rfl, rfl, rfl,
      .refl _ _, ?_, ?_, ?_, ?_, ?_⟩
    · exact fun w b hb hbg => ⟨b, hb, hbg⟩
    · exact fun _ hw => hw.elim
    · exact fun q hi => hin.staged_alarm now hm hi
    · exact fun _ hx => absurd hx List.not_mem_nil
    · exact fun _ q hi => hi.follows_alarm
  | report m now w b e rest hm hb ho =>
    refine .inr ⟨fun v => v = w ∧ e = .busy id, W.setBench w (b.pop rest), m, now, _, rfl, rfl, rfl,
      .update hb (Bench.names_pop ho) (Nat.le_refl _), fun v x hx hbg => ?_, ?_, ?_, ?_, ?_⟩
    · rcases bench_of_update hx with ⟨rfl, hnew⟩ | ⟨_, hold⟩
      · cases hnew
        exact ⟨b, hb, Bench.began_pop ho hbg⟩
      · exact ⟨x, hold, hbg⟩
    · rintro v ⟨rfl, rfl⟩
      refine ⟨b, hb, .inr ?_⟩
      rw [ho]
      exact List.mem_cons_self ..
    · exact fun q hi => hin.staged_report now hm hb ho hi
    · exact fun _ hx => absurd hx List.not_mem_nil
    · exact fun _ q hi => hin.follows_report hb ho hi
  | ring | letGo =>
    exact .inl ⟨rfl, rfl, .refl _ _, fun w b hb hbg => .inl ⟨b, hb, hbg⟩⟩
  | turn w b b' hb ht =>
    refine .inl ⟨rfl, rfl, .update hb ht.names (ht.sublist.count_le id), fun v x hx hbg => ?_⟩
    rcases bench_of_update hx with ⟨rfl, hnew⟩ | ⟨_, hold⟩
    · cases hnew
      exact (ht.began hbg).imp_left fun hb0 => ⟨b, hb, hb0⟩
    · exact .inl ⟨x, hold, hbg⟩

/-- the books are right after a message if they are after its impact -/
theorem tracks_deliver (hmax : terms.maxRetries.toNat < UInt32.size - 1)
    (hsound : W.pool.roster.Sound) (hpool : V.pool = W.pool) (hhistory : V.history = W.history)
    (hstep : Step W (V.deliver m now msg))
    (himpact : ∀ q, Pool.Impact m W.pool msg q →
      Pool.Staged m now V.bench (accepted W.history ++ accepted (W.pool.receipt msg)) q ∧
      Pool.Tracked id terms W.history (HasRun c id W) now V.bench q) :
    Tracks c (V.deliver m now msg) id terms := by
  obtain ⟨p1, p2, hi, hm, hledger, hhist, hbench⟩ := deliver_splits m now msg hsound hpool hhistory
  obtain ⟨hst1, htr1⟩ := himpact p1 hi
  have htr2 := htr1.moves hst1 hm hmax
  have hreceipt := Pool.omits_receipt id W.pool msg
  have htold : told id (V.deliver m now msg).history = told id (W.history ++ p2.outbox) := by
    rw [hhist, told_append, told_eq_nil hreceipt, List.append_nil]
  have hhas (w : WorkerId) (hw : Pool.Since id (HasRun c id W) p2 w) :
      HasRun c id (V.deliver m now msg) w := by
    refine hw.2.step hstep ?_
    rw [htold, told_append, hw.1, List.append_nil]
  refine ⟨?_, ?_⟩
  · rw [hledger, htold, hhist, outcomes_append, outcomes_eq_nil hreceipt, List.append_nil]
    exact htr2.tally.mono hhas
  · rw [hbench]
    exact (htr2.sole.mono hhas).stage (told_eq_nil hreceipt)

theorem Tracks.deliver {heard : WorkerId → Prop} (h : Tracks c W id terms)
    (hmax : terms.maxRetries.toNat < UInt32.size - 1) (hin : W.InStep)
    (hh : Handles id heard W V m now msg) (hid : id ∉ accepted (W.pool.receipt msg))
    (hstep : Step W (V.deliver m now msg)) : Tracks c (V.deliver m now msg) id terms := by
  have hempty : W.pool.outbox = [] := hin.tuned.outbox
  have hsince (w : WorkerId) (hw : HasRun c id W w) : Pool.Since id (HasRun c id W) W.pool w := by
    refine ⟨?_, hw⟩
    rw [hempty]
    rfl
  have hbegan {w : WorkerId} (hw : ∃ b, W.bench w = some b ∧ b.Began id) : HasRun c id W w := by
    obtain ⟨b, hb, hbg⟩ := hw
    exact h.sole.began w b hb hbg
  have htr : Pool.Tracked id terms W.history (HasRun c id W) now V.bench W.pool := by
    refine ⟨?_, ?_⟩
    · rw [hempty, List.append_nil]
      exact h.tally.mono hsince
    · rw [hempty]
      have hsole := h.sole.lighter hh.lighter fun w b hb hbg => hbegan (hh.began w b hb hbg)
      exact hsole.mono hsince
  refine tracks_deliver hmax hin.tuned.sound hh.pool hh.history hstep fun q hi => ?_
  refine ⟨hh.staged q hi, htr.follows (hh.follows hid q hi) hmax ?_ fun hs w b hb hn => ?_⟩
  · exact fun w hw => hsince w (hbegan (hh.reported w hw))
  · rw [hempty] at hb
    obtain ⟨b0, hb0, hn0, _⟩ := hh.lighter w b hb hn
    exact (hin.tuned.harmony.of_names hb0 hn0).2 hs

theorem Tracks.step (h : Tracks c W id terms) (hmax : terms.maxRetries.toNat < UInt32.size - 1)
    (hW : Reachable c W) (hid : id ∈ accepted W.history) (hs : Step W V) : Tracks c V id terms := by
  have hin := hW.inStep
  rcases hin.handles hs id with ⟨hpool, hhist, hl, hbg⟩ | ⟨heard, V', m, now, msg, rfl, hh⟩
  · have hrun (w : WorkerId) (hw : HasRun c id W w) : HasRun c id V w := hw.step hs (by rw [hhist])
    refine ⟨?_, (h.sole.mono hrun).lighter hl fun w b hb hb' => ?_⟩
    · rw [hpool, hhist]
      exact h.tally.mono hrun
    · rcases hbg w b hb hb' with ⟨b0, hb0, hbg0⟩ | hx
      · exact hrun w (h.sole.began w b0 hb0 hbg0)
      · -- the worker runs the task now
        exact ⟨V, hW.step hs, .refl, rfl, b, hb, hx⟩
  · exact h.deliver hmax hin hh (fun hx => hh.fresh id hx hid) hs

/-! ## the tasks that were not accepted -/

/-- nobody was told to run the task, and no outcome of it was delivered -/
def Unheard (id : TaskId) (W : Workshop) : Prop :=
  told id W.history = [] ∧ outcomes id W.history = []

theorem Unheard.deliver {heard : WorkerId → Prop} (h : Unheard id W) (hin : W.InStep)
    (hh : Handles id heard W V m now msg) (hid : id ∉ accepted W.history)
    (hnew : id ∉ accepted (W.pool.receipt msg)) : Unheard id (V.deliver m now msg) := by
  have hempty : W.pool.outbox = [] := hin.tuned.outbox
  obtain ⟨p, q, hi, hm, _, hhist, _⟩ := deliver_splits m now msg hin.tuned.sound hh.pool hh.history
  obtain ⟨hn, ht, ho⟩ := (hh.follows hnew p hi).unheard (hin.find?_eq_none hid)
    (by rw [hempty]; rfl) (by rw [hempty]; rfl)
  obtain ⟨_, ht', ho'⟩ := Pool.Moves.unheard (hh.staged p hi) hm hn ht ho
  have hreceipt := Pool.omits_receipt id W.pool msg
  refine ⟨?_, ?_⟩
  · rw [hhist, told_append, told_append, h.1, ht', told_eq_nil hreceipt]
    rfl
  · rw [hhist, outcomes_append, outcomes_append, h.2, ho', outcomes_eq_nil hreceipt]
    rfl

/-- **a task that was not accepted is not heard of** -/
theorem Reachable.unheard (h : Reachable c W) (hid : id ∉ accepted W.history) :
    Unheard id W := by
  induction h with
  | new => exact ⟨rfl, rfl⟩
  | @step W W' h hs ih =>
    have hin := h.inStep
    have hold : id ∉ accepted W.history := fun hx => hid (hin.accepted_subset hs hx)
    rcases hin.handles hs id with ⟨_, hhist, _⟩ | ⟨heard, V, m, now, msg, rfl, hh⟩
    · unfold Unheard
      rw [hhist]
      exact ih hold
    · rw [hin.accepted_deliver hh.pool hh.history, List.mem_append, not_or] at hid
      exact (ih hold).deliver hin hh hold hid.2

end

/-! ## the tasks that were -/

/-- the task was accepted on these terms, in a run that led here -/
inductive Employs (c : Config) (id : TaskId) : Terms → Workshop → Prop where
  | accept {W : Workshop} (h : Reachable c W) (m : Moment) (now : Nat) (caller : CallId)
      (kind : Kind) (payload : Json) (options : Options) (hm : W.Admits m)
      (hd : id ∉ accepted W.history) (hr : W.pool.refusal? = none) :
      Employs c id (Pool.terms c kind payload options)
        (W.deliver m now (.call caller (.submit id kind payload options)))
  | step {terms : Terms} {W V : Workshop} (h : Employs c id terms W) (hs : Step W V) :
      Employs c id terms V

section
variable {c : Config} {id : TaskId} {terms : Terms} {W : Workshop}

theorem Employs.reachable (h : Employs c id terms W) : Reachable c W := by
  induction h with
  | accept h m now caller kind payload options hm hd hr =>
    exact h.step (.call m now caller _ hm hd)
  | step _ hs ih => exact ih.step hs

theorem Employs.accepted (h : Employs c id terms W) : id ∈ accepted W.history := by
  induction h with
  | accept h m now caller kind payload options hm hd hr =>
    rw [h.inStep.accepted_deliver rfl rfl, Pool.accepted_receipt hr]
    exact List.mem_append_right _ (List.mem_singleton_self id)
  | step h hs ih => exact h.reachable.inStep.accepted_subset hs ih

/-- every accepted task was accepted on some terms -/
theorem Reachable.employs (h : Reachable c W) (hid : id ∈ TaskPool.accepted W.history) :
    ∃ terms, Employs c id terms W := by
  induction h with
  | new => cases hid
  | @step W W' h hs ih =>
    by_cases hold : id ∈ TaskPool.accepted W.history
    · obtain ⟨terms, he⟩ := ih hold
      exact ⟨terms, he.step hs⟩
    · rcases h.inStep.accepted_step hs with
        heq | ⟨m, now, caller, x, kind, payload, options, hm, hd, hr, rfl, heq⟩
      · rw [heq] at hid
        exact absurd hid hold
      · rw [heq] at hid
        have hx := List.mem_singleton.mp ((List.mem_append.mp hid).resolve_left hold)
        subst hx
        exact ⟨_, .accept h m now caller kind payload options hm hd hr⟩

theorem Employs.tracks (h : Employs c id terms W)
    (hmax : terms.maxRetries.toNat < UInt32.size - 1) : Tracks c W id terms := by
  induction h with
  | @accept W h m now caller kind payload options hm hd hr =>
    have hin := h.inStep
    have hempty : W.pool.outbox = [] := hin.tuned.outbox
    obtain ⟨ht, ho⟩ := h.unheard hd
    have hdraw : W.Draws (.submit id kind payload options) := hd
    refine tracks_deliver hmax hin.tuned.sound rfl rfl
      (.call m now caller _ hm hdraw) fun q hi => ⟨hin.staged_call now hm hdraw hi, ?_⟩
    have hnobody (w : WorkerId) (b : Bench) (hb : W.bench w = some b) : ¬ b.Names id :=
      fun hn => hd (hin.tuned.harmony.of_names hb hn).1
    cases hi with
    | none _ hu => exact absurd hr hu
    | accept =>
      have hfind {t : Task} (hid : t.id = id) : (W.pool.ledger.insert t).find? id = some t := by
        rw [Ledger.find?_insert W.pool.ledger (hin.find?_eq_none (hid ▸ hd)), if_pos hid.symm]
      refine ⟨?_, ?_⟩
      · show Tally _ (told id (W.history ++ W.pool.outbox)) (outcomes id (W.history ++ W.pool.outbox))
          _ ((W.pool.ledger.insert _).find? id)
        rw [hempty, List.append_nil, ht, ho, hfind rfl]
        refine .underway _ ⟨?_, Nat.zero_le _, rfl, fun _ => rfl, fun w _ hw => ?_, fun w hs => ?_⟩
        · show Pool.terms W.pool.config kind payload options = _
          rw [h.manned.config]
        · cases hw
        · cases hs
      · show Sole id _ (stage now W.bench W.pool.outbox)
        rw [hempty]
        exact .of_nobody hnobody
  | step h hs ih => exact (ih hmax).step hmax h.reachable h.accepted hs

end

/-- what can be said of the attempts of one task -/
structure Attempted (c : Config) (W : Workshop) (id : TaskId) (terms : Terms) : Prop where
  /-- one worker at most has an attempt of it before it -/
  alone : ∀ w w' b b', W.bench w = some b → W.bench w' = some b' →
    id ∈ b.unfinished → id ∈ b'.unfinished → w = w'
  /-- and not two -/
  once : ∀ w b, W.bench w = some b → b.unfinished.count id ≤ 1
  bounded : (told id W.history).length ≤ terms.maxRetries.toNat + 1
  failed : ∀ detail attempts, Effect.deliver id (.error (.failed detail attempts)) ∈ W.history →
    attempts.toNat = terms.maxRetries.toNat + 1 ∧
      (told id W.history).length = terms.maxRetries.toNat + 1
  /-- the worker that is blamed was the last to be told, and ran the task after that -/
  crashed : ∀ w detail, Effect.deliver id (.error (.workerCrashed w detail)) ∈ W.history →
    (told id W.history).length = terms.maxRetries.toNat + 1 ∧
      (told id W.history).getLast? = some w ∧ HasRun c id W w

/-- **the attempts of a task do not overlap, and are counted exactly** -/
theorem Employs.attempts {c : Config} {id : TaskId} {terms : Terms} {W : Workshop}
    (h : Employs c id terms W) (hmax : terms.maxRetries.toNat < UInt32.size - 1) :
    Attempted c W id terms := by
  have ht := h.tracks hmax
  have hover {o : Outcome} (ho : .deliver id o ∈ W.history) :
      Over terms (told id W.history) (outcomes id W.history) (HasRun c id W) := by
    have htally := ht.tally
    generalize W.pool.ledger.find? id = x at htally
    cases htally with
    | finished h => exact h
    | underway t h =>
      have hmem := mem_outcomes.mpr ho
      rw [h.silent] at hmem
      cases hmem
  refine ⟨fun w w' b b' hb hb' hx hx' => ?_, ht.sole.once, ht.tally.bound,
    fun detail attempts ho => ?_, fun w detail ho => ?_⟩
  · exact ht.sole.sole w w' b b' hb hb' (Bench.names_of_unfinished hx)
      (Bench.names_of_unfinished hx')
  · exact (hover ho).failed detail attempts (mem_outcomes.mpr ho)
  · exact (hover ho).crashed w detail (mem_outcomes.mpr ho)

/-- a task that is not to be tried again -/
def oneChance : Options := { maxRetries := some 0 }

/-- a worker that runs its first task -/
def working : Bench :=
  { announced with
    worker := { announced.worker with
      phase := .running ⟨7⟩
      meter := announced.worker.meter.enter 0 }
    outgoing := [.busy ⟨7⟩] }

def panicked : Bench :=
  { working with worker := working.worker.endWith (.panicked "out of disk") }

/-- nothing of that was handled by the pool so far -/
def mourned : Bench :=
  { panicked with
    reported := true
    outgoing := [.busy ⟨7⟩, .fatal "out of disk", .exited false] }

/-- a pool whose only worker has panicked over such a task -/
def bereft : Workshop :=
  let told := staffed.deliver calmMoment 0 (.call 1 (.submit ⟨7⟩ .cacheCleanup .null oneChance))
  let ended := ((told.setBench 1 working).setBench 1 panicked).setBench 1 mourned
  let begun := (ended.setBench 1 (mourned.pop [.fatal "out of disk", .exited false])).deliver
    calmMoment 0 (.report 1 (.busy ⟨7⟩))
  (begun.setBench 1 (mourned.pop [.exited false])).deliver calmMoment 0
    (.report 1 (.fatal "out of disk"))

theorem employs_bereft : Employs Chronicle.single ⟨7⟩
    (Pool.terms Chronicle.single .cacheCleanup .null oneChance) bereft := by
  have htold : Employs Chronicle.single ⟨7⟩ _ _ := .accept reachable_staffed calmMoment 0 1
    .cacheCleanup .null oneChance (admits_calmMoment staffed) List.not_mem_nil rfl
  have hworking := htold.step (.turn 1 ((announced.pop []).tell (.task ⟨7⟩ .cacheCleanup .null))
    working rfl (.step 0 0 (working.worker, [.busy ⟨7⟩]) rfl))
  have hpanicked := hworking.step
    (.turn 1 working panicked rfl (.finish 0 (.panic (some "out of disk"))))
  have hmourned := hpanicked.step
    (.turn 1 panicked mourned rfl (.watch (.panicked "out of disk") rfl rfl))
  have hbegun := hmourned.step (.report calmMoment 0 1 mourned (.busy ⟨7⟩)
    [.fatal "out of disk", .exited false] (admits_calmMoment _) rfl rfl)
  exact hbegun.step (.report calmMoment 0 1 (mourned.pop [.fatal "out of disk", .exited false])
    (.fatal "out of disk") [.exited false] (admits_calmMoment _) rfl rfl)

/-- the worker that panicked is blamed, and was told once -/
theorem attempts_bereft : Employs Chronicle.single ⟨7⟩
      (Pool.terms Chronicle.single .cacheCleanup .null oneChance) bereft ∧
    Attempted Chronicle.single bereft ⟨7⟩
      (Pool.terms Chronicle.single .cacheCleanup .null oneChance) ∧
    outcomes ⟨7⟩ bereft.history = [.error (.workerCrashed 1 "out of disk")] ∧
    told ⟨7⟩ bereft.history = [1] :=
  ⟨employs_bereft, employs_bereft.attempts (by decide), rfl, rfl⟩

end Workshop

end TaskPool
