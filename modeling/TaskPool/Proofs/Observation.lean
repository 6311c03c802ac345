import TaskPool.Proofs.Punctuality
import TaskPool.Proofs.Shadow

/-!
# Observers do not disturb

A run is given by what is done in it, one `Deed` after the other: which message is handled and what
the pool believes then, which bench takes a turn and how, which timer goes off, how time passes.
Without the deeds that only observers bring about, and with any other readings of the clock, the
rest is the schedule of a run that hands the same tasks to the same workers, in the same order and
with the same outcomes.

* `Deed`, `Does`, `Runs`   what is done, and what comes of it
* `reachable_iff_runs`  every reachable workday is one that some schedule leads to
* `Runs.unique`         and a schedule leads to no other
* `Tickless`            a pool that does not scale itself has set no timer for that
* `Workday.Shadow D E`  `E` is `D` without observers
* `Shadow.follow`, `Shadow.skip`   what is done in `D` is done in `E`, too, or casts no shadow
* `Unperturbed`         what the two have in common
* `Runs.unobserved`     every run has its run without observers, and they have that in common

Why the schedule keeps its order: who is faster is up to the world.  Whoever observes may make the
world slower, but at no point does the pool, or a worker, go on differently for it.
-/

namespace TaskPool

open Function

/-! ## a pool that does not scale itself -/

theorem wind_tickless {es : List Effect} (hes : ∀ e ∈ es, e.ticks = false) {timers : List Timer}
    (h : ∀ t ∈ timers, t.alarm ≠ .autoscaleTick) :
    ∀ t ∈ wind timers es, t.alarm ≠ .autoscaleTick := by
  induction es generalizing timers with
  | nil => exact h
  | cons e es ih =>
    refine ih (fun x hx => hes x (List.mem_cons_of_mem e hx)) ?_
    have he := hes e (List.mem_cons_self ..)
    intro t ht
    cases e with
    | arm i d a =>
      rcases List.mem_append.mp ht with ht | ht
      · exact h t ht
      · rw [List.mem_singleton.mp ht]
        simpa [Effect.ticks] using he
    | armEvery => cases he
    | disarm i => exact h t (List.mem_filter.mp ht).1
    | _ => exact h t ht

namespace Workshop

/-- no timer of the autoscaler is set, and none went off -/
structure Tickless (W : Workshop) : Prop where
  config : W.pool.config.autoscaling = false
  timers : ∀ t ∈ W.timers, t.alarm ≠ .autoscaleTick
  rung : ∀ a ∈ W.rung, a ≠ .autoscaleTick

variable {c : Config} {W V : Workshop}

theorem Tickless.deliver (h : W.Tickless) (hs : W.pool.roster.Sound) (hout : W.pool.outbox = [])
    {msg : Message} (ht : msg ≠ .ring .autoscaleTick) (m : Moment) (now : Nat) :
    (W.deliver m now msg).Tickless := by
  refine ⟨(Pool.handle_unticked hs msg).config ▸ h.config, ?_, h.rung⟩
  refine wind_tickless (fun e he => ?_) h.timers
  cases ho : msg.observes with
  | true =>
    have hobs := (Pool.handle_observer (m := m) hout ho).1 e he
    cases e with
    | arm | armEvery => cases hobs
    | _ => rfl
  | false =>
    have hplain := Pool.ordinary_handle h.config hout ho ht e he
    simpa using (Bool.and_eq_true_iff.mp hplain).2

theorem Tickless.step (h : W.Tickless) (hin : W.InStep) (hs : Step W V) : V.Tickless := by
  have hsound := hin.tuned.sound
  have hout : W.pool.outbox = [] := hin.tuned.outbox
  cases hs with
  | call m now caller request => exact h.deliver hsound hout Message.noConfusion m now
  | report m now w b e rest =>
    have hpop : (W.setBench w (b.pop rest)).Tickless := ⟨h.config, h.timers, h.rung⟩
    exact hpop.deliver hsound hout Message.noConfusion m now
  | alarm m now a _ ha =>
    have hrung : Tickless { W with rung := W.rung.erase a } :=
      ⟨h.config, h.timers, fun x hx => h.rung x (List.mem_of_mem_erase hx)⟩
    refine hrung.deliver hsound hout (fun heq => ?_) m now
    cases heq
    exact h.rung _ ha rfl
  | ring t ht =>
    refine ⟨h.config, fun x hx => ?_, fun a ha => ?_⟩
    · split at hx
      · exact h.timers x hx
      · exact h.timers x (List.mem_filter.mp hx).1
    · rcases List.mem_append.mp ha with ha | ha
      · exact h.rung a ha
      · rw [List.mem_singleton.mp ha]
        exact h.timers t ht
  | turn | letGo => exact ⟨h.config, h.timers, h.rung⟩

theorem Reachable.tickless (h : Reachable c W) (hc : c.autoscaling = false) : W.Tickless := by
  induction h with
  | new => exact ⟨hc, fun _ ht => (nomatch ht), fun _ ha => (nomatch ha)⟩
  | step h hs ih => exact ih.step h.inStep hs

end Workshop

/-! ## schedules -/

inductive Deed where
  /-- the pool handles a message -/
  | hear (m : Moment) (msg : Message)
  | ring (t : Timer) (next : Nat)
  | turn (w : WorkerId) (act : Bench.Act)
  | letGo
  | pass (clock : Nat)

/-- done on behalf of an observer: a question is put, a worker that was asked answers, or the pool
handles such an answer -/
def Deed.observes : Deed → Bool
  | .hear _ msg => msg.observes
  | .turn _ act => act.observes
  | _ => false

/-- the same deed at any other reading of the clock -/
def Deed.blur : Deed → Deed
  | .hear m msg => .hear (Veil.dense.moment m) msg
  | .turn w act => .turn w act.blur
  | d => d

namespace Workday

/-- what comes of a deed -/
inductive Does (D : Workday) : Deed → Workday → Prop where
  | hear (m : Moment) (msg : Message) (W : Workshop) (hm : D.Trusts m) (ht : D.shop.Takes msg W)
      (hc : ∀ caller ∈ msg.callers, caller ∉ D.callers) : Does D (.hear m msg) (D.hear W m msg)
  | ring (t : Timer) (next : Nat) (ht : t ∈ D.shop.timers) (hd : D.due t.id ≤ D.clock) :
      Does D (.ring t next)
        { D with
          shop :=
            { D.shop with
              timers := if t.repeats then D.shop.timers else
                D.shop.timers.filter fun x => x.id != t.id
              rung := D.shop.rung ++ [t.alarm] }
          due := if t.repeats then update D.due t.id next else D.due }
  | turn (w : WorkerId) (act : Bench.Act) (b b' : Bench) (hb : D.shop.bench w = some b)
      (ha : b.Acts act b') : Does D (.turn w act) { D with shop := D.shop.setBench w b' }
  | letGo : Does D .letGo { D with shop := { D.shop with held := false } }
  | pass (clock : Nat) (hc : D.clock ≤ clock) : Does D (.pass clock) { D with clock := clock }

/-- `ds` is what was done from the beginning on -/
inductive Runs (c : Config) : List Deed → Workday → Prop where
  | new : Runs c [] (.new c)
  | does {ds : List Deed} {d : Deed} {D E : Workday} (h : Runs c ds D) (hd : D.Does d E) :
      Runs c (ds ++ [d]) E

variable {c : Config} {D D' E : Workday} {d d' : Deed} {ds ds' : List Deed}

theorem Does.step (h : D.Does d E) : ∃ o, D.Step o E := by
  cases h with
  | hear m msg W hm ht hc => exact ⟨_, .hear m msg W hm ht hc⟩
  | ring t next ht hd => exact ⟨_, .ring t next ht hd⟩
  | turn w act b b' hb ha => exact ⟨_, .turn w b b' hb ha.turn⟩
  | letGo => exact ⟨_, .letGo⟩
  | pass clock hc => exact ⟨_, .pass clock hc⟩

theorem Step.does {o : Option Message} (h : D.Step o E) : ∃ d, D.Does d E := by
  cases h with
  | hear m msg W hm ht hc => exact ⟨_, .hear m msg W hm ht hc⟩
  | ring t next ht hd => exact ⟨_, .ring t next ht hd⟩
  | turn w b b' hb ht =>
    obtain ⟨act, ha⟩ := ht.acts
    exact ⟨_, .turn w act b b' hb ha⟩
  | letGo => exact ⟨_, .letGo⟩
  | pass clock hc => exact ⟨_, .pass clock hc⟩

theorem Runs.reachable (h : Runs c ds D) : Reachable c D := by
  induction h with
  | new => exact .new
  | does _ hd ih =>
    obtain ⟨_, hs⟩ := hd.step
    exact ih.step hs

/-- the schedules cover all that can come of a new pool, and nothing else -/
theorem reachable_iff_runs : Reachable c D ↔ ∃ ds, Runs c ds D := by
  refine ⟨fun h => ?_, fun ⟨_, h⟩ => h.reachable⟩
  induction h with
  | new => exact ⟨[], .new⟩
  | step _ hs ih =>
    obtain ⟨ds, hr⟩ := ih
    obtain ⟨d, hd⟩ := hs.does
    exact ⟨_, hr.does hd⟩

theorem takes_unique {W V V' : Workshop} {msg : Message} (h : W.Takes msg V)
    (h' : W.Takes msg V') : V = V' := by
  cases h with
  | call | alarm =>
    cases h'
    rfl
  | report w b e rest hb ho =>
    cases h' with
    | report _ b' _ rest' hb' ho' =>
      obtain rfl := Option.some.inj (hb.symm.trans hb')
      obtain rfl := (List.cons.inj (ho.symm.trans ho')).2
      rfl

theorem Does.unique (h : D.Does d E) (h' : D.Does d D') : E = D' := by
  cases h with
  | hear m msg W _ ht =>
    cases h' with
    | hear _ _ W' _ ht' =>
      obtain rfl := takes_unique ht ht'
      rfl
  | turn w act b b' hb ha =>
    cases h' with
    | turn _ _ a a' hb' ha' =>
      obtain rfl := Option.some.inj (hb.symm.trans hb')
      obtain rfl := ha.unique ha'
      rfl
  | ring | letGo | pass =>
    cases h'
    rfl

theorem Runs.unique (h : Runs c ds D) (h' : Runs c ds E) : D = E := by
  induction h generalizing E with
  | new =>
    generalize hnil : ([] : List Deed) = es at h'
    cases h' with
    | new => rfl
    | does => exact absurd hnil.symm (List.append_ne_nil_of_right_ne_nil _ (List.cons_ne_nil _ _))
  | @does ds d _ _ _ hd ih =>
    generalize hes : ds ++ [d] = es at h'
    cases h' with
    | new => exact absurd hes (List.append_ne_nil_of_right_ne_nil _ (List.cons_ne_nil _ _))
    | does hr hd' =>
      obtain ⟨rfl, hdd⟩ := List.append_inj' hes rfl
      cases hdd
      obtain rfl := ih hr
      exact hd.unique hd'

/-! ## a day without observers -/

/-- `E` is `D` without what observers brought about -/
structure Shadow (D E : Workday) : Prop where
  shop : D.shop.Shadow E.shop
  clock : E.clock = D.clock
  due : E.due = D.due
  callers : E.callers ⊆ D.callers

theorem shadow_new (c : Config) : (new c).Shadow (new c) :=
  ⟨Workshop.shadow_new c, rfl, rfl, List.Subset.refl _⟩

theorem Shadow.trusts (h : D.Shadow E) {m n : Moment} (ht : D.Trusts m)
    (hm : Veil.dense.moment m = Veil.dense.moment n) : E.Trusts n := by
  have hattached := (Veil.of_dense_moment hm).2
  refine ⟨h.shop.admits ht.admits hm, fun hne => ?_, fun w b hb hr => ?_⟩
  · rw [hattached]
    exact ht.timers (h.shop.timers ▸ hne)
  · obtain ⟨a, ha, hab⟩ := h.shop.bench.source hb
    rw [hattached]
    exact ht.benches w a ha (hab.reported.symm.trans hr)

theorem Shadow.hear (h : D.Shadow E) (hD : Reachable c D) (hE : Reachable c E)
    (hc : c.autoscaling = false) {m n : Moment} {msg : Message} {W : Workshop} (hm : D.Trusts m)
    (ht : D.shop.Takes msg W) (hcallers : ∀ caller ∈ msg.callers, caller ∉ D.callers)
    (ho : msg.observes = false) (hmn : Veil.dense.moment m = Veil.dense.moment n) :
    ∃ E', E.Does (.hear n msg) E' ∧ (D.hear W m msg).Shadow E' := by
  obtain ⟨V, hV, hWV⟩ := h.shop.takes ht ho
  obtain ⟨hpoolW, _⟩ := ht.pool
  obtain ⟨hpoolV, _⟩ := hV.pool
  have houtW : W.pool.outbox = [] := hpoolW ▸ hD.shop.inStep.tuned.outbox
  have houtV : V.pool.outbox = [] := hpoolV ▸ hE.shop.inStep.tuned.outbox
  have hticks := hD.shop.tickless hc
  have hconfig : W.pool.config.autoscaling = false := hpoolW ▸ hticks.config
  have hnotick : msg ≠ .ring .autoscaleTick := by
    rintro rfl
    cases ht with
    | alarm _ ha => exact hticks.rung _ ha rfl
  obtain ⟨hout, hshop⟩ := hWV.deliver hconfig houtW houtV ho hnotick hmn D.clock
  refine ⟨_, .hear n msg V (h.trusts hm hmn) hV fun k hk hin => ?_, ?_, h.clock, ?_, ?_⟩
  · exact hcallers k hk (h.callers hin)
  · show (W.deliver m D.clock msg).Shadow (V.deliver n E.clock msg)
    rw [h.clock]
    exact hshop
  · show appoint E.clock E.due (V.pool.handle n msg).outbox = appoint D.clock D.due _
    rw [h.clock, h.due, hout]
  · intro k hk
    refine List.mem_append.mpr ((List.mem_append.mp hk).imp_left fun hin => ?_)
    exact h.callers hin

theorem Shadow.ring (h : D.Shadow E) {t : Timer} {next : Nat} (hd : D.Does (.ring t next) D') :
    ∃ E', E.Does (.ring t next) E' ∧ D'.Shadow E' := by
  have hshop := h.shop
  cases hd with
  | ring _ _ ht hdue =>
    have hdue' : E.due t.id ≤ E.clock := by
      rw [h.due, h.clock]
      exact hdue
    refine ⟨_, .ring t next (hshop.timers ▸ ht) hdue', ?_, h.clock, ?_, h.callers⟩
    · refine ⟨hshop.pool, hshop.bench, ?_, ?_, hshop.held, hshop.history⟩
      · show (if t.repeats then E.shop.timers else _) = if t.repeats then D.shop.timers else _
        rw [hshop.timers]
      · show E.shop.rung ++ [t.alarm] = D.shop.rung ++ [t.alarm]
        rw [hshop.rung]
    · show (if t.repeats then update E.due t.id next else E.due) = _
      rw [h.due]

/-- **what no observer does in `D` is done in `E`, too** -/
theorem Shadow.follow (h : D.Shadow E) (hD : Reachable c D) (hE : Reachable c E)
    (hc : c.autoscaling = false) (hd : D.Does d D') (ho : d.observes = false)
    (hb : d'.blur = d.blur) : ∃ E', E.Does d' E' ∧ D'.Shadow E' := by
  cases d with
  | hear m msg =>
    cases d' with
    | hear n msg' =>
      obtain ⟨hmn, rfl⟩ := Deed.hear.inj hb
      cases hd with
      | hear _ _ W hm ht hcallers => exact h.hear hD hE hc hm ht hcallers ho hmn.symm
    | _ => cases hb
  | ring t next =>
    cases d' with
    | ring =>
      cases hb
      exact h.ring hd
    | _ => cases hb
  | turn w act =>
    cases d' with
    | turn _ act' =>
      obtain ⟨rfl, hblur⟩ := Deed.turn.inj hb
      cases hd with
      | turn _ _ a a' ha hact =>
        obtain ⟨b, hbench, hab⟩ := h.shop.bench.bench ha
        obtain ⟨b', hact', hab'⟩ := hact.shadow hab ho hblur
        exact ⟨_, .turn _ act' b b' hbench hact', h.shop.setBench hab', h.clock, h.due, h.callers⟩
    | _ => cases hb
  | letGo =>
    cases d' with
    | letGo =>
      cases hd
      have hs := h.shop
      exact ⟨_, .letGo, ⟨hs.pool, hs.bench, hs.timers, hs.rung, rfl, hs.history⟩, h.clock, h.due,
        h.callers⟩
    | _ => cases hb
  | pass clock =>
    cases d' with
    | pass =>
      cases hb
      cases hd with
      | pass _ hle => exact ⟨_, .pass clock (h.clock ▸ hle), h.shop, rfl, h.due, h.callers⟩
    | _ => cases hb

/-- **what observers do casts no shadow** -/
theorem Shadow.skip (h : D.Shadow E) (hD : Reachable c D) (hd : D.Does d D')
    (ho : d.observes = true) : D'.Shadow E := by
  cases hd with
  | hear m msg W hm ht hcallers =>
    obtain ⟨hpoolW, _⟩ := ht.pool
    have hout : W.pool.outbox = [] := hpoolW ▸ hD.shop.inStep.tuned.outbox
    obtain ⟨hdue, hshop⟩ := (h.shop.takes_left ht ho).observe (m := m) hout ho D.clock D.due
    exact ⟨hshop, h.clock, h.due.trans hdue.symm, fun k hk => List.mem_append_left _ (h.callers hk)⟩
  | turn w act a a' ha hact =>
    obtain ⟨b, hb, hab⟩ := h.shop.bench.bench ha
    exact ⟨h.shop.setBench_left hb (hact.shadow_left hab ho), h.clock, h.due, h.callers⟩
  | ring | letGo | pass => cases ho

/-- a run without observers is a shadow of the run with them -/
theorem Runs.shadow (h : Runs c ds D) (hc : c.autoscaling = false)
    (hds : ds'.map Deed.blur = (ds.filter fun d => !d.observes).map Deed.blur) :
    ∃ E, Runs c ds' E ∧ D.Shadow E := by
  induction h generalizing ds' with
  | new =>
    cases List.map_eq_nil_iff.mp hds
    exact ⟨_, .new, shadow_new c⟩
  | @does ds d D D' h hd ih =>
    rw [List.filter_append, List.map_append] at hds
    cases ho : d.observes with
    | true =>
      rw [List.filter_cons_of_neg (by simp [ho]), List.filter_nil, List.map_nil,
        List.append_nil] at hds
      obtain ⟨E, hE, hDE⟩ := ih hds
      exact ⟨E, hE, hDE.skip h.reachable hd ho⟩
    | false =>
      rw [List.filter_cons_of_pos (by simp [ho]), List.filter_nil] at hds
      obtain ⟨es, fs, rfl, hes, hfs⟩ := List.map_eq_append_iff.mp hds
      obtain ⟨d', rfl, hd'⟩ := List.map_eq_singleton_iff.mp hfs
      obtain ⟨E, hE, hDE⟩ := ih hes
      obtain ⟨E', hdoes, hshadow⟩ := hDE.follow h.reachable hE.reachable hc hd ho hd'
      exact ⟨E', hE.does hdoes, hshadow⟩

/-- the pool and the workers of `E` did what those of `D` did -/
structure Unperturbed (D E : Workday) : Prop where
  /-- nothing else was asked for but what observers brought about -/
  history : E.shop.history = D.shop.history.filter fun e => !e.observes
  accepted : accepted E.shop.history = accepted D.shop.history
  /-- every task was handed to the same workers in the same order -/
  told : ∀ id, told id E.shop.history = told id D.shop.history
  /-- every worker was handed the same tasks in the same order -/
  handed : ∀ w, handed w E.shop.history = handed w D.shop.history
  outcomes : ∀ id, outcomes id E.shop.history = outcomes id D.shop.history
  /-- the records agree in all but points in time and samples, those of attempts included -/
  pool : Veil.dense.pool D.shop.pool = Veil.dense.pool E.shop.pool
  /-- so every task in flight is as far, and at the same attempt -/
  progress : ∀ id, (E.shop.pool.ledger.find? id).map (fun t => (t.status, t.worker, t.attempt))
    = (D.shop.pool.ledger.find? id).map fun t => (t.status, t.worker, t.attempt)
  /-- the workers agree in all but what concerns metrics -/
  bench : Shadowed D.shop.bench E.shop.bench
  timers : E.shop.timers = D.shop.timers
  due : E.due = D.due

theorem Shadow.unperturbed (h : D.Shadow E) : D.Unperturbed E where
  history := h.shop.history
  accepted := h.shop.accepted
  told := h.shop.told
  handed := h.shop.handed
  outcomes := h.shop.outcomes
  pool := h.shop.pool
  progress id := by
    have hveil (l : Ledger) : ((Veil.dense.ledger l).find? id).map
        (fun t => (t.status, t.worker, t.attempt))
          = (l.find? id).map fun t => (t.status, t.worker, t.attempt) := by
      rw [Veil.find?_ledger, Option.map_map]
      rfl
    rw [← hveil E.shop.pool.ledger, ← hveil D.shop.pool.ledger]
    exact congrArg (fun p : Pool => (p.ledger.find? id).map _) h.shop.pool.symm
  bench := h.shop.bench
  timers := h.shop.timers
  due := h.due

/-- **observers do not disturb**: of a pool that does not scale itself, take any run, leave out
all that observers brought about, and let the clock show what it will: what is left is a run, and
it makes the same attempts on the same workers in the same order, to the same ends -/
theorem Runs.unobserved (h : Runs c ds D) (hc : c.autoscaling = false)
    (hds : ds'.map Deed.blur = (ds.filter fun d => !d.observes).map Deed.blur) :
    (∃ E, Runs c ds' E) ∧ ∀ E, Runs c ds' E → D.Unperturbed E := by
  obtain ⟨E, hE, hDE⟩ := h.shadow hc hds
  refine ⟨⟨E, hE⟩, fun E' hE' => ?_⟩
  rw [← hE.unique hE']
  exact hDE.unperturbed

open Workshop (calmMoment announced working oneChance)

/-- what a worker tells that was asked at the time 3 while it runs its first task -/
def glimpse : Metrics := ⟨(working.worker.meter.sample 3).1.share, 9, 0, 0⟩

/-- a worker is asked for metrics while it runs a task, and the pool for its counters -/
def watched : List Deed :=
  [.hear calmMoment (.call 0 .start), .turn 1 (.step 0 0), .hear calmMoment (.report 1 .ready),
    .hear calmMoment (.call 1 (.submit ⟨7⟩ .cacheCleanup .null oneChance)), .turn 1 (.step 0 0),
    .hear calmMoment (.call 2 (.requestMetrics (some 1))), .turn 1 (.answer 3 9),
    .turn 1 (.finish 4 (.value .null)), .hear calmMoment (.report 1 (.busy ⟨7⟩)),
    .hear calmMoment (.report 1 (.metrics glimpse)), .hear calmMoment (.call 3 .stats),
    .hear calmMoment (.report 1 (.result ⟨7⟩ .null))]

/-- nobody is asked, and the pool is a minute late -/
def unwatched : List Deed :=
  let late := { calmMoment with now := ⟨60, 0⟩ }
  [.hear late (.call 0 .start), .turn 1 (.step 0 0), .hear late (.report 1 .ready),
    .hear late (.call 1 (.submit ⟨7⟩ .cacheCleanup .null oneChance)), .turn 1 (.step 2 8),
    .turn 1 (.finish 5 (.value .null)), .hear late (.report 1 (.busy ⟨7⟩)),
    .hear late (.report 1 (.result ⟨7⟩ .null))]

theorem runs_watched : ∃ D, Runs Chronicle.single watched D ∧ told ⟨7⟩ D.shop.history = [1] ∧
    outcomes ⟨7⟩ D.shop.history = [.ok .null] := by
  have hopened := Runs.new.does
    (.hear calmMoment (.call 0 .start) _ (trusts_calmMoment (new Chronicle.single))
      (.call 0 .start trivial) (by decide))
  have hannounced := hopened.does
    (.turn 1 _ (.new 1 0) announced rfl (.step 0 0 (announced.worker, [.ready]) nofun rfl))
  have hstaffed := hannounced.does (.hear calmMoment (.report 1 .ready) _ (trusts_calmMoment _)
    (.report 1 announced .ready [] rfl rfl) (by decide))
  have hhanded := hstaffed.does
    (.hear calmMoment (.call 1 (.submit ⟨7⟩ .cacheCleanup .null oneChance)) _
      (trusts_calmMoment _) (.call 1 _ List.not_mem_nil) (by decide))
  have hbegun := hhanded.does
    (.turn 1 _ ((announced.pop []).tell (.task ⟨7⟩ .cacheCleanup .null)) working rfl
      (.step 0 0 (working.worker, [.busy ⟨7⟩]) nofun rfl))
  have hasked := hbegun.does
    (.hear calmMoment (.call 2 (.requestMetrics (some 1))) _ (trusts_calmMoment _)
      (.call 2 _ trivial) (by decide))
  have hanswered := hasked.does
    (.turn 1 _ (working.tell .reportMetrics) _ rfl (.answer 3 9 _ rfl rfl))
  have hended := hanswered.does (.turn 1 _ _ _ rfl (.finish 4 (.value .null)))
  have hbusy := hended.does (.hear calmMoment (.report 1 (.busy ⟨7⟩)) _ (trusts_calmMoment _)
    (.report 1 _ (.busy ⟨7⟩) _ rfl rfl) (by decide))
  have hglimpsed := hbusy.does
    (.hear calmMoment (.report 1 (.metrics glimpse)) _ (trusts_calmMoment _)
      (.report 1 _ (.metrics glimpse) _ rfl rfl) (by decide))
  have hcounted := hglimpsed.does (.hear calmMoment (.call 3 .stats) _ (trusts_calmMoment _)
    (.call 3 .stats trivial) (by decide))
  have hdone := hcounted.does
    (.hear calmMoment (.report 1 (.result ⟨7⟩ .null)) _ (trusts_calmMoment _)
      (.report 1 _ (.result ⟨7⟩ .null) _ rfl rfl) (by decide))
  exact ⟨_, hdone, rfl, rfl⟩

/-- the task is run by the same worker, to the same end -/
theorem unobserved_watched : ∃ D E, Runs Chronicle.single watched D ∧
    Runs Chronicle.single unwatched E ∧ D.Unperturbed E ∧ told ⟨7⟩ E.shop.history = [1] ∧
    outcomes ⟨7⟩ E.shop.history = [.ok .null] := by
  obtain ⟨D, hD, htold, hout⟩ := runs_watched
  have hds : unwatched.map Deed.blur
      = (watched.filter fun d => !d.observes).map Deed.blur := rfl
  obtain ⟨⟨E, hE⟩, hall⟩ := hD.unobserved rfl hds
  have h := hall E hE
  exact ⟨D, E, hD, hE, h, (h.told _).trans htold, (h.outcomes _).trans hout⟩

end Workday

end TaskPool
