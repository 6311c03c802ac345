import TaskPool.Proofs.Numbering
import TaskPool.Proofs.Strength

/-!
# A stop, and the start after it

A stop asks every worker to end, but a worker whose place was to be taken keeps its mark.  If the
pool is started again before that worker is gone, its place is taken after all, and the pool has
one worker more than the start has provided for.

* `stop_keeps`          a stop leaves every entry there, stopping and marked as it was
* `Departure`           a worker that a stop has found is gone some time later
* `finishStop_gone`, `crash_gone`   no entry is left of a worker that is gone
* `started_eq_nil_iff`  when that starts nobody
* `Halted`              a pool that does not run has no live worker
* `Even`                a running pool has its minimum and no more
* `even_iff`            when that is so throughout
* `stop_is_final_iff`   the two together, for all runs
* `stop_is_not_final`   and there are runs where neither holds
-/

namespace TaskPool

namespace Pool

variable {m : Moment}

/-! ## what a stop leaves -/

theorem stopWorker_keeps {p : Pool} {w : WorkerId} {e : Entry} (he : p.roster.find? w = some e)
    (waiter : Option CallId) (x : WorkerId) :
    ∃ e', (stopWorker m waiter p x).roster.find? w = some e' ∧
      e'.replaceOnExit = e.replaceOnExit ∧
      (e.status = .stopping ∨ w = x → e'.status = .stopping) := by
  obtain ⟨f, hf, hm, hs, hr⟩ := stopWorker_roster (m := m) waiter p x
  rw [hr, Roster.find?_modify _ _ hf, he]
  by_cases hw : w = x
  · rw [if_pos hw]
    exact ⟨f e, rfl, hm e, fun _ => hs e (hw ▸ he)⟩
  · rw [if_neg hw]
    exact ⟨e, rfl, rfl, fun h => h.resolve_right hw⟩

theorem stopAll_keeps (waiter : Option CallId) (ws : List WorkerId) {p : Pool} {w : WorkerId}
    {e : Entry} (he : p.roster.find? w = some e) :
    ∃ e', (ws.foldl (stopWorker m waiter) p).roster.find? w = some e' ∧
      e'.replaceOnExit = e.replaceOnExit ∧
      (e.status = .stopping ∨ w ∈ ws → e'.status = .stopping) := by
  induction ws generalizing p e with
  | nil => exact ⟨e, he, rfl, fun h => h.resolve_right List.not_mem_nil⟩
  | cons x ws ih =>
    obtain ⟨e1, h1, hm1, hs1⟩ := stopWorker_keeps (m := m) he waiter x
    obtain ⟨e2, h2, hm2, hs2⟩ := ih h1
    refine ⟨e2, h2, hm2.trans hm1, ?_⟩
    rintro (hst | hw)
    · exact hs2 (.inl (hs1 (.inl hst)))
    · rcases List.mem_cons.mp hw with hx | hx
      · exact hs2 (.inl (hs1 (.inr hx)))
      · exact hs2 (.inr hx)

/-- the mark of a worker outlives a stop -/
theorem stop_keeps {p : Pool} {w : WorkerId} {e : Entry} (he : p.roster.find? w = some e)
    (caller : CallId) :
    ∃ e', (stop m p caller).roster.find? w = some e' ∧ e'.status = .stopping ∧
      e'.replaceOnExit = e.replaceOnExit := by
  have hshut : p.shut.roster.find? w = some e := he
  have hmem : w ∈ p.shut.roster.ids := Roster.mem_ids hshut
  rw [stop_eq]
  generalize p.shut = q at *
  revert hmem
  cases q.roster.ids with
  | nil => exact fun hmem => absurd hmem List.not_mem_nil
  | cons x ws =>
    intro hmem
    have hq : ({ q with stops := q.stops ++ [⟨caller, (x :: ws).length⟩] } : Pool).roster.find? w
        = some e := hshut
    obtain ⟨e', he', hm, hs⟩ := stopAll_keeps (m := m) (some caller) (x :: ws) hq
    exact ⟨e', he', hs (.inr hmem), hm⟩

theorem stopWorker_ids (waiter : Option CallId) (p : Pool) (x : WorkerId) :
    (stopWorker m waiter p x).roster.ids = p.roster.ids := by
  obtain ⟨f, hf, _, _, hr⟩ := stopWorker_roster (m := m) waiter p x
  rw [hr, Roster.ids_modify _ _ hf]

theorem stopAll_ids (waiter : Option CallId) (ws : List WorkerId) (p : Pool) :
    (ws.foldl (stopWorker m waiter) p).roster.ids = p.roster.ids := by
  induction ws generalizing p with
  | nil => rfl
  | cons x ws ih => exact (ih _).trans (stopWorker_ids waiter p x)

theorem stop_ids (p : Pool) (caller : CallId) : (stop m p caller).roster.ids = p.roster.ids := by
  rw [stop_eq]
  show _ = p.shut.roster.ids
  generalize p.shut = q
  cases h : q.roster.ids with
  | nil => exact h
  | cons x ws => exact (stopAll_ids (some caller) (x :: ws) _).trans h

/-- after a stop no worker is live -/
theorem staff_stop {p : Pool} (h : p.Mustered) (caller : CallId) :
    (stop m p caller).staff = 0 := by
  obtain ⟨k, hk⟩ := stop_shifts (m := m) h caller
  show (stop m p caller).roster.live.length = 0
  rw [Roster.length_live]
  refine List.countP_eq_zero.mpr fun e' hmem hlive => ?_
  have he' := hk.mustered.sound.find?_of_mem hmem
  have hid : e'.worker ∈ p.roster.ids := by
    rw [← stop_ids (m := m) p caller]
    exact List.mem_map_of_mem hmem
  obtain ⟨e, he⟩ : ∃ e, p.roster.find? e'.worker = some e := by
    refine Option.ne_none_iff_exists'.mp fun hn => ?_
    exact Roster.find?_eq_none.mp hn hid
  obtain ⟨e'', he'', hst, _⟩ := stop_keeps (m := m) he caller
  rw [he'] at he''
  cases he''
  rw [Entry.isLive, hst] at hlive
  cases hlive

/-! ## a worker that is gone -/

theorem handle_of_absent {p : Pool} {msg : Message} {w : WorkerId} (hw : msg.leaver? = some w)
    (he : p.roster.find? w = none) : p.handle m msg = p := by
  have hcrash (detail : String) : crash m p w detail = p := by
    unfold crash
    rw [he]
  cases msg with
  | call => cases hw
  | report w' event =>
    cases event with
    | fatal detail =>
      cases hw
      exact hcrash detail
    | exited graceful =>
      cases hw
      exact hcrash (exitDetail graceful)
    | _ => cases hw
  | ring alarm =>
    cases alarm with
    | stopDeadline w' =>
      cases hw
      show ring m p (.stopDeadline w) = p
      simp only [ring, he]
    | _ => cases hw

/-- whoever is gone stays so when somebody is started -/
theorem hire_gone {p : Pool} {w : WorkerId} (hw : w < p.roster.nextId)
    (hn : p.roster.find? w = none) : (p.hire m).roster.find? w = none := by
  by_cases ha : m.attached = true
  · rw [hire_of_attached ha]
    exact (p.roster.fades_enrol m.now).gone w hw hn
  · rw [hire_of_detached (by simpa using ha)]
    exact hn

/-- an entry that was taken out is not there any more, whatever becomes of its task, and whether or
not somebody is started instead -/
theorem removed_gone {p q : Pool} (hs : p.roster.Sound) {w : WorkerId} {e : Entry}
    (he : p.roster.find? w = some e) (hq : q.roster = ((p.dropEntry w).dispose e).roster)
    (starts : Prop) [Decidable starts] :
    (if starts then q.hire m else q).roster.find? w = none := by
  have hroster : q.roster = p.roster.erase w := by
    rw [hq, dispose_roster]
    rfl
  have hnone : q.roster.find? w = none := by
    rw [hroster, Roster.find?_erase, if_pos rfl]
  have hlt : w < q.roster.nextId := by
    rw [hroster]
    exact hs.lt_of_find? he
  split
  · exact hire_gone hlt hnone
  · exact hnone

theorem finishStop_gone {p : Pool} (hs : p.roster.Sound) (w : WorkerId) :
    (finishStop m p w).roster.find? w = none := by
  cases he : p.roster.find? w with
  | none =>
    unfold finishStop
    rw [he]
    exact he
  | some e =>
    rw [finishStop_eq he]
    exact removed_gone hs he rfl _

theorem crash_gone {p : Pool} (hs : p.roster.Sound) (w : WorkerId) (detail : String) :
    (crash m p w detail).roster.find? w = none := by
  cases he : p.roster.find? w with
  | none =>
    unfold crash
    rw [he]
    exact he
  | some e =>
    by_cases hst : e.status = .stopping
    · rw [show crash m p w detail = finishStop m p w by
        unfold crash
        rw [he]
        exact if_pos hst]
      exact finishStop_gone hs w
    · unfold crash
      rw [he]
      simp only [if_neg hst]
      refine removed_gone hs he ?_ _
      split
      · rfl
      · exact failTask_roster _ _ _

/-- when a stopping worker is gone, another one is started if its place was to be taken, as far as
the pool runs then -/
theorem hired_leaver {p : Pool} {msg : Message} {w : WorkerId} {e : Entry}
    (hw : msg.leaver? = some w) (he : p.roster.find? w = some e) (hst : e.status = .stopping) :
    hired (p.handle m msg).outbox = hired p.outbox
      ++ if e.replaceOnExit ∧ p.running ∧ m.attached then [p.roster.nextId] else [] := by
  have hgone := Modest.removed p w e
  rw [handle_leaver hw he hst, finishStop_eq he]
  by_cases hr : e.replaceOnExit = true ∧ p.running = true
  · rw [if_pos hr]
    by_cases ha : m.attached = true
    · rw [hired_hire ha, hgone.hired, hgone.next, if_pos ⟨hr.1, hr.2, ha⟩]
    · rw [hire_of_detached (by simpa using ha), hgone.hired, if_neg fun h => ha h.2.2,
        List.append_nil]
  · rw [if_neg hr, hgone.hired, if_neg fun h => hr ⟨h.1, h.2.1⟩, List.append_nil]

/-! ## how many workers there are when a pool is started -/

/-- no worker is live unless the pool runs -/
def Halted (p : Pool) : Prop := p.running = false → p.staff = 0

theorem staff_handle_stopped {p : Pool} (h : p.Mustered) (hr : p.running = false)
    {msg : Message} (hc : msg.scales = false) : (p.handle m msg).staff ≤ p.staff := by
  have hu : p.Uncrashed := fun e he => (h.regular e he).uncrashed
  by_cases hcalm : msg.IsCalm
  · exact (handle_leaner h.sound hu hcalm).staff
  · obtain ⟨w, hw⟩ : ∃ w, msg.leaver? = some w := by
      cases msg with
      | call caller r =>
        cases r with
        | start | stop => cases hc
        | _ => exact absurd trivial hcalm
      | report w event =>
        cases event with
        | fatal | exited => exact ⟨w, rfl⟩
        | _ => exact absurd trivial hcalm
      | ring alarm =>
        cases alarm with
        | stopDeadline w => exact ⟨w, rfl⟩
        | autoscaleTick => cases hc
        | _ => exact absurd trivial hcalm
    by_cases hstop : ∃ e, p.roster.find? w = some e ∧ e.status = .stopping
    · obtain ⟨e, he, hst⟩ := hstop
      rw [handle_leaver hw he hst, finishStop_eq he, if_neg fun hrep => ?_]
      · exact Nat.le_of_eq (staff_removed h.sound he hst)
      · rw [hr] at hrep
        cases hrep.2
    · exact staff_depart_le h.sound hu hw fun e he hst => hstop ⟨e, he, hst⟩

theorem handle_halted {p : Pool} (h : p.Mustered) (hp : p.Halted) (msg : Message) :
    (p.handle m msg).Halted := by
  intro hrun
  by_cases hc : msg.scales = false
  · obtain ⟨k, hk, _⟩ := handle_balances (m := m) h hc
    have hr : p.running = false := hk.running ▸ hrun
    have hle := staff_handle_stopped (m := m) h hr hc
    have hzero := hp hr
    omega
  · cases msg with
    | report => exact absurd rfl hc
    | call caller r =>
      cases r with
      | start =>
        have hon : (start m p).running = true := by
          cases hr : p.running with
          | true => rw [start_of_running hr, hr]
          | false => exact (start_shifts (m := m) h hr).running
        rw [show (p.handle m (.call caller .start)).running = (start m p).running from rfl,
          hon] at hrun
        cases hrun
      | stop => exact staff_stop h caller
      | _ => exact absurd rfl hc
    | ring alarm =>
      cases alarm with
      | autoscaleTick =>
        cases hr : p.running with
        | true =>
          have hon := (autoscale_shifts (m := m) h hr).running
          rw [show (p.handle m (.ring .autoscaleTick)).running = _ from hon, hr] at hrun
          cases hrun
        | false =>
          rw [show p.handle m (.ring .autoscaleTick) = p from autoscale_of_stopped hr]
          exact hp hr
      | _ => exact absurd rfl hc

/-- if it runs, it has its minimum and no more, whatever is still to be replaced -/
def Even (p : Pool) : Prop := p.running = true → p.strength = p.config.minWorkers

/-- without ticks, a pool that is held is made uneven by nothing but a start that finds somebody
whose place is still to be taken -/
theorem handle_even {p : Pool} (h : p.Mustered) (hp : p.Halted) (he : p.Even)
    (ha : m.attached = true) {msg : Message} (ht : msg ≠ .ring .autoscaleTick) :
    ((p.handle m msg).running = true → (p.handle m msg).strength = p.config.minWorkers) ↔
      ∀ caller, msg = .call caller .start → p.running = false → p.pending = 0 := by
  by_cases hc : msg.scales = false
  · have hb := handle_balances (m := m) h hc
    constructor
    · rintro _ caller rfl
      cases hc
    · intro _ hrun
      have hr : p.running = true := by
        obtain ⟨k, hk, _⟩ := hb
        exact hk.running ▸ hrun
      rw [hb.strength ha hr]
      exact he hr
  · cases msg with
    | report => exact absurd rfl hc
    | call caller r =>
      cases r with
      | start =>
        show ((start m p).running = true → (start m p).strength = _) ↔ _
        cases hr : p.running with
        | true =>
          rw [start_of_running hr]
          constructor
          · intro _ _ _ hoff
            cases hoff
          · exact fun _ => he
        | false =>
          have hs := start_shifts (m := m) h hr
          have hon : (start m p).running = true := hs.running
          have hlevel := hs.strength
          have hzero := hp hr
          have hsame : ({ p with running := true } : Pool).strength = p.staff + p.pending := rfl
          rw [hsame, if_pos ha] at hlevel
          constructor
          · intro hmin _ _ _
            have := hmin hon
            omega
          · intro hnone _
            have := hnone caller rfl rfl
            omega
      | stop =>
        obtain ⟨k, hk⟩ := stop_shifts (m := m) h caller
        have hoff : (p.handle m (.call caller .stop)).running = false := hk.running
        constructor
        · intro _ _ hmsg
          cases hmsg
        · intro _ hrun
          rw [hoff] at hrun
          cases hrun
      | _ => exact absurd rfl hc
    | ring alarm =>
      cases alarm with
      | autoscaleTick => exact absurd rfl ht
      | _ => exact absurd rfl hc

end Pool

namespace Chronicle

open Pool

variable (c : Config)

/-! ## whole runs -/

theorem run_outbox (xs : List (Moment × Message)) : (run c xs).pool.outbox = [] := by
  induction xs using List.reverseRecOn with
  | nil => rfl
  | append_singleton xs x => rw [run_snoc]; rfl

theorem run_mustered (xs : List (Moment × Message)) : (run c xs).pool.Mustered := by
  induction xs using List.reverseRecOn with
  | nil => exact ⟨.empty, fun e he => by cases he⟩
  | append_singleton xs x ih =>
    rw [run_snoc]
    obtain ⟨k, running, hk⟩ := handle_shifts (m := x.1) ih x.2
    exact ⟨hk.mustered.sound, hk.mustered.regular⟩

theorem run_halted (xs : List (Moment × Message)) : (run c xs).pool.Halted := by
  induction xs using List.reverseRecOn with
  | nil => exact fun _ => rfl
  | append_singleton xs x ih =>
    rw [run_snoc]
    exact handle_halted (m := x.1) (run_mustered c xs) ih x.2

/-- who was asked to stop stays so, until it is gone for good -/
theorem run_fades (ys zs : List (Moment × Message)) :
    (run c ys).pool.roster.Fades (run c (ys ++ zs)).pool.roster := by
  induction zs using List.reverseRecOn with
  | nil =>
    rw [List.append_nil]
    exact .refl _
  | append_singleton zs x ih =>
    rw [← List.append_assoc, run_snoc]
    obtain ⟨k, running, hk⟩ := handle_shifts (m := x.1) (run_mustered c (ys ++ zs)) x.2
    exact ih.trans hk.fades

/-- whoever was there when the pool was stopped is stopping ever after, marked as it was -/
theorem stopping_since {ys zs : List (Moment × Message)} {m : Moment} {caller : CallId}
    {w : WorkerId} {e e' : Entry} (he : (run c ys).pool.roster.find? w = some e)
    (he' : (run c (ys ++ (m, .call caller .stop) :: zs)).pool.roster.find? w = some e') :
    e'.status = .stopping ∧ e'.replaceOnExit = e.replaceOnExit := by
  obtain ⟨e1, h1, hst, hmark⟩ := stop_keeps (m := m) he caller
  have hrun : (run c (ys ++ [(m, .call caller .stop)])).pool.roster
      = (stop m (run c ys).pool caller).roster := by
    rw [run_snoc]
    rfl
  have hfades := run_fades c (ys ++ [(m, .call caller .stop)]) zs
  rw [List.append_assoc, List.singleton_append] at hfades
  rw [← hrun] at h1
  have hlt := (run_mustered c _).sound.lt_of_find? h1
  obtain ⟨hst', hmark'⟩ := hfades.kept w hlt e1 e' h1 hst he'
  exact ⟨hst', hmark'.trans hmark⟩

/-- a run up to the message that says that a worker is gone, which was there when the pool was
stopped some time before -/
structure Departure where
  before : List (Moment × Message)
  moment : Moment
  caller : CallId
  since : List (Moment × Message)
  last : Moment × Message
  worker : WorkerId
  entry : Entry
  found : (run c before).pool.roster.find? worker = some entry
  leaves : last.2.leaver? = some worker

variable {c}

/-- the pool that hears that the worker is gone -/
def Departure.pool (d : Departure c) : Pool :=
  (run c (d.before ++ (d.moment, .call d.caller .stop) :: d.since)).pool

/-- the workers that are started when it hears that -/
def Departure.started (d : Departure c) : List WorkerId :=
  hired (d.pool.handle d.last.1 d.last.2).outbox

/-- the worker was to be replaced when the pool was stopped, the pool has not heard yet that it is
gone, and it runs again -/
structure Departure.Revives (d : Departure c) : Prop where
  marked : d.entry.replaceOnExit = true
  there : d.worker ∈ d.pool.roster.ids
  running : d.pool.running = true
  attached : d.last.1.attached = true

theorem Departure.started_eq_nil_iff (d : Departure c) : d.started = [] ↔ ¬ d.Revives := by
  have hout : hired d.pool.outbox = [] := by
    rw [Departure.pool, run_outbox]
    rfl
  cases he : d.pool.roster.find? d.worker with
  | none =>
    have hnone : d.started = [] := by
      rw [Departure.started, handle_of_absent d.leaves he]
      exact hout
    refine ⟨fun _ hr => ?_, fun _ => hnone⟩
    exact Roster.find?_eq_none.mp he hr.there
  | some e =>
    obtain ⟨hst, hmark⟩ := stopping_since c d.found he
    have hhired := hired_leaver (m := d.last.1) d.leaves he hst
    rw [hout, hmark, List.nil_append] at hhired
    have hthere : d.worker ∈ d.pool.roster.ids := Roster.mem_ids he
    rw [Departure.started, hhired]
    constructor
    · intro hnone hr
      rw [if_pos ⟨hr.marked, hr.running, hr.attached⟩] at hnone
      cases hnone
    · intro hr
      rw [if_neg fun h => hr ⟨h.1, hthere, h.2.1, h.2.2⟩]

/-! ## runs without ticks -/

/-- a tick comes only if the pool has set a timer for ticks before -/
def Prompted (c : Config) (xs : List (Moment × Message)) : Prop :=
  ∀ ys m, ys ++ [(m, .ring .autoscaleTick)] <+: xs →
    ∃ timer period, .armEvery timer period .autoscaleTick ∈ (run c ys).history

theorem unticked_history (hc : c.autoscaling = false) (xs : List (Moment × Message)) :
    ∀ timer period alarm, .armEvery timer period alarm ∉ (run c xs).history := by
  induction xs using List.reverseRecOn with
  | nil => exact fun _ _ _ => List.not_mem_nil
  | append_singleton xs x ih =>
    intro timer period alarm hmem
    have hm := run_manned c xs
    rw [run_snoc] at hmem
    rcases List.mem_append.mp hmem with hmem | hmem
    · exact ih timer period alarm hmem
    · rcases (handle_unticked (m := x.1) hm.sound x.2).ticks timer period alarm hmem with hold | hon
      · rw [run_outbox] at hold
        cases hold
      · rw [hm.config, hc] at hon
        cases hon

/-- so a pool that does not scale itself is never told of a tick -/
theorem Prompted.no_tick {xs ys : List (Moment × Message)} {x : Moment × Message}
    (h : Prompted c xs) (hc : c.autoscaling = false) (hx : ys ++ [x] <+: xs) :
    x.2 ≠ .ring .autoscaleTick := by
  intro ht
  obtain ⟨timer, period, hmem⟩ := h ys x.1 (by rw [← ht]; exact hx)
  exact unticked_history hc ys timer period .autoscaleTick hmem

/-- in a run without ticks, of a pool that is held, the pool is even throughout iff it is never
started while somebody's place is still to be taken -/
theorem even_iff {xs : List (Moment × Message)} (hc : c.autoscaling = false)
    (ht : Prompted c xs) (ha : ∀ x ∈ xs, x.1.attached = true) :
    (∀ ys, ys <+: xs → (run c ys).pool.Even) ↔
      ∀ ys m caller, ys ++ [(m, .call caller .start)] <+: xs → (run c ys).pool.running = false →
        (run c ys).pool.pending = 0 := by
  have hstep (ys : List (Moment × Message)) (x : Moment × Message) (hx : ys ++ [x] <+: xs)
      (he : (run c ys).pool.Even) : (run c (ys ++ [x])).pool.Even ↔
        ∀ caller, x.2 = .call caller .start → (run c ys).pool.running = false →
          (run c ys).pool.pending = 0 := by
    have hmem : x ∈ xs := hx.subset (List.mem_append_right _ (List.mem_singleton_self x))
    have heven := handle_even (m := x.1) (run_mustered c ys) (run_halted c ys) he (ha x hmem)
      (ht.no_tick hc hx)
    rw [← heven, Pool.Even, (run_manned c _).config, (run_manned c ys).config, run_snoc]
    rfl
  constructor
  · intro h ys m caller hx hr
    have hy : ys <+: xs := (List.prefix_append ys _).trans hx
    exact (hstep ys _ hx (h ys hy)).mp (h _ hx) caller rfl hr
  · intro h ys
    induction ys using List.reverseRecOn with
    | nil =>
      intro _ hr
      cases hr
    | append_singleton ys x ih =>
      intro hx
      have hy : ys <+: xs := (List.prefix_append ys [x]).trans hx
      refine (hstep ys x hx (ih hy)).mpr fun caller hmsg hr => ?_
      refine h ys x.1 caller ?_ hr
      rw [← hmsg]
      exact hx

/-- **when a stop is the end of all replacements**: a worker that was there when the pool was
stopped is replaced after all iff it was marked then and the pool has been started again before
it is gone; and without ticks a running pool has its minimum and no more throughout iff no start
finds somebody whose place is still to be taken -/
theorem stop_is_final_iff (c : Config) :
    (∀ d : Departure c, d.started = [] ↔ ¬ d.Revives) ∧
    ∀ xs : List (Moment × Message), c.autoscaling = false → Prompted c xs →
      (∀ x ∈ xs, x.1.attached = true) →
      ((∀ ys, ys <+: xs → (run c ys).pool.Even) ↔
        ∀ ys m caller, ys ++ [(m, .call caller .start)] <+: xs →
          (run c ys).pool.running = false → (run c ys).pool.pending = 0) :=
  ⟨fun d => d.started_eq_nil_iff, fun _ hc ht ha => even_iff hc ht ha⟩

/-- room for a second worker -/
def oneToTwo : Config := { minWorkers := 1, maxWorkers := 2, autoscaling := false }

/-- the last step of `lateReturn`: worker 1 was to be replaced when the pool was stopped, and is
gone after the next start -/
def lateDeparture : Departure oneToTwo where
  before := lateReturn.take 5
  moment := ⟨⟨0, 0⟩, [], true⟩
  caller := 2
  since := [(⟨⟨0, 0⟩, [], true⟩, .call 3 .start)]
  last := (⟨⟨0, 0⟩, [], true⟩, .report 1 (.exited true))
  worker := 1
  entry := ((run oneToTwo (lateReturn.take 5)).pool.roster.find? 1).get rfl
  found := (Option.some_get _).symm
  leaves := rfl

theorem prompted_lateReturn (c : Config) : Prompted c lateReturn := by
  intro ys m hx
  have hmem := hx.subset (List.mem_append_right _ (List.mem_singleton_self _))
  simp only [lateReturn, List.mem_cons, List.not_mem_nil, or_false] at hmem
  rcases hmem with h | h | h | h | h | h | h | h <;> cases h

/-- there worker 3 is started beside worker 2, which is all that the start has provided for -/
theorem stop_is_final_iff_lateReturn : oneToTwo.autoscaling = false ∧ Prompted oneToTwo lateReturn ∧
    (∀ x ∈ lateReturn, x.1.attached = true) ∧ lateDeparture.started = [3] ∧
    lateDeparture.Revives ∧
    ¬ ∀ ys m caller, ys ++ [(m, .call caller .start)] <+: lateReturn →
      (run oneToTwo ys).pool.running = false → (run oneToTwo ys).pool.pending = 0 := by
  obtain ⟨hdepart, heven⟩ := stop_is_final_iff oneToTwo
  have hthree : lateDeparture.started = [3] := by decide
  have hattached : ∀ x ∈ lateReturn, x.1.attached = true := by decide
  refine ⟨rfl, prompted_lateReturn oneToTwo, hattached, hthree, ?_, fun hnone => ?_⟩
  · by_contra hno
    have hnobody := (hdepart lateDeparture).mpr hno
    rw [hthree] at hnobody
    cases hnobody
  · have hall := (heven lateReturn rfl (prompted_lateReturn oneToTwo) hattached).mpr hnone
    exact absurd (hall lateReturn List.prefix_rfl rfl) (by decide)

/-- a stop is not the end of all replacements, nor does a running pool always have its minimum and
no more -/
theorem stop_is_not_final :
    (¬ ∀ (c : Config) (d : Departure c), c.validate = none → d.started = []) ∧
    ¬ ∀ (c : Config) (xs : List (Moment × Message)), c.validate = none →
      c.autoscaling = false → Prompted c xs → (∀ x ∈ xs, x.1.attached = true) →
      (run c xs).pool.Even := by
  refine ⟨fun h => ?_, fun h => ?_⟩
  · exact absurd (h oneToTwo lateDeparture rfl) (by decide)
  · have heven := h oneToTwo lateReturn rfl rfl (prompted_lateReturn oneToTwo) (by decide)
    exact absurd (heven rfl) (by decide)

end Chronicle

end TaskPool
