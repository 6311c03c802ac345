import TaskPool.Proofs.Isolation

/-!
# Workers that leave

Whoever was asked to stop is handed no task any more, and its entry stays until the pool hears that
the worker is gone.

* `handed`             the tasks that a worker was told to run
* `Roster.Change`      what may become of the entries with one thing that the pool does
* `Chore.change`, `Impact.change`   no more than that becomes of them
* `Roster.Leaves`      the worker is stopping, or gone
* `handle_leaving`     so it stays, and nothing is handed to it
* `report_calm`        a report that leaves its sender the entry starts nobody
* `handle_on`          a pool that runs does so until it is stopped

Why `Fades` is not enough: it compares the entries before and after a message, and a task could be
handed out between them.
-/

namespace TaskPool

open Relation

/-! ## what a worker is handed -/

/-- the task that the worker is told to run -/
def Effect.hands? (w : WorkerId) : Effect → Option TaskId
  | .tell v (.task id _ _) => if v = w then some id else none
  | _ => none

theorem Effect.Bare.hands? {e : Effect} (h : e.Bare) (w : WorkerId) : e.hands? w = none := by
  cases e with
  | tell v command =>
    cases command with
    | task => cases h
    | _ => rfl
  | _ => rfl

/-- the tasks that the worker was told to run -/
def handed (w : WorkerId) (es : List Effect) : List TaskId := es.filterMap (Effect.hands? w)

theorem handed_append (w : WorkerId) (es fs : List Effect) :
    handed w (es ++ fs) = handed w es ++ handed w fs := List.filterMap_append

theorem handed_bare {w : WorkerId} {es : List Effect} (h : ∀ e ∈ es, e.Bare) : handed w es = [] :=
  List.filterMap_eq_nil_iff.mpr fun e he => (h e he).hands? w

/-! ## what becomes of the entries -/

namespace Roster

/-- an entry changes, goes or comes; that of a stopping worker stays so, and goes only with the news
that the worker is gone -/
inductive Change (msg : Message) (r : Roster) : Roster → Prop where
  | same : Change msg r r
  | modify (v : WorkerId) (f : Entry → Entry) (hf : ∀ e, (f e).worker = e.worker)
      (hs : ∀ e, r.find? v = some e → e.status = .stopping → (f e).status = .stopping) :
      Change msg r (r.modify v f)
  | erase (v : WorkerId) (e : Entry) (he : r.find? v = some e)
      (hs : e.status = .stopping → msg.leaver? = some v) : Change msg r (r.erase v)
  | enrol (now : Timestamp) : Change msg r (r.enrol now)

/-- whoever is not there but stopping stays so -/
theorem Fades.stopping {r r' : Roster} (h : Fades r r') {w : WorkerId} (hw : w < r.nextId)
    (hst : ∀ e, r.find? w = some e → e.status = .stopping) (e' : Entry)
    (he' : r'.find? w = some e') : e'.status = .stopping := by
  cases he : r.find? w with
  | none =>
    rw [h.gone w hw he] at he'
    cases he'
  | some e => exact (h.kept w hw e e' he (hst e he) he').1

/-- the worker is stopping, or gone, as it may be if it was `gone` already -/
structure Leaves (w : WorkerId) (gone : Prop) (r : Roster) : Prop where
  sound : r.Sound
  below : w < r.nextId
  stopping : ∀ e, r.find? w = some e → e.status = .stopping
  gone : r.find? w = none → gone

theorem Leaves.change {w : WorkerId} {gone : Prop} {msg : Message} {r r' : Roster}
    (h : r.Leaves w gone) (hc : Change msg r r') (hg : msg.leaver? = some w → gone) :
    r'.Leaves w gone := by
  cases hc with
  | same => exact h
  | modify v f hf hs =>
    refine ⟨h.sound.modify f hf v, h.below, fun e he => ?_, fun hn => h.gone ?_⟩
    · rcases find?_modify_some he hf with ⟨rfl, e0, h0, rfl⟩ | ⟨_, h0⟩
      · exact hs e0 h0 (h.stopping e0 h0)
      · exact h.stopping e h0
    · rw [find?_modify r f hf] at hn
      split at hn
      · exact Option.map_eq_none_iff.mp hn
      · exact hn
  | erase v e he hs =>
    refine ⟨h.sound.erase v, h.below, fun e' he' => ?_, fun hn => ?_⟩
    · rw [find?_erase] at he'
      split at he'
      · cases he'
      · exact h.stopping e' he'
    · rw [find?_erase] at hn
      split at hn
      · rename_i hv
        subst hv
        exact hg (hs (h.stopping e he))
      · exact h.gone hn
  | enrol now =>
    have hold : (r.enrol now).find? w = r.find? w := by
      rw [Roster.find?_enrol, if_neg (Nat.ne_of_lt h.below)]
    exact ⟨h.sound.enrol now, Nat.lt_succ_of_lt h.below, fun e he => h.stopping e (hold ▸ he),
      fun hn => h.gone (hold ▸ hn)⟩

end Roster

namespace Pool

variable {m : Moment} {msg : Message}

theorem Chore.change {p q : Pool} (h : Chore m msg p q) : p.roster.Change msg q.roster := by
  cases h with
  | wake caller =>
    obtain ⟨stops, replies, hw, _⟩ := wake_eq p caller
    rw [hw]
    exact .same
  | note w f hf => exact .modify w f hf.worker fun e _ hst => (hf.status e).trans hst
  | await w caller => exact .modify w _ (fun _ => rfl) fun e _ hst => hst
  | ticks =>
    unfold armTicks
    split <;> exact .same
  | dispatch w e affinity t rest task he hs =>
    refine .modify w _ (fun _ => rfl) fun e' he' hst => ?_
    rw [he] at he'
    cases he'
    rw [hs] at hst
    cases hst
  | retire waiter w e he hs =>
    obtain ⟨f, hf, _, hst, hr⟩ := stopWorker_roster (m := m) waiter p w
    rw [hr]
    exact .modify w f hf fun e' he' _ => hst e' he'
  | remove w e he hs hm =>
    rw [dispose_roster]
    exact .erase w e he fun _ => hm
  | hire =>
    by_cases ha : m.attached = true
    · rw [hire_of_attached ha]
      exact .enrol m.now
    · rw [hire_of_detached (by simpa using ha)]
      exact .same
  | _ => exact .same

theorem Impact.change {p q : Pool} (h : Impact m p msg q) : p.roster.Change msg q.roster := by
  have hlive {w : WorkerId} {e : Entry} {f : Entry → Entry} (he : p.roster.find? w = some e)
      (hs : e.status ≠ .stopping) (e' : Entry) (he' : p.roster.find? w = some e')
      (hst : e'.status = .stopping) : (f e').status = .stopping := by
    rw [he] at he'
    cases he'
    exact absurd hst hs
  cases h with
  | none | accept | retry => exact .same
  | ready w e he hs =>
    exact .modify w _ (fun _ => rfl) (hlive he (by rw [hs]; exact WorkerStatus.noConfusion))
  | idle w e he hs =>
    exact .modify w _ (fun _ => rfl) (hlive he (by rw [hs]; exact WorkerStatus.noConfusion))
  | busy w t e he hs =>
    rw [startAttempt_roster]
    exact .modify w _ (fun _ => rfl) (hlive he hs)
  | busyLate w t =>
    rw [startAttempt_roster]
    exact .same
  | result w => exact .modify w _ (fun _ => rfl) fun e _ hst => hst
  | error w =>
    rw [failTask_roster]
    exact .modify w _ (fun _ => rfl) fun e _ hst => hst
  | crash w event detail e hd he hs =>
    rw [dispose_roster]
    exact .erase w e he fun hst => absurd hst hs
  | crashBusy w event detail e t hd he hs =>
    rw [failTask_roster, dispose_roster]
    exact .erase w e he fun hst => absurd hst hs

/-! ## nobody who leaves is handed anything -/

section
variable {w : WorkerId} {gone : Prop} (hg : msg.leaver? = some w → gone)
include hg

theorem Chore.leaving {p q : Pool} (h : p.roster.Leaves w gone) (hc : Chore m msg p q) :
    q.roster.Leaves w gone ∧ handed w q.outbox = handed w p.outbox := by
  refine ⟨h.change hc.change hg, ?_⟩
  obtain ⟨es, hes⟩ := hc.hand
  cases hes with
  | bare _ ho hb => rw [ho, handed_append, handed_bare hb, List.append_nil]
  | task v e id kind payload he hs ho =>
    have hne : v ≠ w := by
      rintro rfl
      rw [h.stopping e he] at hs
      cases hs
    have hnone : handed w [.tell v (.task id kind payload)] = [] :=
      List.filterMap_cons_none (if_neg hne)
    rw [ho, handed_append, hnone, List.append_nil]

theorem Chores.leaving {p q : Pool} (h : p.roster.Leaves w gone) (hc : Chores m msg p q) :
    q.roster.Leaves w gone ∧ handed w q.outbox = handed w p.outbox := by
  induction hc with
  | refl => exact ⟨h, rfl⟩
  | tail _ hc ih =>
    obtain ⟨hq, hhanded⟩ := hc.leaving hg ih.1
    exact ⟨hq, hhanded.trans ih.2⟩

theorem Impact.leaving {p q : Pool} (h : p.roster.Leaves w gone) (hi : Impact m p msg q) :
    q.roster.Leaves w gone ∧ handed w q.outbox = handed w p.outbox := by
  refine ⟨h.change hi.change hg, ?_⟩
  obtain ⟨es, ho, htime⟩ := hi.timing
  have hnone : handed w es = [] := by
    cases htime with
    | bare _ _ hb => exact handed_bare hb
    | busy v id t timer ds _ _ hb => exact (List.filterMap_cons_none rfl).trans (handed_bare hb)
  rw [ho, handed_append, hnone, List.append_nil]

end

/-- **whoever was asked to stop is handed nothing**, and stays until its end is heard of -/
theorem handle_leaving {p : Pool} {w : WorkerId} (hs : p.roster.Sound) (hw : w < p.roster.nextId)
    (hst : ∀ e, p.roster.find? w = some e → e.status = .stopping) (msg : Message) :
    handed w (p.handle m msg).outbox = handed w p.outbox ∧
      (p.roster.find? w ≠ none → (p.handle m msg).roster.find? w = none →
        msg.leaver? = some w) := by
  have h : p.roster.Leaves w (msg.leaver? = some w ∨ p.roster.find? w = none) := ⟨hs, hw, hst, .inr⟩
  obtain ⟨p1, p2, hi, hc, hq⟩ := handle_chores (m := m) hs msg
  obtain ⟨h1, hhanded1⟩ := hi.leaving .inl h
  obtain ⟨h2, hhanded2⟩ := Chores.leaving .inl h1 hc
  have hreceipt : handed w (p.receipt msg) = [] := by
    refine handed_bare fun e he => ?_
    obtain ⟨caller, id, rfl⟩ := mem_receipt he
    trivial
  rw [hq]
  refine ⟨?_, fun hthere hgone => (h2.gone hgone).resolve_right hthere⟩
  show handed w (p2.outbox ++ p.receipt msg) = _
  rw [handed_append, hreceipt, List.append_nil, hhanded2, hhanded1]

/-! ## who starts nobody -/

theorem Steady.modest {p q : Pool} (h : Steady m p q) : Modest p q := by
  induction h with
  | refl => exact .refl p
  | tail _ h ih => exact ih.trans h.modest

theorem handle_calm {p : Pool} (hs : p.roster.Sound) (hc : msg.IsCalm) :
    hired (p.handle m msg).outbox = hired p.outbox := by
  obtain ⟨p1, p2, hi, _, hsteady, hq⟩ := handle_splits (m := m) hs msg
  rw [hq]
  exact ((hi.modest.trans (hsteady hc).modest).trans (Modest.receipt p p2 msg)).hired

/-- a report that leaves its sender the entry starts nobody -/
theorem report_calm {p : Pool} (hs : p.roster.Sound) {w : WorkerId} {e : Event}
    (hw : (p.handle m (.report w e)).roster.find? w ≠ none) :
    hired (p.handle m (.report w e)).outbox = hired p.outbox := by
  cases e with
  | fatal detail => exact absurd (crash_gone hs w detail) hw
  | exited graceful => exact absurd (crash_gone hs w (exitDetail graceful)) hw
  | _ => exact handle_calm hs trivial

/-! ## a pool that runs -/

/-- a pool that runs does so until it is stopped -/
theorem handle_on {p : Pool} (h : p.Mustered) (hr : p.running = true)
    (hm : ∀ caller, msg ≠ .call caller .stop) : (p.handle m msg).running = true := by
  by_cases hc : msg.scales = false
  · obtain ⟨k, hk, _⟩ := handle_balances (m := m) h hc
    exact hk.running.trans hr
  · cases msg with
    | report => exact absurd rfl hc
    | call caller r =>
      cases r with
      | start =>
        show (start m p).running = true
        rw [start_of_running hr, hr]
      | stop => exact absurd rfl (hm caller)
      | _ => exact absurd rfl hc
    | ring alarm =>
      cases alarm with
      | autoscaleTick => exact (autoscale_shifts (m := m) h hr).running.trans hr
      | _ => exact absurd rfl hc

end Pool

end TaskPool
