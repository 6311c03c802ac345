import TaskPool.Proofs.Chore

/-!
# Every message is an impact and moves

`handle_splits` takes the functions of `Pool.Step` apart into the impact of the message and moves.

* `handle_splits`   a message has its impact, then there are moves, and last comes the receipt
* `handle_sound`    the roster stays sound
-/

namespace TaskPool

open Relation

namespace Pool

variable {m : Moment}

theorem assign_steady (p : Pool) (w : WorkerId) : Steady m p (assign m p w) :=
  have h : Chores m (.report w .ready) p _ := assign_chores p w
  h.steady trivial

theorem assignEach_steady (ws : List WorkerId) (p : Pool) : Steady m p (assignEach m ws p) :=
  have h : Chores m (.report 0 .ready) p _ := assignEach_chores ws p
  h.steady trivial

theorem stopAll_steady (ws : List WorkerId) (p : Pool) (h : ∀ w ∈ ws, p.Spare w) :
    Steady m p (ws.foldl (stopWorker m none) p) :=
  have hc : Chores m (.report 0 .ready) p _ := stopAll_chores ws p h
  hc.steady trivial

/-- `p` becomes `q` by the impact of a message, then by moves, and `receipt` is emitted last -/
def Splits (m : Moment) (p : Pool) (msg : Message) (q : Pool) : Prop :=
  ∃ p1 p2, Impact m p msg p1 ∧ Moves m p1 p2 ∧ (msg.IsCalm → Steady m p1 p2) ∧
    q = p2.emitAll (p.receipt msg)

/-- **a message has its impact, then there are moves, and the receipt comes last** -/
theorem handle_splits {p : Pool} (hs : p.roster.Sound) (msg : Message) :
    Splits m p msg (p.handle m msg) := by
  obtain ⟨p1, p2, hi, hc, hq⟩ := handle_chores (m := m) hs msg
  exact ⟨p1, p2, hi, hc.moves, hc.steady, hq⟩

/-! ## the roster stays sound -/

theorem Move.sound {p q : Pool} (h : Move m p q) (hs : p.roster.Sound) : q.roster.Sound := by
  cases h with
  | reply | ask | promise | «open» | unknown | bounce | cancel | expire | shut => exact hs
  | wake caller =>
    obtain ⟨s, r, h, _⟩ := wake_eq p caller
    rw [h]
    exact hs
  | note w f hf => exact hs.modify f hf.worker w
  | ticks =>
    rw [armTicks_roster]
    exact hs
  | dispatch w =>
    refine hs.modify _ ?_ w
    exact fun _ => rfl
  | retire waiter w e he hst _ =>
    rw [stopWorker_of_live waiter he hst]
    refine hs.modify _ ?_ w
    exact fun _ => rfl
  | remove w e =>
    rw [dispose_roster]
    exact hs.erase w

theorem Moves.sound {p q : Pool} (h : Moves m p q) (hs : p.roster.Sound) : q.roster.Sound := by
  induction h with
  | refl => exact hs
  | tail _ h ih =>
    rcases h with h | rfl
    · exact h.sound ih
    · exact hire_sound ih

theorem Impact.sound {p q : Pool} {msg : Message} (h : Impact m p msg q) (hs : p.roster.Sound) :
    q.roster.Sound := by
  cases h with
  | none | accept | retry => exact hs
  | ready w | idle w =>
    refine hs.modify _ ?_ w
    exact fun _ => rfl
  | busy w t =>
    rw [startAttempt_roster]
    refine hs.modify _ ?_ w
    exact fun _ => rfl
  | busyLate w t =>
    rw [startAttempt_roster]
    exact hs
  | result w =>
    refine hs.modify _ ?_ w
    exact fun _ => rfl
  | error w t =>
    rw [failTask_roster]
    refine hs.modify _ ?_ w
    exact fun _ => rfl
  | crash w =>
    rw [dispose_roster]
    exact hs.erase w
  | crashBusy w =>
    rw [failTask_roster, dispose_roster]
    exact hs.erase w

/-- every worker number is given once, whatever comes -/
theorem handle_sound {p : Pool} (hs : p.roster.Sound) (msg : Message) :
    (p.handle m msg).roster.Sound := by
  obtain ⟨p1, p2, hi, hm, _, h⟩ := handle_splits (m := m) hs msg
  rw [h]
  exact hm.sound (hi.sound hs)

end Pool

end TaskPool
