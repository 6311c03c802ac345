import TaskPool.Proofs.Bookkeeping
import TaskPool.Simulation.TimedLedger

/-!
# A ledger whose consequences are carried out

Whoever owes an outcome, and whoever is to be woken by a timer, learns of it only by the
consequences of what is posted.  A `TimedLedger` carries them out as they come.

* `Ledger.consequences`   what follows from a posting
* `follow_eq`             outcomes are delivered in order, and timers taken back by their numbers
* `TimedLedger.Runs`      something is posted, timers are armed and time goes on, in any order
* `Runs.kept`             the ledger is that of the books, just the outcomes that stand in them were
                          delivered, and no number was given to two timers
* `Runs.heard`            so each task that has left has had one outcome delivered, and no other has
* `Runs.withdrawn`        a timer that was taken back, or has rung, never comes again
-/

namespace TaskPool

/-- what follows from a posting -/
def Ledger.consequences (l : Ledger) : Posting → List Consequence
  | .setTimer id timer => (l.setTimer id timer).2
  | .complete id value => ((l.complete id value).map Prod.snd).getD []
  | .fail id cause now => ((l.fail id cause now).unchecked.map fun r => r.2.2).getD []
  | .timeOut id attempt => ((l.timeOut id attempt).map fun r => r.2.2).getD []
  | .cancel id => (l.cancel id).2.2
  | .drain why => (l.drain why).2
  | .insert .. | .dispatch .. | .start .. | .reset _ => []

def Mark.outcome? : Mark → Option Outcome
  | ended outcome => some outcome
  | _ => none

/-- the outcomes among what is seen -/
def endings (ms : List (TaskId × Mark)) : List (TaskId × Outcome) :=
  ms.filterMap fun m => m.2.outcome?.map (Prod.mk m.1)

def Consequence.timer? : Consequence → Option TimerId
  | .disarm timer => some timer
  | .deliver .. => none

theorem endings_append (ms ns : List (TaskId × Mark)) :
    endings (ms ++ ns) = endings ms ++ endings ns := List.filterMap_append

/-- what is seen of a posting and what follows from it tell of the same outcomes -/
theorem Ledger.endings_post (l : Ledger) (p : Posting) :
    endings (l.post p).marks = endings (Consequence.marks (l.consequences p)) := by
  cases p with
  | insert | dispatch | setTimer | cancel | drain => rfl
  | start id worker now =>
    unfold post consequences
    dsimp only
    split <;> rfl
  | complete id value =>
    unfold post consequences
    dsimp only
    cases l.complete id value <;> rfl
  | fail id cause now =>
    unfold post consequences
    dsimp only
    rcases (l.fail id cause now).unchecked with _ | ⟨_ | _, ledger, cs⟩ <;> rfl
  | reset id =>
    unfold post consequences
    dsimp only
    cases l.resetForRetry id <;> rfl
  | timeOut id attempt =>
    unfold post consequences
    dsimp only
    cases l.timeOut id attempt <;> rfl

/-- of one task, as many outcomes as it has ends -/
theorem count_endings (ms : List (TaskId × Mark)) (id : TaskId) :
    (endings ms).countP (fun d => d.1 == id) = (marksOf id ms).countP Mark.isEnd := by
  induction ms with
  | nil => rfl
  | cons m ms ih =>
    obtain ⟨x, mark⟩ := m
    have hsplit : endings ((x, mark) :: ms) = endings [(x, mark)] ++ endings ms :=
      endings_append [(x, mark)] ms
    rw [hsplit, List.countP_append, ih]
    by_cases hx : x = id
    · subst hx
      rw [marksOf_cons_self, List.countP_cons, Nat.add_comm]
      cases mark <;> simp [endings, Mark.outcome?, Mark.isEnd]
    · rw [marksOf_cons_of_ne hx]
      cases mark <;> simp [endings, Mark.outcome?, hx]

namespace TimedLedger

/-- outcomes are delivered in order, and timers are taken back by their numbers -/
theorem follow_eq (l : TimedLedger) (ledger : Ledger) (cs : List Consequence) :
    l.follow ledger cs = { l with
      ledger := ledger
      timers := l.timers.filter fun t => t.id ∉ cs.filterMap Consequence.timer?
      delivered := l.delivered ++ endings (Consequence.marks cs) } := by
  have hfold (k : TimedLedger) : cs.foldl carryOut k = { k with
      timers := k.timers.filter fun t => t.id ∉ cs.filterMap Consequence.timer?
      delivered := k.delivered ++ endings (Consequence.marks cs) } := by
    induction cs generalizing k with
    | nil => simp [Consequence.marks, endings]
    | cons c cs ih =>
      rw [List.foldl_cons, ih]
      cases c with
      | deliver id outcome =>
        simp [carryOut, Consequence.timer?, Consequence.marks, Consequence.mark?, endings,
          Mark.outcome?]
      | disarm timer =>
        have hids : (Consequence.disarm timer :: cs).filterMap Consequence.timer?
            = timer :: cs.filterMap Consequence.timer? := rfl
        have hmarks : Consequence.marks (.disarm timer :: cs) = Consequence.marks cs := rfl
        simp only [carryOut, hids, hmarks, List.filter_filter, List.mem_cons, not_or, bne]
        congr 2
        funext t
        rw [Bool.decide_and, Bool.and_comm, decide_not, decide_not, beq_eq_decide]
  exact hfold _

/-- another timer is under way, of which no task was told yet -/
def underway (l : TimedLedger) (ms : Nat) (label : String) : TimedLedger :=
  { l with
    timers := l.timers ++ [⟨l.nextTimer, l.clock + ms, label⟩]
    nextTimer := l.nextTimer + 1 }

/-- to arm a timer is to post it to its task -/
theorem arm_eq (l : TimedLedger) (id : TaskId) (ms : Nat) (label : String) :
    l.arm id ms label = (l.underway ms label).follow
      (l.ledger.post (.setTimer id l.nextTimer)).ledger
      (l.ledger.consequences (.setTimer id l.nextTimer)) := rfl

/-- something is posted, a timer is armed under the next number, or time goes on -/
inductive Step : List Posting → TimedLedger → TimedLedger → Prop where
  | post (p : Posting) (l : TimedLedger) :
      Step [p] l (l.follow (l.ledger.post p).ledger (l.ledger.consequences p))
  | arm (id : TaskId) (ms : Nat) (label : String) (l : TimedLedger) :
      Step [.setTimer id l.nextTimer] l (l.arm id ms label)
  | tick (l : TimedLedger) : Step [] l l.tick
  | settle (l : TimedLedger) : Step [] l l.settle
  | advance (ms : Nat) (l : TimedLedger) : Step [] l (l.advance ms)

/-- the timed ledgers that come of so many postings -/
inductive Runs : List Posting → TimedLedger → TimedLedger → Prop where
  | refl (l : TimedLedger) : Runs [] l l
  | step {ps qs : List Posting} {l l' l'' : TimedLedger} (h : Runs ps l l') (hs : Step qs l' l'') :
      Runs (ps ++ qs) l l''

/-- how a timed ledger fits the books of what was posted -/
structure Kept (ps : List Posting) (l : TimedLedger) : Prop where
  ledger : l.ledger = (Books.after ps).ledger
  delivered : l.delivered = endings (Books.after ps).log
  fresh : ∀ x ∈ l.timers, x.id < l.nextTimer
  nodup : (l.timers.map LabelledTimer.id).Nodup

section
variable {ps : List Posting} {l : TimedLedger}

theorem Kept.follow (h : Kept ps l) (p : Posting) :
    Kept (ps ++ [p]) (l.follow (l.ledger.post p).ledger (l.ledger.consequences p)) := by
  rw [follow_eq]
  refine ⟨?_, ?_, fun x hx => h.fresh x (List.mem_of_mem_filter hx), ?_⟩
  · rw [Books.after_snoc, h.ledger]
    rfl
  · show l.delivered ++ _ = _
    rw [Books.after_snoc, h.delivered, h.ledger, ← Ledger.endings_post]
    exact (endings_append _ _).symm
  · exact h.nodup.sublist (List.filter_sublist.map _)

theorem Kept.settle (h : Kept ps l) : Kept ps l.settle :=
  ⟨h.ledger, h.delivered, fun x hx => h.fresh x (List.mem_of_mem_filter hx),
    h.nodup.sublist (List.filter_sublist.map _)⟩

theorem Kept.arm (h : Kept ps l) (id : TaskId) (ms : Nat) (label : String) :
    Kept (ps ++ [.setTimer id l.nextTimer]) (l.arm id ms label) := by
  have harmed : Kept ps (l.underway ms label) := by
    refine ⟨h.ledger, h.delivered, fun x hx => ?_, ?_⟩
    · rcases List.mem_append.mp hx with hx | hx
      · exact Nat.lt_succ_of_lt (h.fresh x hx)
      · rw [List.mem_singleton.mp hx]
        exact Nat.lt_succ_self _
    · show (List.map _ (l.timers ++ [_])).Nodup
      rw [List.map_append]
      refine h.nodup.append (List.nodup_singleton _) fun i hi hnew => ?_
      obtain ⟨x, hx, rfl⟩ := List.mem_map.mp hi
      exact Nat.lt_irrefl _ ((List.mem_singleton.mp hnew) ▸ h.fresh x hx)
  rw [arm_eq]
  exact harmed.follow (.setTimer id l.nextTimer)

theorem Kept.step {qs : List Posting} {l' : TimedLedger} (h : Kept ps l) (hs : Step qs l l') :
    Kept (ps ++ qs) l' := by
  cases hs with
  | post p => exact h.follow p
  | arm id ms label => exact h.arm id ms label
  | tick =>
    rw [List.append_nil]
    exact ⟨h.ledger, h.delivered, h.fresh, h.nodup⟩
  | settle =>
    rw [List.append_nil]
    exact h.settle
  | advance ms =>
    rw [List.append_nil]
    have hlater := h.settle
    exact Kept.settle ⟨hlater.ledger, hlater.delivered, hlater.fresh, hlater.nodup⟩

/-- **whatever was posted and however time went on**, the ledger is that of the books, just the
outcomes that stand in them were delivered, and no number was given to two timers -/
theorem Runs.kept (h : Runs ps .empty l) : Kept ps l := by
  generalize hnew : empty = l0 at h
  induction h with
  | refl =>
    subst hnew
    exact ⟨rfl, rfl, fun _ hx => (nomatch hx), List.nodup_nil⟩
  | step _ hs ih => exact (ih hnew).step hs

/-- **each task that has left has had one outcome delivered**, and no other has -/
theorem Runs.heard (h : Runs ps .empty l) (hd : (inserted ps).Nodup) (id : TaskId) :
    l.delivered.countP (fun d => d.1 == id)
      = if l.ledger.find? id = none ∧ (Books.after ps).told id ≠ [] then 1 else 0 := by
  have hregular := (Books.sound_after hd).regular
  rw [h.kept.delivered, count_endings, h.kept.ledger]
  show ((Books.after ps).told id).countP Mark.isEnd = _
  cases ht : (Books.after ps).ledger.find? id with
  | some t =>
    rw [if_neg fun hgone => nomatch hgone.1]
    exact (hregular.lasting id t ht).2
  | none =>
    by_cases htold : (Books.after ps).told id = []
    · rw [htold, if_neg fun hgone => hgone.2 rfl]
      rfl
    · rw [if_pos ⟨rfl, htold⟩]
      exact (hregular.gone id ht htold).1

/-- a timer is there before a step, or has a number that was not given before it -/
theorem Step.timers {qs : List Posting} {l' : TimedLedger} (h : Step qs l l') :
    l.nextTimer ≤ l'.nextTimer ∧ ∀ x ∈ l'.timers, x ∈ l.timers ∨ l.nextTimer ≤ x.id := by
  have hsettle (k : TimedLedger) : ∀ x ∈ k.settle.timers, x ∈ k.timers := fun x hx =>
    List.mem_of_mem_filter hx
  cases h with
  | post p =>
    rw [follow_eq]
    exact ⟨Nat.le_refl _, fun x hx => .inl (List.mem_of_mem_filter hx)⟩
  | arm id ms label =>
    rw [arm_eq, follow_eq]
    refine ⟨Nat.le_succ _, fun x hx => ?_⟩
    rcases List.mem_append.mp (List.mem_of_mem_filter hx) with hold | hnew
    · exact .inl hold
    · rw [List.mem_singleton.mp hnew]
      exact .inr (Nat.le_refl _)
  | tick => exact ⟨Nat.le_refl _, fun x hx => .inl hx⟩
  | settle => exact ⟨Nat.le_refl _, fun x hx => .inl (hsettle l x hx)⟩
  | advance ms =>
    exact ⟨Nat.le_refl _, fun x hx => .inl (hsettle l x (hsettle { l.settle with
      clock := l.clock + ms } x hx))⟩

/-- **a timer that is gone never comes again**, since its number is not given again -/
theorem Runs.withdrawn {l' : TimedLedger} (h : Runs ps l l') {i : TimerId} (hi : i < l.nextTimer)
    (hgone : ∀ x ∈ l.timers, x.id ≠ i) :
    i < l'.nextTimer ∧ ∀ x ∈ l'.timers, x.id ≠ i := by
  induction h with
  | refl => exact ⟨hi, hgone⟩
  | step _ hs ih =>
    obtain ⟨hlt, hgone⟩ := ih hi hgone
    obtain ⟨hnext, htimers⟩ := hs.timers
    refine ⟨Nat.lt_of_lt_of_le hlt hnext, fun x hx => ?_⟩
    rcases htimers x hx with hold | hle
    · exact hgone x hold
    · exact Nat.ne_of_gt (Nat.lt_of_lt_of_le hlt hle)

end

end TimedLedger

end TaskPool
