import Mathlib.Data.List.Count
import TaskPool.Proofs.Chore
import TaskPool.Proofs.Restart

/-!
# What a stop request waits for

A stop request is entered with every worker it finds, and the pool counts how many of them are left.
When the last one is gone the request is answered.

* `answers`            what a call was answered
* `Pool.Owes`          the count that the pool keeps for a request, and the answer it is good for
* `Pool.Pledged`       the count is that of the entries of the workers that the request has found
* `Pledged.dispose`    a worker that goes is counted off, once
* `handle_pledged`     messages of others keep the pledge
* `stop_pledged`       a stop is a pledge to wait for everybody who is there

Why a request that was not made yet has a pledge as well: it waits for nobody and was answered
nothing, and that is what it starts from.
-/

namespace TaskPool

open Relation

/-! ## answers -/

def Effect.answer? (k : CallId) : Effect → Option Answer
  | .reply caller a => if caller = k then some a else none
  | _ => none

/-- what the call `k` was answered -/
def answers (k : CallId) (es : List Effect) : List Answer := es.filterMap (Effect.answer? k)

section
variable (k : CallId)

theorem answers_append (es fs : List Effect) :
    answers k (es ++ fs) = answers k es ++ answers k fs := List.filterMap_append

theorem answers_eq_nil {es : List Effect} (h : ∀ e ∈ es, e.answer? k = none) : answers k es = [] :=
  List.filterMap_eq_nil_iff.mpr h

theorem answers_consequences (cs : List Consequence) :
    answers k (cs.map Consequence.effect) = [] := by
  refine answers_eq_nil k fun e he => ?_
  obtain ⟨c, _, rfl⟩ := List.mem_map.mp he
  cases c <;> rfl

end

namespace Pool

variable {m : Moment} {msg : Message} {k : CallId} {R : List WorkerId} {past : List Effect}
  {total : List Answer} {n : Nat}

/-! ## the count -/

/-- `n` of those that the request waits for are left; when they are gone, `total` is what it was
answered in all -/
structure Owes (k : CallId) (total : List Answer) (past : List Effect) (n : Nat) (p : Pool) :
    Prop where
  stops : p.stops.filter (fun s => s.caller == k) = if n = 0 then [] else [⟨k, n⟩]
  answered : answers k (past ++ p.outbox) ++ (if n = 0 then [] else [.done]) = total

theorem Owes.same {p q : Pool} (h : Owes k total past n p) {es : List Effect}
    (hs : q.stops.filter (fun s => s.caller == k) = p.stops.filter fun s => s.caller == k)
    (ho : q.outbox = p.outbox ++ es) (he : answers k es = []) : Owes k total past n q := by
  refine ⟨hs.trans h.stops, ?_⟩
  rw [ho, ← List.append_assoc, answers_append, he, List.append_nil]
  exact h.answered

section
variable (stops : List PendingStop)

theorem filter_struck {c : CallId} (hc : c ≠ k) :
    (stops.filter fun s => s.caller != c).filter (fun s => s.caller == k)
      = stops.filter fun s => s.caller == k := by
  rw [List.filter_filter]
  refine List.filter_congr fun x _ => ?_
  by_cases hx : x.caller = k
  · simp [hx, Ne.symm hc]
  · simp [hx]

/-- a count goes down with the request it belongs to -/
theorem filter_counted (c : CallId) :
    (stops.map fun s => if s.caller = c then { s with remaining := s.remaining - 1 } else s).filter
        (fun s => s.caller == k)
      = (stops.filter fun s => s.caller == k).map fun s =>
          if s.caller = c then { s with remaining := s.remaining - 1 } else s := by
  rw [List.filter_map]
  congr 1
  refine List.filter_congr fun x _ => ?_
  by_cases hx : x.caller = c <;> simp [hx]

end

/-- somebody else is told that a worker is gone -/
theorem Owes.wake_other {p : Pool} (h : Owes k total past n p) {c : CallId} (hc : c ≠ k) :
    Owes k total past n (p.wake c) := by
  unfold Pool.wake
  split
  · exact h
  · split
    · exact h.same (filter_struck p.stops hc) rfl
        (answers_eq_nil k fun e he => by
          rw [List.mem_singleton.mp he]
          exact if_neg hc)
    · refine h.same ?_ (List.append_nil _).symm rfl
      refine (filter_counted p.stops c).trans ?_
      rw [h.stops]
      split
      · rfl
      · exact congrArg (fun x => [x]) (if_neg (Ne.symm hc))

/-- the request itself is told -/
theorem Owes.wake {p : Pool} (h : Owes k total past (n + 1) p) :
    Owes k total past n (p.wake k) := by
  have hstops : p.stops.filter (fun s => s.caller == k) = [⟨k, n + 1⟩] := h.stops
  have hanswered : answers k (past ++ p.outbox) ++ [.done] = total := h.answered
  have hfind : p.stops.find? (fun s => s.caller == k) = some ⟨k, n + 1⟩ := by
    rw [← List.head?_filter, hstops]
    rfl
  unfold Pool.wake
  rw [hfind]
  by_cases hn : n = 0
  · subst hn
    refine ⟨?_, ?_⟩
    · show (p.stops.filter fun s => s.caller != k).filter _ = []
      rw [List.filter_filter]
      exact List.filter_eq_nil_iff.mpr fun x _ => by simp
    · show answers k (past ++ (p.outbox ++ [.reply k .done])) ++ [] = total
      rw [← List.append_assoc, answers_append, List.append_nil, ← hanswered]
      have hone : Effect.answer? k (.reply k .done) = some .done := if_pos rfl
      rw [answers, answers, List.filterMap_cons_some hone]
      rfl
  · have hle : ¬ n + 1 ≤ 1 := by omega
    simp only [if_neg hle]
    refine ⟨?_, ?_⟩
    · rw [if_neg hn]
      refine (filter_counted p.stops k).trans ?_
      rw [hstops]
      exact congrArg (fun x => [x]) (if_pos rfl)
    · rw [if_neg hn]
      exact hanswered

/-- everybody who waits is told -/
theorem Owes.wakeAll (cs : List CallId) {p : Pool} (h : Owes k total past (n + cs.count k) p) :
    Owes k total past n (cs.foldl Pool.wake p) := by
  induction cs generalizing p with
  | nil => exact h
  | cons c cs ih =>
    refine ih ?_
    by_cases hc : c = k
    · subst hc
      rw [List.count_cons_self, ← Nat.add_assoc] at h
      exact h.wake
    · rw [List.count_cons_of_ne hc] at h
      exact h.wake_other hc

/-! ## the pledge -/

/-- how many of the workers in `R` have an entry -/
def left (p : Pool) (R : List WorkerId) : Nat := p.roster.ids.countP fun w => decide (w ∈ R)

theorem left_eq_zero {p : Pool} : p.left R = 0 ↔ ∀ w ∈ R, p.roster.find? w = none := by
  rw [left, List.countP_eq_zero]
  constructor
  · intro h w hw
    refine Roster.find?_eq_none.mpr fun hmem => h w hmem ?_
    exact decide_eq_true hw
  · intro h w hmem hw
    exact Roster.find?_eq_none.mp (h w (of_decide_eq_true hw)) hmem

/-- the request waits for those in `R` and for nobody else -/
structure Pledged (k : CallId) (R : List WorkerId) (total : List Answer) (past : List Effect)
    (p : Pool) : Prop where
  sound : p.roster.Sound
  waiters : ∀ w e, p.roster.find? w = some e → e.waiters.count k = if w ∈ R then 1 else 0
  below : ∀ w ∈ R, w < p.roster.nextId
  owes : p.Owes k total past (p.left R)

/-- the roster stays as it is, as far as the request can tell -/
theorem Pledged.same {p q : Pool} (h : Pledged k R total past p) {es : List Effect}
    (ho : q.outbox = p.outbox ++ es) (he : answers k es = []) (hs : q.stops = p.stops)
    (hr : q.roster = p.roster) : Pledged k R total past q := by
  refine ⟨hr ▸ h.sound, by rw [hr]; exact h.waiters, by rw [hr]; exact h.below, ?_⟩
  have hleft : q.left R = p.left R := by rw [left, left, hr]
  rw [hleft]
  exact h.owes.same (by rw [hs]) ho he

/-- an entry changes, as far as nobody else comes to wait for it -/
theorem Pledged.modify {p q : Pool} (h : Pledged k R total past p) {es : List Effect}
    (ho : q.outbox = p.outbox ++ es) (he : answers k es = []) (hs : q.stops = p.stops)
    (w : WorkerId) (f : Entry → Entry) (hr : q.roster = p.roster.modify w f)
    (hf : ∀ e, (f e).worker = e.worker) (hw : ∀ e, (f e).waiters.count k = e.waiters.count k) :
    Pledged k R total past q := by
  have hids : q.roster.ids = p.roster.ids := by rw [hr, Roster.ids_modify _ _ hf]
  refine ⟨hr ▸ h.sound.modify f hf w, fun x e' hx => ?_, fun x hx => ?_, ?_⟩
  · rw [hr] at hx
    rcases Roster.find?_modify_some hx hf with ⟨rfl, e, he', rfl⟩ | ⟨_, he'⟩
    · rw [hw]
      exact h.waiters x e he'
    · exact h.waiters x e' he'
  · rw [hr]
    exact h.below x hx
  · have hleft : q.left R = p.left R := by rw [left, left, hids]
    rw [hleft]
    exact h.owes.same (by rw [hs]) ho he

theorem Pledged.hire {p : Pool} (h : Pledged k R total past p) :
    Pledged k R total past (p.hire m) := by
  by_cases ha : m.attached = true
  · rw [hire_of_attached ha]
    have hnot : p.roster.nextId ∉ R := fun hin => Nat.lt_irrefl _ (h.below _ hin)
    refine ⟨h.sound.enrol m.now, fun w e he => ?_,
      fun w hw => Nat.lt_succ_of_lt (h.below w hw), ?_⟩
    · have he' : (p.roster.enrol m.now).find? w = some e := he
      rw [Roster.find?_enrol] at he'
      split at he'
      · rename_i hw
        cases he'
        rw [hw, if_neg hnot]
        rfl
      · exact h.waiters w e he'
    · have hleft : ({ p with
          roster := p.roster.enrol m.now
          outbox := p.outbox ++ [.hire p.roster.nextId] } : Pool).left R = p.left R := by
        show ((p.roster.enrol m.now).entries.map Entry.worker).countP _ = _
        rw [h.sound.entries_enrol, List.map_append, List.countP_append]
        show _ + List.countP _ [p.roster.nextId] = _
        rw [List.countP_singleton, if_neg (by simpa using hnot)]
        rfl
      rw [hleft]
      exact h.owes.same rfl rfl rfl
  · rw [hire_of_detached (by simpa using ha)]
    exact h

/-- **a worker that goes is counted off** -/
theorem Pledged.dispose {p : Pool} (h : Pledged k R total past p) {w : WorkerId} {e : Entry}
    (he : p.roster.find? w = some e) : Pledged k R total past ((p.dropEntry w).dispose e) := by
  have hsound : (p.roster.erase w).Sound := h.sound.erase w
  have hleft : p.left R = ((p.dropEntry w).dispose e).left R + e.waiters.count k := by
    have hmem : w ∈ p.roster.ids := Roster.mem_ids he
    have hids : ((p.dropEntry w).dispose e).roster.ids = p.roster.ids.erase w := by
      rw [dispose_roster, h.sound.nodup.erase_eq_filter]
      exact Roster.ids_erase p.roster w
    rw [h.waiters w e he, left, left, hids, List.countP_erase]
    by_cases hw : w ∈ R
    · have hpos : 0 < p.roster.ids.countP fun w => decide (w ∈ R) :=
        List.countP_pos_iff.mpr ⟨w, hmem, decide_eq_true hw⟩
      rw [if_pos hw, if_pos ⟨hmem, decide_eq_true hw⟩]
      omega
    · rw [if_neg hw, if_neg fun hn => hw (of_decide_eq_true hn.2)]
      rfl
  have howes := h.owes
  rw [hleft] at howes
  refine ⟨by rw [dispose_roster]; exact hsound, fun x e' hx => ?_, fun x hx => ?_, ?_⟩
  · rw [dispose_roster] at hx
    have hx' : (p.roster.erase w).find? x = some e' := hx
    rw [Roster.find?_erase] at hx'
    split at hx'
    · cases hx'
    · exact h.waiters x e' hx'
  · rw [dispose_roster]
    exact h.below x hx
  · refine Owes.wakeAll e.waiters ?_
    refine howes.same rfl rfl (answers_eq_nil k fun x hx => ?_)
    rcases List.mem_append.mp hx with hx | hx
    · obtain ⟨i, _, rfl⟩ := List.mem_map.mp hx
      rfl
    · rw [List.mem_singleton.mp hx]
      rfl

/-! ## operations -/

theorem answers_one {e : Effect} (he : e.answer? k = none) : answers k [e] = [] :=
  answers_eq_nil k fun x hx => by rw [List.mem_singleton.mp hx, he]

theorem Pledged.failTask {p : Pool} (h : Pledged k R total past p) (id : TaskId)
    (cause : FailureCause) : Pledged k R total past (failTask m p id cause) := by
  have hc := failTask_cases (m := m) p id cause
  generalize Pool.failTask m p id cause = q at hc
  cases hc with
  | skipped => exact h
  | exhausted | stranded => exact h.same rfl (answers_consequences k _) rfl rfl
  | retried t =>
    refine h.same rfl ?_ rfl rfl
    rw [answers_append, answers_consequences]
    rfl

theorem Pledged.startAttempt {p : Pool} (h : Pledged k R total past p) (id : TaskId)
    (w : WorkerId) : Pledged k R total past (startAttempt m p id w) := by
  have hc := startAttempt_cases (m := m) p id w
  generalize Pool.startAttempt m p id w = q at hc
  cases hc with
  | skipped => exact h
  | untimed => exact h.same (List.append_nil _).symm rfl rfl rfl
  | timed t => exact h.same rfl (answers_consequences k t.disarm) rfl rfl

theorem answers_retirement (p : Pool) (w : WorkerId) : answers k (retirement m p w) = [] := by
  unfold retirement
  rw [answers_append]
  split <;> split <;> rfl

/-- somebody else tells a worker to end -/
theorem Pledged.retire {p : Pool} (h : Pledged k R total past p) {waiter : Option CallId}
    (hk : waiter ≠ some k) {w : WorkerId} {e : Entry} (he : p.roster.find? w = some e)
    (hs : e.status ≠ .stopping) : Pledged k R total past (stopWorker m waiter p w) := by
  rw [stopWorker_of_live waiter he hs]
  refine h.modify rfl (answers_retirement p w) rfl w
    (fun e =>
      { e with
        waiters := e.waiters ++ waiter.toList
        status := .stopping
        task := none
        stopTimer := stopTimerOf m p }) rfl (fun _ => rfl) fun e => ?_
  show (e.waiters ++ waiter.toList).count k = _
  have hnone : waiter.toList.count k = 0 := List.count_eq_zero.mpr (by simpa using hk)
  rw [List.count_append, hnone, Nat.add_zero]

theorem Pledged.cancel {p : Pool} (h : Pledged k R total past p) (id : TaskId) :
    Pledged k R total past (p.cancel id).2 := by
  unfold Pool.cancel
  exact h.same rfl (answers_consequences k _) rfl rfl

theorem Pledged.shut {p : Pool} (h : Pledged k R total past p) : Pledged k R total past p.shut := by
  have ho : p.shut.outbox = p.outbox ++ (p.autoscaleTimer.toList.map .disarm
      ++ (p.ledger.drain .shutdown).2.map Consequence.effect) := by
    rw [← List.append_assoc]
    rfl
  refine h.same ho ?_ rfl rfl
  rw [answers_append, answers_consequences, List.append_nil]
  refine answers_eq_nil k fun e he => ?_
  obtain ⟨i, _, rfl⟩ := List.mem_map.mp he
  rfl

theorem Pledged.armTicks {p : Pool} (h : Pledged k R total past p) :
    Pledged k R total past (p.armTicks m) := by
  unfold Pool.armTicks
  split
  · exact h.same rfl rfl rfl rfl
  · exact h.same (List.append_nil _).symm rfl rfl rfl

/-! ## messages of others -/

theorem Chore.pledged {p q : Pool} (h : Pledged k R total past p) (hk : ∀ r, msg ≠ .call k r)
    (hc : Chore m msg p q) : Pledged k R total past q := by
  have hother {c : CallId} (hm : ∃ r, msg = .call c r) : c ≠ k := by
    rintro rfl
    obtain ⟨r, hr⟩ := hm
    exact hk r hr
  cases hc with
  | reply caller a _ hm => exact h.same rfl (answers_one (if_neg (hother hm))) rfl rfl
  | ask | unknown | bounce => exact h.same rfl rfl rfl rfl
  | wake caller hm =>
    have howes := h.owes.wake_other (hother ⟨_, hm⟩)
    obtain ⟨stops, replies, hw, _⟩ := wake_eq p caller
    rw [hw] at howes ⊢
    exact ⟨h.sound, h.waiters, h.below, howes⟩
  | promise caller n hm =>
    refine ⟨h.sound, h.waiters, h.below, h.owes.same ?_ (List.append_nil _).symm rfl⟩
    rw [List.filter_append, List.filter_cons_of_neg (by simpa using hother ⟨_, hm⟩)]
    exact List.append_nil _
  | note w f hf hw =>
    exact h.modify (List.append_nil _).symm rfl rfl w f rfl hf.worker fun e => by rw [hw]
  | await w caller hm =>
    refine h.modify (List.append_nil _).symm rfl rfl w
      (fun e => { e with waiters := e.waiters ++ [caller] }) rfl (fun _ => rfl) fun e => ?_
    show (e.waiters ++ [caller]).count k = _
    rw [List.count_append, List.count_singleton, if_neg (by simpa using hother ⟨_, hm⟩),
      Nat.add_zero]
  | «open» => exact h.same (List.append_nil _).symm rfl rfl rfl
  | ticks => exact h.armTicks
  | dispatch w e affinity t =>
    exact h.modify rfl rfl rfl w (fun e => e.setBusy t.task m.now) rfl (fun _ => rfl) fun _ => rfl
  | retire waiter w e he hs _ hm =>
    refine h.retire (fun hw => ?_) he hs
    exact hk .stop (hm k hw)
  | remove w e he => exact h.dispose he
  | cancel id => exact h.cancel id
  | expire => exact h.same rfl (answers_consequences k _) rfl rfl
  | shut => exact h.shut
  | hire => exact h.hire

theorem Chores.pledged {p q : Pool} (h : Pledged k R total past p) (hk : ∀ r, msg ≠ .call k r)
    (hc : Chores m msg p q) : Pledged k R total past q := by
  induction hc with
  | refl => exact h
  | tail _ hc ih => exact hc.pledged ih hk

theorem Impact.pledged {p q : Pool} (h : Pledged k R total past p) (hi : Impact m p msg q) :
    Pledged k R total past q := by
  have hnote (w : WorkerId) (f : Entry → Entry) (hf : ∀ e, (f e).worker = e.worker)
      (hw : ∀ e, (f e).waiters = e.waiters) : Pledged k R total past (p.updateEntry w f) :=
    h.modify (List.append_nil _).symm rfl rfl w f rfl hf fun e => by rw [hw]
  cases hi with
  | none => exact h
  | accept | retry => exact h.same (List.append_nil _).symm rfl rfl rfl
  | ready w | idle w => exact hnote w _ (fun _ => rfl) fun _ => rfl
  | busy w t =>
    exact (hnote w (fun e => e.setBusy t m.now) (fun _ => rfl) fun _ => rfl).startAttempt t w
  | busyLate w t => exact h.startAttempt t w
  | result w =>
    exact (hnote w (fun e => { e with processed := e.processed + 1 }) (fun _ => rfl)
      fun _ => rfl).same rfl (answers_consequences k _) rfl rfl
  | error w t =>
    exact (hnote w (fun e => { e with failed := e.failed + 1 }) (fun _ => rfl)
      fun _ => rfl).failTask t _
  | crash _ _ _ e _ he => exact h.dispose he
  | crashBusy _ _ _ e t _ he => exact (h.dispose he).failTask t _

/-- **messages of others keep the pledge** -/
theorem handle_pledged {p : Pool} (h : Pledged k R total past p) (hk : ∀ r, msg ≠ .call k r) :
    Pledged k R total past (p.handle m msg) := by
  obtain ⟨p1, p2, himp, hc, hq⟩ := handle_chores (m := m) h.sound msg
  rw [hq]
  refine (hc.pledged (himp.pledged h) hk).same rfl (answers_eq_nil k fun e he => ?_) rfl rfl
  cases msg with
  | call caller r =>
    obtain ⟨c, id, rfl⟩ := mem_receipt he
    have hc : c = caller := by
      cases r with
      | submit =>
        simp only [receipt] at he
        split at he
        · cases List.mem_singleton.mp he
          rfl
        · cases he
      | _ => cases he
    exact if_neg fun hn => hk r (by rw [← hn, hc])
  | report | ring => cases he

/-! ## the stop itself -/

/-- those in `ws` are told to end, on behalf of the request -/
theorem stopAll_awaits (ws : List WorkerId) {p : Pool} (hd : ws.Nodup)
    (hall : ∀ w ∈ ws, p.roster.find? w ≠ none) :
    (ws.foldl (stopWorker m (some k)) p).stops = p.stops ∧
      (∃ es, (ws.foldl (stopWorker m (some k)) p).outbox = p.outbox ++ es ∧ answers k es = []) ∧
      ∀ w e', (ws.foldl (stopWorker m (some k)) p).roster.find? w = some e' →
        ∃ e, p.roster.find? w = some e ∧
          e'.waiters.count k = e.waiters.count k + if w ∈ ws then 1 else 0 := by
  induction ws generalizing p with
  | nil => exact ⟨rfl, ⟨[], (List.append_nil _).symm, rfl⟩, fun w e' he' => ⟨e', he', rfl⟩⟩
  | cons x ws ih =>
    obtain ⟨hx, hd⟩ := List.nodup_cons.mp hd
    obtain ⟨e, he⟩ := Option.ne_none_iff_exists'.mp (hall x (List.mem_cons_self ..))
    obtain ⟨es, f, hs, ho, hes, hr, hf, hw⟩ : ∃ es, ∃ f : Entry → Entry,
        (stopWorker m (some k) p x).stops = p.stops ∧
        (stopWorker m (some k) p x).outbox = p.outbox ++ es ∧ answers k es = [] ∧
        (stopWorker m (some k) p x).roster = p.roster.modify x f ∧
        (∀ e, (f e).worker = e.worker) ∧ ∀ e, (f e).waiters = e.waiters ++ [k] := by
      by_cases hst : e.status = .stopping
      · rw [stopWorker_of_stopping (some k) he hst]
        exact ⟨[], _, rfl, (List.append_nil _).symm, rfl, rfl, fun _ => rfl, fun _ => rfl⟩
      · rw [stopWorker_of_live (some k) he hst]
        exact ⟨_, _, rfl, rfl, answers_retirement p x, rfl, fun _ => rfl, fun _ => rfl⟩
    have hall' : ∀ w ∈ ws, (stopWorker m (some k) p x).roster.find? w ≠ none := by
      intro w hmem
      rw [hr, Roster.find?_modify _ _ hf]
      split
      · rename_i hwx
        rw [hwx, he]
        exact Option.some_ne_none _
      · exact hall w (List.mem_cons_of_mem x hmem)
    obtain ⟨hs', ⟨es', ho', hes'⟩, hw'⟩ := ih hd hall'
    refine ⟨hs'.trans hs, ⟨es ++ es', ?_, ?_⟩, fun w e' he' => ?_⟩
    · rw [List.foldl_cons, ho', ho, List.append_assoc]
    · rw [answers_append, hes, hes']
      rfl
    · obtain ⟨e1, he1, hc⟩ := hw' w e' he'
      rw [hr] at he1
      rcases Roster.find?_modify_some he1 hf with ⟨rfl, e0, he0, rfl⟩ | ⟨hne, he0⟩
      · refine ⟨e0, he0, ?_⟩
        rw [hc, hw, List.count_append, List.count_singleton_self, if_neg hx,
          if_pos (List.mem_cons_self ..)]
      · refine ⟨e1, he0, ?_⟩
        rw [hc]
        simp [hne]

/-- what a stop does about its own request -/
theorem stop_owes {p : Pool} (h : Pledged k [] [] past p) :
    (∀ w e', (stop m p k).roster.find? w = some e' → e'.waiters.count k = 1) ∧
      Owes k [.done] past p.roster.ids.length (stop m p k) := by
  have hq : Pledged k [] [] past p.shut := h.shut
  have hleft : p.shut.left [] = 0 := left_eq_zero.mpr fun w hw => (nomatch hw)
  have hnone : p.shut.stops.filter (fun s => s.caller == k) = [] := by
    have hstops := hq.owes.stops
    rwa [hleft, if_pos rfl] at hstops
  have hsilent : answers k (past ++ p.shut.outbox) = [] := by
    have hans := hq.owes.answered
    rwa [hleft, if_pos rfl, List.append_nil] at hans
  have hone : answers k [.reply k .done] = [.done] := List.filterMap_cons_some (if_pos rfl)
  rw [stop_eq]
  show _ ∧ Owes k [.done] past p.shut.roster.ids.length _
  cases hi : p.shut.roster.ids with
  | nil =>
    refine ⟨fun w e' he' => ?_, hnone, ?_⟩
    · have hmem : w ∈ p.shut.roster.ids := Roster.mem_ids (e := e') he'
      rw [hi] at hmem
      cases hmem
    · show answers k (past ++ (p.shut.outbox ++ [.reply k .done])) ++ [] = [.done]
      rw [← List.append_assoc, answers_append, hsilent, hone]
      rfl
  | cons x ws =>
    set q : Pool := { p.shut with stops := p.shut.stops ++ [⟨k, (x :: ws).length⟩] }
    have hall : ∀ w ∈ x :: ws, q.roster.find? w ≠ none := by
      intro w hw hn
      exact Roster.find?_eq_none.mp hn (by rw [← hi] at hw; exact hw)
    have hd : (x :: ws).Nodup := hi ▸ hq.sound.nodup
    obtain ⟨hs, ⟨es, ho, hes⟩, hw⟩ := stopAll_awaits (m := m) (k := k) (x :: ws) hd hall
    refine ⟨fun w e' he' => ?_, ?_, ?_⟩
    · obtain ⟨e, he, hc⟩ := hw w e' he'
      have hmem : w ∈ x :: ws := by
        rw [← hi]
        exact Roster.mem_ids (e := e) he
      rw [hc, hq.waiters w e he, if_pos hmem]
      rfl
    · show List.filter _ (List.foldl _ q _).stops = _
      rw [hs]
      show (p.shut.stops ++ [_]).filter _ = [_]
      rw [List.filter_append, hnone, List.filter_singleton]
      simp
    · show answers k (past ++ (List.foldl _ q _).outbox) ++ [.done] = [.done]
      rw [ho, ← List.append_assoc, answers_append, hes, List.append_nil,
        show answers k (past ++ q.outbox) = [] from hsilent]
      rfl

/-- **a stop is a pledge to wait for everybody who is there** -/
theorem stop_pledged {p : Pool} (h : Pledged k [] [] past p) :
    Pledged k p.roster.ids [.done] past (p.handle m (.call k .stop)) := by
  have hsound : (stop m p k).roster.Sound := handle_sound (m := m) h.sound (.call k .stop)
  have hids : (stop m p k).roster.ids = p.roster.ids := stop_ids p k
  have hleft : (stop m p k).left p.roster.ids = p.roster.ids.length := by
    rw [left, hids]
    exact List.countP_eq_length.mpr fun w hw => decide_eq_true hw
  obtain ⟨hw, howes⟩ := stop_owes (m := m) h
  refine ⟨hsound, fun w e' he' => ?_, fun w hmem => ?_, ?_⟩
  · have hmem : w ∈ p.roster.ids := by
      rw [← hids]
      exact Roster.mem_ids (e := e') he'
    rw [hw w e' he', if_pos hmem]
  · rw [← hids] at hmem
    obtain ⟨e, he, rfl⟩ := List.mem_map.mp hmem
    exact hsound.lt_nextId e he
  · show Owes k _ past ((stop m p k).left p.roster.ids) (stop m p k)
    rw [hleft]
    exact howes

end Pool

end TaskPool
