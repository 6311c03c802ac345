import TaskPool.Proofs.Attempts

/-!
# What lasts

What is true of every new task, and stays true however a task goes on, is true of every accepted
task in every reachable workshop.

* `Lasting`            what stays true of a task however it goes on
* `Reachable.holds`    what lasts and is true of a new task is true throughout
* `Numbered`           an attempt bears the number of workers that were told to run the task
* `Reachable.over`     a task whose outcome was delivered is over, and has this one outcome
* `over_for_good`      nothing brings it back
-/

namespace TaskPool

open Function Relation

/-! ## what lasts -/

namespace Pool

variable {m : Moment} {now : Nat} {bench : WorkerId → Option Bench} {taken : List TaskId}
  {heard : WorkerId → Prop} {id : TaskId} {past : List Effect}
  {P : List WorkerId → List Outcome → Option Task → Prop}

/-- what is said of those that were told to run a task, of its outcomes and of its record, and stays
true however the task goes on -/
def Lasting (id : TaskId) (P : List WorkerId → List Outcome → Option Task → Prop) : Prop :=
  ∀ heard l l' ws os us vs, P ws os (l.find? id) → Course heard id l l' us vs →
    P (ws ++ us) (os ++ vs) (l'.find? id)

/-- `P` is true within a step; `past` is what was asked for before -/
def Holds (id : TaskId) (P : List WorkerId → List Outcome → Option Task → Prop)
    (past : List Effect) (p : Pool) : Prop :=
  P (told id (past ++ p.outbox)) (outcomes id (past ++ p.outbox)) (p.ledger.find? id)

theorem Holds.follows (hP : Lasting id P) {p q : Pool} (h : Holds id P past p)
    (hf : Follows heard id p q) : Holds id P past q := by
  obtain ⟨es, ho, hc⟩ := hf
  unfold Holds
  rw [ho, ← List.append_assoc, told_append, outcomes_append]
  exact hP _ _ _ _ _ _ _ h hc

theorem Holds.moves (hP : Lasting id P) {p q : Pool} (h : Holds id P past p)
    (hst : Staged m now bench taken p) (hm : Moves m p q) : Holds id P past q := by
  induction hm with
  | refl => exact h
  | @tail p1 p2 hpr hr ih =>
    have hf : Follows (fun _ => False) id p1 p2 := by
      rcases hr with hr | rfl
      · exact hr.follows (Moves.staged hst hpr)
      · exact .hire p1
    exact ih.follows hP hf

end Pool

namespace Workshop

section
variable {id : TaskId} {W V : Workshop} {m : Moment} {now : Nat} {msg : Message}
  {P : List WorkerId → List Outcome → Option Task → Prop}

/-- `P` is true between two steps -/
def Holds (id : TaskId) (P : List WorkerId → List Outcome → Option Task → Prop) (W : Workshop) :
    Prop :=
  P (told id W.history) (outcomes id W.history) (W.pool.ledger.find? id)

theorem holds_deliver (hP : Pool.Lasting id P) (hsound : W.pool.roster.Sound)
    (hpool : V.pool = W.pool) (hhistory : V.history = W.history)
    (himpact : ∀ q, Pool.Impact m W.pool msg q → Pool.Holds id P W.history q ∧
      Pool.Staged m now V.bench (accepted W.history ++ accepted (W.pool.receipt msg)) q) :
    Holds id P (V.deliver m now msg) := by
  obtain ⟨p, q, hi, hm, hledger, hhist, _⟩ := deliver_splits m now msg hsound hpool hhistory
  obtain ⟨hp, hst⟩ := himpact p hi
  have hq := hp.moves hP hst hm
  have hreceipt := Pool.omits_receipt id W.pool msg
  unfold Holds
  rw [hhist, hledger, told_append, outcomes_append, told_eq_nil hreceipt,
    outcomes_eq_nil hreceipt, List.append_nil, List.append_nil]
  exact hq

theorem InStep.holds (hin : W.InStep) (h : Holds id P W) : Pool.Holds id P W.history W.pool := by
  unfold Pool.Holds
  rw [show W.pool.outbox = [] from hin.tuned.outbox, List.append_nil]
  exact h

/-- what lasts is kept by every step -/
theorem Holds.step (hP : Pool.Lasting id P) (h : Holds id P W) (hin : W.InStep)
    (hid : id ∈ accepted W.history) (hs : Step W V) : Holds id P V := by
  rcases hin.handles hs id with ⟨hpool, hhist, _⟩ | ⟨heard, V', m, now, msg, rfl, hh⟩
  · unfold Holds
    rw [hpool, hhist]
    exact h
  · refine holds_deliver hP hin.tuned.sound hh.pool hh.history fun q hi => ⟨?_, hh.staged q hi⟩
    exact (hin.holds h).follows hP (hh.follows (fun hx => hh.fresh id hx hid) q hi)

/-- what is true of a task on the terms on which it is accepted is true of it once it is -/
theorem Reachable.holds_accept {c : Config} (hP : Pool.Lasting id P) (h : Reachable c W)
    (hm : W.Admits m) (hd : id ∉ accepted W.history) (hr : W.pool.refusal? = none) (now : Nat)
    (caller : CallId) (kind : Kind) (payload : Json) (options : Options)
    (hnew : P [] [] (some (Task.new id (Pool.terms W.pool.config kind payload options) m.now))) :
    Holds id P (W.deliver m now (.call caller (.submit id kind payload options))) := by
  have hin := h.inStep
  obtain ⟨ht, ho⟩ := h.unheard hd
  refine holds_deliver hP hin.tuned.sound rfl rfl fun q hi => ⟨?_, hin.staged_call now hm hd hi⟩
  cases hi with
  | none _ hu => exact absurd hr hu
  | accept =>
    have hfind {t : Task} (hid : t.id = id) :
        (W.pool.ledger.insert t).find? id = some t := by
      rw [Ledger.find?_insert W.pool.ledger (hin.find?_eq_none (hid ▸ hd)), if_pos hid.symm]
    show P (told id (W.history ++ W.pool.outbox)) (outcomes id (W.history ++ W.pool.outbox))
      ((W.pool.ledger.insert _).find? id)
    rw [show W.pool.outbox = [] from hin.tuned.outbox, List.append_nil, ht, ho, hfind rfl]
    exact hnew

/-- **what lasts and is true of a new task is true of every accepted task** -/
theorem Reachable.holds {c : Config} (hP : Pool.Lasting id P)
    (hnew : ∀ terms now, P [] [] (some (Task.new id terms now))) (h : Reachable c W)
    (hid : id ∈ accepted W.history) : Holds id P W := by
  induction h with
  | new => cases hid
  | @step W V h hs ih =>
    have hin := h.inStep
    by_cases hold : id ∈ accepted W.history
    · exact (ih hold).step hP hin hold hs
    · rcases hin.accepted_step hs with
        heq | ⟨m, now, caller, x, kind, payload, options, hm, hd, hr, rfl, heq⟩
      · rw [heq] at hid
        exact absurd hid hold
      · rw [heq] at hid
        have hx := List.mem_singleton.mp ((List.mem_append.mp hid).resolve_left hold)
        subst hx
        exact h.holds_accept hP hm hd hr now caller kind payload options (hnew _ _)

end

end Workshop

/-! ## the numbers of attempts -/

/-- an attempt bears the number of workers that were told to run the task, as far as it was begun -/
structure Numbered (ws : List WorkerId) (t : Task) : Prop where
  away : t.status = .retrying ∨ t.worker = none → ws.length = t.retries.toNat
  posted : ∀ w, t.status ≠ .retrying → t.worker = some w →
    ws.length = t.retries.toNat + 1 ∧ ws.getLast? = some w
  held : t.status = .running → ∃ w, t.worker = some w
  attempt : t.attempt = if t.status = .running then t.retries + 1 else t.retries

theorem lasting_numbered (id : TaskId) :
    Pool.Lasting id fun ws _ o => ∀ t, o = some t → Numbered ws t := by
  intro heard l l' ws os us vs h hc t' ht'
  cases hc with
  | apart hl =>
    rw [List.append_nil]
    exact h t' (hl ▸ ht')
  | closed _ _ _ hl | exhausted _ _ _ _ _ _ _ _ hl =>
    rw [hl] at ht'
    cases ht'
  | handed t w ht hs hw hl =>
    have hn := h t ht
    cases hl.symm.trans ht'
    refine ⟨fun hno => ?_, fun v _ hv => ?_, fun _ => ⟨w, rfl⟩, hn.attempt⟩
    · rcases hno with hno | hno
      · have hno' : t.status = .retrying := hno
        rw [hs] at hno'
        cases hno'
      · cases hno
    · cases hv
      rw [List.length_append, hn.away (.inr hw), List.getLast?_concat]
      exact ⟨rfl, rfl⟩
  | begun t w now timer ht hs hw hh hl =>
    have hn := h t ht
    cases hl.symm.trans ht'
    have hposted := hn.posted w (by rw [hs]; exact Status.noConfusion) hw
    have hattempt := hn.attempt
    rw [hs, if_neg Status.noConfusion] at hattempt
    rw [List.append_nil]
    refine ⟨fun hno => ?_, fun v _ hv => ?_, fun _ => ⟨w, rfl⟩, ?_⟩
    · rcases hno with hno | hno <;> cases hno
    · cases hv
      exact hposted
    · show t.attempt + 1 = _
      rw [hattempt]
      rfl
  | retried t w cause now timer ht hs hw hr hl =>
    have hn := h t ht
    cases hl.symm.trans ht'
    have hposted := (hn.posted w (by rw [hs]; exact Status.noConfusion) hw).1
    have hone : (t.retries + 1).toNat = t.retries.toNat + 1 := by
      refine toNat_add_one ?_
      have hlt : t.retries.toNat < t.terms.maxRetries.toNat := hr
      have hmax := t.terms.maxRetries.toNat_lt_size
      omega
    have hattempt := hn.attempt
    rw [hs, if_pos rfl] at hattempt
    rw [List.append_nil]
    refine ⟨fun _ => hposted.trans hone.symm, fun _ hno => absurd rfl hno,
      fun hno => (nomatch hno), ?_⟩
    exact hattempt
  | reset t ht hs hl =>
    have hn := h t ht
    cases hl.symm.trans ht'
    have hattempt := hn.attempt
    rw [hs, if_neg Status.noConfusion] at hattempt
    rw [List.append_nil]
    refine ⟨fun _ => hn.away (.inl hs), fun _ _ hno => (nomatch hno), fun hno => (nomatch hno), ?_⟩
    exact hattempt

theorem numbered_new (id : TaskId) (terms : Terms) (now : Timestamp) :
    ∀ t, some (Task.new id terms now) = some t → Numbered [] t := by
  intro t ht
  cases ht
  exact ⟨fun _ => rfl, fun _ _ hno => (nomatch hno), fun hno => (nomatch hno), rfl⟩

/-- the first workers that were told to run a task count differently, as far as numbers go -/
theorem ofNat_ne {j k : Nat} (hj : 0 < j) (hjk : j < k) (hk : k ≤ UInt32.size) :
    UInt32.ofNat j ≠ UInt32.ofNat k := by
  intro h
  have hmod := congrArg UInt32.toNat h
  rw [UInt32.toNat_ofNat', UInt32.toNat_ofNat'] at hmod
  have hsize : UInt32.size = 4294967296 := rfl
  omega

theorem Numbered.attempt_eq {ws : List WorkerId} {t : Task} (h : Numbered ws t)
    (hs : t.status = .running) : t.attempt = UInt32.ofNat ws.length ∧ ws.length ≤ UInt32.size := by
  obtain ⟨w, hw⟩ := h.held hs
  have hlen := (h.posted w (by rw [hs]; exact Status.noConfusion) hw).1
  have hattempt := h.attempt
  rw [hs, if_pos rfl] at hattempt
  have hlt := t.retries.toNat_lt_size
  refine ⟨?_, by omega⟩
  rw [hattempt, hlen]
  refine UInt32.toNat_inj.mp ?_
  rw [UInt32.toNat_add, UInt32.toNat_ofNat']
  rfl

namespace Workshop

section
variable {c : Config} {W V : Workshop}

theorem Reachable.numbered (h : Reachable c W) {id : TaskId} {t : Task}
    (ht : W.pool.ledger.find? id = some t) : Numbered (told id W.history) t := by
  have hid := (h.inStep.tuned.harmony.listed id _ (Ledger.sight_of_find? ht)).1
  exact h.holds (lasting_numbered id) (numbered_new id) hid t ht

/-! ## tasks that are over -/

theorem lasting_over (id : TaskId) (us : List WorkerId) (vs : List Outcome) :
    Pool.Lasting id fun ws os o => ws = us ∧ os = vs ∧ o = none := by
  rintro heard l l' ws os us' vs' ⟨rfl, rfl, hn⟩ hc
  cases hc with
  | apart hl =>
    rw [List.append_nil, List.append_nil]
    exact ⟨rfl, rfl, hl.trans hn⟩
  | closed t _ hs | handed t _ hs | begun t _ _ _ hs | retried t _ _ _ _ hs | exhausted t _ _ hs
  | reset t hs =>
    rw [hn] at hs
    cases hs

/-- no task is accepted twice -/
theorem Reachable.nodup_accepted (h : Reachable c W) : (accepted W.history).Nodup := by
  induction h with
  | new => exact List.nodup_nil
  | step h hs ih =>
    rcases h.inStep.accepted_step hs with heq | ⟨_, _, _, id, _, _, _, _, hd, _, _, heq⟩
    · rw [heq]
      exact ih
    · rw [heq]
      refine List.nodup_append.mpr ⟨ih, by simp, fun a ha b hb hab => ?_⟩
      rw [List.mem_singleton.mp hb] at hab
      exact hd (hab ▸ ha)

theorem Reachable.balanced (h : Reachable c W) : Chronicle.Balanced ⟨W.pool, W.history⟩ := by
  induction h with
  | new => exact Chronicle.balanced_new c
  | step h hs ih =>
    have hnodup := (h.step hs).nodup_accepted
    rcases hs.heard with ⟨hpool, hhist⟩ | ⟨m, msg, _, _, hpool, hhist⟩
    · rw [hpool, hhist]
      exact ih
    · rw [hhist] at hnodup
      rw [hpool, hhist]
      exact ih.heed m msg hnodup

theorem length_outcomes (id : TaskId) (es : List Effect) :
    (outcomes id es).length = deliveries id es := by
  induction es with
  | nil => rfl
  | cons e es ih =>
    rw [← List.singleton_append, outcomes_append, deliveries_append, List.length_append, ih]
    congr 1
    cases e with
    | deliver t o =>
      rw [deliveries_deliver]
      by_cases ht : t = id <;> simp [outcomes, Effect.outcome?, ht]
    | _ => rfl

/-- a task whose outcome was delivered is over, and has this one outcome -/
theorem Reachable.over (h : Reachable c W) {t : TaskId} {o : Outcome}
    (ho : .deliver t o ∈ W.history) :
    W.pool.ledger.find? t = none ∧ outcomes t W.history = [o] ∧ t ∈ accepted W.history := by
  have hmem := mem_outcomes.mpr ho
  have hid : t ∈ accepted W.history := by
    refine Classical.byContradiction fun hno => ?_
    rw [(h.unheard hno).2] at hmem
    cases hmem
  rcases h.balanced.owes_or_settled h.nodup_accepted hid with ⟨_, hzero⟩ | ⟨hout, hone⟩
  · have hlen := List.length_pos_of_mem hmem
    rw [length_outcomes] at hlen
    have hzero' : deliveries t W.history = 0 := hzero
    omega
  · have hone' : (outcomes t W.history).length = 1 := (length_outcomes t W.history).trans hone
    obtain ⟨o', ho'⟩ := List.length_eq_one_iff.mp hone'
    rw [ho', List.mem_singleton] at hmem
    refine ⟨Ledger.find?_eq_none.mpr fun hin => ?_, by rw [ho', hmem], hid⟩
    have hout' : W.pool.ledger.contains t = false := hout
    rw [Ledger.contains_iff.mpr hin] at hout'
    cases hout'

/-- nothing brings a task back that is over -/
theorem Reachable.over_for_good (h : Reachable c W) {t : TaskId} {o : Outcome}
    (ho : .deliver t o ∈ W.history) (hV : ReflTransGen Step W V) :
    V.pool.ledger.find? t = none ∧ t ∉ V.pool.queue.tasks ∧
      told t V.history = told t W.history ∧ outcomes t V.history = [o] := by
  obtain ⟨hnone, hone, hid⟩ := h.over ho
  have hall : Reachable c V ∧ t ∈ accepted V.history ∧
      Holds t (fun ws os x => ws = told t W.history ∧ os = [o] ∧ x = none) V := by
    induction hV with
    | refl => exact ⟨h, hid, rfl, hone, hnone⟩
    | tail _ hs ih =>
      obtain ⟨hr, hacc, hP⟩ := ih
      exact ⟨hr.step hs, hr.inStep.accepted_subset hs hacc,
        hP.step (lasting_over t _ _) hr.inStep hacc hs⟩
  obtain ⟨hr, _, htold, hout, hfind⟩ := hall
  refine ⟨hfind, fun hx => ?_, htold, hout⟩
  have hwaits : V.pool.ledger.sight t = _ := (hr.inStep.tuned.harmony.waits t).mp hx
  rw [Ledger.sight_eq_none.mpr hfind] at hwaits
  cases hwaits

end

end Workshop

end TaskPool
