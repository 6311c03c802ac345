import TaskPool.Proofs.Split

/-!
# New workers and ticks

* `hired`            the workers that effects start
* `Modest p q`       beyond `p`, `q` starts nobody, and asks for ticks only if it scales itself
* `Move.modest`, `Impact.modest`   a move is modest, and so is an impact
* `Numbers p q`      beyond `p`, `q` starts the workers with the next numbers, in order
* `handle_numbers`   so the workers that a message starts have the next numbers
* `handle_unticked`  and a pool that does not scale itself never asks for ticks
-/

namespace TaskPool

open Relation

def Effect.hires? : Effect → Option WorkerId
  | .hire w => some w
  | _ => none

/-- the workers that are started -/
def hired (es : List Effect) : List WorkerId := es.filterMap Effect.hires?

theorem hired_append (es fs : List Effect) : hired (es ++ fs) = hired es ++ hired fs :=
  List.filterMap_append

theorem hired_eq_nil {es : List Effect} (h : ∀ e ∈ es, e.hires? = none) : hired es = [] :=
  List.filterMap_eq_nil_iff.mpr h

/-- it starts nobody, and asks for no ticks unless `scaling` -/
def Effect.Modest (scaling : Bool) : Effect → Prop
  | .hire _ => False
  | .armEvery _ _ _ => scaling = true
  | _ => True

theorem Effect.Modest.hires? {scaling : Bool} {e : Effect} (h : e.Modest scaling) :
    e.hires? = none := by
  cases e with
  | hire => cases h
  | _ => rfl

namespace Pool

variable {m : Moment}

/-! ## moves start nobody -/

structure Modest (p q : Pool) : Prop where
  config : q.config = p.config
  next : q.roster.nextId = p.roster.nextId
  emits : ∃ es, q.outbox = p.outbox ++ es ∧ ∀ e ∈ es, e.Modest p.config.autoscaling

namespace Modest

theorem trans {p q r : Pool} (h1 : Modest p q) (h2 : Modest q r) : Modest p r := by
  obtain ⟨es, ho, he⟩ := h1.emits
  obtain ⟨fs, ho', he'⟩ := h2.emits
  refine ⟨h2.config.trans h1.config, h2.next.trans h1.next, es ++ fs, ?_, fun e hm => ?_⟩
  · rw [ho', ho, List.append_assoc]
  · rcases List.mem_append.mp hm with hm | hm
    · exact he e hm
    · rw [← h1.config]
      exact he' e hm

theorem silent {p q : Pool} (hc : q.config = p.config) (ho : q.outbox = p.outbox)
    (hn : q.roster.nextId = p.roster.nextId) : Modest p q :=
  ⟨hc, hn, [], ho.trans (List.append_nil _).symm, fun _ h => by cases h⟩

theorem refl (p : Pool) : Modest p p := .silent rfl rfl rfl

theorem one {p q : Pool} {e : Effect} (hc : q.config = p.config) (ho : q.outbox = p.outbox ++ [e])
    (he : e.Modest p.config.autoscaling) (hn : q.roster.nextId = p.roster.nextId) :
    Modest p q := by
  refine ⟨hc, hn, [e], ho, fun x hx => ?_⟩
  rw [List.mem_singleton.mp hx]
  exact he

theorem consequences {p q : Pool} (cs : List Consequence) (hc : q.config = p.config)
    (ho : q.outbox = p.outbox ++ cs.map Consequence.effect)
    (hn : q.roster.nextId = p.roster.nextId) : Modest p q := by
  refine ⟨hc, hn, _, ho, fun e he => ?_⟩
  obtain ⟨c, _, rfl⟩ := List.mem_map.mp he
  cases c <;> trivial

theorem replies {rs : List Effect} (hr : ∀ x ∈ rs, ∃ c, x = Effect.reply c .done)
    (scaling : Bool) : ∀ x ∈ rs, x.Modest scaling := by
  intro x hx
  obtain ⟨c, rfl⟩ := hr x hx
  trivial

theorem dispose (p : Pool) (e : Entry) : Modest p (p.dispose e) := by
  obtain ⟨stops, rs, hd, hr⟩ := dispose_eq p e
  rw [hd]
  refine ⟨rfl, rfl, _, rfl, fun x hx => ?_⟩
  rcases List.mem_append.mp hx with hx | hx
  · rcases List.mem_append.mp hx with hx | hx
    · obtain ⟨timer, _, rfl⟩ := List.mem_map.mp hx
      trivial
    · rw [List.mem_singleton.mp hx]
      trivial
  · exact replies hr _ x hx

theorem removed (p : Pool) (w : WorkerId) (e : Entry) :
    Modest p ((p.dropEntry w).dispose e) := by
  have h : Modest p (p.dropEntry w) := .silent rfl rfl rfl
  exact h.trans (.dispose (p.dropEntry w) e)

theorem note (p : Pool) (w : WorkerId) (f : Entry → Entry) : Modest p (p.updateEntry w f) :=
  .silent rfl rfl rfl

theorem retire {p : Pool} {w : WorkerId} {e : Entry} (waiter : Option CallId)
    (he : p.roster.find? w = some e) (hs : e.status ≠ .stopping) :
    Modest p (stopWorker m waiter p w) := by
  rw [stopWorker_of_live waiter he hs]
  refine ⟨rfl, rfl, retirement m p w, rfl, fun x hx => ?_⟩
  rcases List.mem_append.mp hx with hx | hx <;> split at hx <;> simp at hx <;> rw [hx] <;> trivial

theorem shut (p : Pool) : Modest p p.shut := by
  have h : Modest p (disarmTicks { p with running := false }) := by
    refine ⟨rfl, rfl, p.autoscaleTimer.toList.map .disarm, rfl, fun x hx => ?_⟩
    obtain ⟨timer, _, rfl⟩ := List.mem_map.mp hx
    trivial
  exact h.trans (.consequences (p.ledger.drain .shutdown).2 rfl rfl rfl)

theorem failTask (p : Pool) (id : TaskId) (cause : FailureCause) :
    Modest p (failTask m p id cause) := by
  have h := failTask_cases (m := m) p id cause
  generalize Pool.failTask m p id cause = q at h
  cases h with
  | skipped => exact .refl p
  | exhausted => exact .consequences _ rfl rfl rfl
  | stranded => exact .consequences _ rfl rfl rfl
  | retried t =>
    refine ⟨rfl, rfl, _, rfl, fun x hx => ?_⟩
    rcases List.mem_append.mp hx with hx | hx
    · obtain ⟨c, _, rfl⟩ := List.mem_map.mp hx
      cases c <;> trivial
    · rw [List.mem_singleton.mp hx]
      trivial

theorem startAttempt (p : Pool) (id : TaskId) (w : WorkerId) :
    Modest p (startAttempt m p id w) := by
  have h := startAttempt_cases (m := m) p id w
  generalize Pool.startAttempt m p id w = q at h
  cases h with
  | skipped => exact .refl p
  | untimed => exact .silent rfl rfl rfl
  | timed t =>
    refine ⟨rfl, rfl, _, rfl, fun x hx => ?_⟩
    rcases List.mem_cons.mp hx with rfl | hx
    · trivial
    · obtain ⟨c, _, rfl⟩ := List.mem_map.mp hx
      cases c <;> trivial

end Modest

theorem Move.modest {p q : Pool} (h : Move m p q) : Modest p q := by
  cases h with
  | reply | ask | dispatch | unknown | bounce => exact .one rfl rfl trivial rfl
  | wake caller =>
    obtain ⟨stops, rs, hw, hr⟩ := wake_eq p caller
    rw [hw]
    exact ⟨rfl, rfl, rs, rfl, Modest.replies hr _⟩
  | promise | note | «open» => exact .silent rfl rfl rfl
  | ticks ha =>
    unfold armTicks
    split
    · exact .one rfl rfl ha rfl
    · exact .silent rfl rfl rfl
  | retire waiter w e he hs => exact .retire waiter he hs
  | remove w e => exact .removed p w e
  | cancel id =>
    unfold Pool.cancel Ledger.cancel
    cases p.ledger.find? id with
    | none => exact .silent rfl (List.append_nil _) rfl
    | some t =>
      by_cases hs : t.status.isTerminal = true
      · simp only [if_pos hs]
        exact .silent rfl (List.append_nil _) rfl
      · simp only [if_neg hs]
        exact .consequences _ rfl rfl rfl
  | expire => exact .consequences _ rfl rfl rfl
  | shut => exact .shut p

theorem Impact.modest {p q : Pool} {msg : Message} (h : Impact m p msg q) : Modest p q := by
  cases h with
  | none | accept | ready | idle | retry => exact .silent rfl rfl rfl
  | busy w t => exact (Modest.note p w _).trans (.startAttempt _ t w)
  | busyLate w t => exact .startAttempt p t w
  | result => exact .consequences _ rfl rfl rfl
  | error w t => exact (Modest.note p w _).trans (.failTask _ t _)
  | crash w event detail e => exact .removed p w e
  | crashBusy w event detail e t => exact (Modest.removed p w e).trans (.failTask _ t _)

/-! ## the numbers of new workers -/

/-- the workers that `q` starts beyond `p` have the next numbers, one after the other -/
def Numbers (p q : Pool) : Prop :=
  ∃ n, q.roster.nextId = p.roster.nextId + n ∧
    hired q.outbox = hired p.outbox ++ List.range' p.roster.nextId n

theorem Numbers.trans {p q r : Pool} (h1 : Numbers p q) (h2 : Numbers q r) : Numbers p r := by
  obtain ⟨n, hn, ho⟩ := h1
  obtain ⟨k, hk, ho'⟩ := h2
  refine ⟨n + k, ?_, ?_⟩
  · rw [hk, hn, Nat.add_assoc]
  · rw [ho', ho, hn, List.append_assoc, List.range'_append_1]

/-- nobody is started -/
theorem Modest.hired {p q : Pool} (h : Modest p q) : hired q.outbox = hired p.outbox := by
  obtain ⟨es, ho, he⟩ := h.emits
  rw [ho, hired_append, hired_eq_nil fun e hm => (he e hm).hires?, List.append_nil]

theorem Modest.numbers {p q : Pool} (h : Modest p q) : Numbers p q :=
  ⟨0, h.next, h.hired.trans (List.append_nil _).symm⟩

theorem hired_hire (ha : m.attached = true) (p : Pool) :
    hired (p.hire m).outbox = hired p.outbox ++ [p.roster.nextId] := by
  rw [hire_of_attached ha]
  show hired (p.outbox ++ [.hire p.roster.nextId]) = _
  rw [hired_append]
  rfl

theorem Numbers.hire (p : Pool) : Numbers p (p.hire m) := by
  by_cases ha : m.attached = true
  · refine ⟨1, ?_, hired_hire ha p⟩
    rw [hire_of_attached ha]
    rfl
  · rw [hire_of_detached (by simpa using ha)]
    exact (Modest.refl p).numbers

theorem Moves.numbers {p q : Pool} (h : Moves m p q) : Numbers p q := by
  induction h with
  | refl => exact (Modest.refl p).numbers
  | tail _ h ih =>
    rcases h with h | rfl
    · exact ih.trans h.modest.numbers
    · exact ih.trans (.hire _)

theorem Modest.receipt (p q : Pool) (msg : Message) :
    Modest q { q with outbox := q.outbox ++ p.receipt msg } := by
  refine ⟨rfl, rfl, p.receipt msg, rfl, fun e he => ?_⟩
  obtain ⟨caller, id, rfl⟩ := mem_receipt he
  trivial

/-- **workers are numbered in the order in which they are started**, and no number is left out -/
theorem handle_numbers {p : Pool} (hs : p.roster.Sound) (msg : Message) :
    Numbers p (p.handle m msg) := by
  obtain ⟨p1, p2, hi, hm, _, h⟩ := handle_splits (m := m) hs msg
  rw [h]
  exact (hi.modest.numbers.trans hm.numbers).trans (Modest.receipt p p2 msg).numbers

/-! ## ticks -/

/-- `q` has asked for no ticks that `p` has not asked for, unless it scales itself -/
structure Unticked (p q : Pool) : Prop where
  config : q.config = p.config
  ticks : ∀ timer period alarm, .armEvery timer period alarm ∈ q.outbox →
    .armEvery timer period alarm ∈ p.outbox ∨ p.config.autoscaling = true

theorem Unticked.trans {p q r : Pool} (h1 : Unticked p q) (h2 : Unticked q r) : Unticked p r := by
  refine ⟨h2.config.trans h1.config, fun timer period alarm hr => ?_⟩
  rcases h2.ticks timer period alarm hr with hq | ha
  · exact h1.ticks timer period alarm hq
  · rw [h1.config] at ha
    exact .inr ha

theorem Modest.unticked {p q : Pool} (h : Modest p q) : Unticked p q := by
  refine ⟨h.config, fun timer period alarm hq => ?_⟩
  obtain ⟨es, ho, he⟩ := h.emits
  rw [ho] at hq
  rcases List.mem_append.mp hq with hq | hq
  · exact .inl hq
  · exact .inr (he _ hq)

theorem Unticked.hire (p : Pool) : Unticked p (p.hire m) := by
  by_cases ha : m.attached = true
  · rw [hire_of_attached ha]
    refine ⟨rfl, fun timer period alarm hq => ?_⟩
    rcases List.mem_append.mp hq with hq | hq
    · exact .inl hq
    · cases List.mem_singleton.mp hq
  · rw [hire_of_detached (by simpa using ha)]
    exact (Modest.refl p).unticked

theorem Moves.unticked {p q : Pool} (h : Moves m p q) : Unticked p q := by
  induction h with
  | refl => exact (Modest.refl p).unticked
  | tail _ h ih =>
    rcases h with h | rfl
    · exact ih.trans h.modest.unticked
    · exact ih.trans (.hire _)

/-- **ticks are asked for only by a pool that scales itself** -/
theorem handle_unticked {p : Pool} (hs : p.roster.Sound) (msg : Message) :
    Unticked p (p.handle m msg) := by
  obtain ⟨p1, p2, hi, hm, _, h⟩ := handle_splits (m := m) hs msg
  rw [h]
  exact (hi.modest.unticked.trans hm.unticked).trans (Modest.receipt p p2 msg).unticked

end Pool

end TaskPool
