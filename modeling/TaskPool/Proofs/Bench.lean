import TaskPool.Worker.Basic

/-!
# A worker behind its two channels

A `Bench` is a worker with its watcher, the commands on their way to it (`Worker.inbox`) and the
reports on their way from it (`outgoing`), each in the order in which they were sent.

* `Bench.Turn`     what a bench can do by itself
* `Bench.Shift`    the same for a bench that still serves the pool, as far as the pool can tell:
                   requests for metrics and their answers leave no trace in it
* `Bench.orders`, `Bench.news`   the commands and reports other than those about metrics
* `Fresh`, `Resting`, `Pending`, `Acked`, `Spent`   the stations of a serving bench, from its start
                   through a task and back to rest
* `Turn.names`     a turn brings up no task that was not there before

Why metrics can be left out: they are answered at once in every phase, so they neither delay a
command nor come between two reports that matter.
-/

namespace TaskPool

structure Bench where
  worker : Worker
  /-- reports that the pool has not handled yet -/
  outgoing : List Event
  /-- the worker is to be aborted -/
  doomed : Bool
  /-- the watcher has reported the end -/
  reported : Bool

def Command.isOrder : Command → Bool
  | .reportMetrics => false
  | _ => true

def Command.task? : Command → Option TaskId
  | .task id _ _ => some id
  | _ => none

def Event.isNews : Event → Bool
  | .metrics _ => false
  | _ => true

/-- the task that a report is about -/
def Event.task? : Event → Option TaskId
  | .busy task | .result task _ | .error task _ => some task
  | _ => none

def Phase.task? : Phase → Option TaskId
  | .running task => some task
  | _ => none

/-! ## a step of a worker by itself -/

inductive Worker.Stride (w : Worker) (now memory : Nat) : Worker × List Event → Prop where
  | ready (h : w.phase = .unstarted) : Stride w now memory ({ w with phase := .waiting }, [.ready])
  | obey (c : Command) (v : Worker) (h : w.phase = .waiting)
      (hc : w.deferred ++ w.inbox = c :: (v.deferred ++ v.inbox)) (hp : v.phase = .waiting)
      (ha : v.attached = w.attached) : Stride w now memory (v.obey now memory c)
  | close (h : w.phase = .waiting) (ha : w.attached = false) :
      Stride w now memory (w.endWith .stopped, [])
  | overhear (t : TaskId) (c : Command) (rest : List Command) (h : w.phase = .running t)
      (hi : w.inbox = c :: rest) :
      Stride w now memory ({ w with inbox := rest }.overhear now memory c)

theorem Worker.step_cases {w : Worker} {now memory : Nat} {r : Worker × List Event}
    (h : w.step now memory = some r) : w.Stride now memory r := by
  unfold step at h
  split at h
  · rename_i hp
    cases h
    exact .ready hp
  · rename_i hp
    split at h
    · rename_i c rest hd
      cases h
      refine .obey c { w with deferred := rest } hp ?_ hp rfl
      rw [hd]
      rfl
    · rename_i c rest hd hi
      cases h
      refine .obey c { w with inbox := rest } hp ?_ hp rfl
      show _ = c :: (w.deferred ++ rest)
      rw [hd, hi]
      rfl
    · split at h
      · cases h
      · rename_i ha
        cases h
        exact .close hp (by simpa using ha)
  · rename_i t hp
    split at h
    · rename_i c rest hi
      cases h
      exact .overhear t c rest hp hi
    · cases h
  · cases h

theorem Worker.attached_obey (w : Worker) (now memory : Nat) (c : Command) :
    (w.obey now memory c).1.attached = w.attached := by
  cases c <;> rfl

theorem Worker.attached_overhear (w : Worker) (now memory : Nat) (c : Command) :
    (w.overhear now memory c).1.attached = w.attached := by
  cases c <;> rfl

/-- the end of a handler; a worker that runs none is left alone -/
inductive Worker.Close (w : Worker) : Worker × List Event → Prop where
  | skipped : Close w (w, [])
  | value (t : TaskId) (v : Json) (w' : Worker) (h : w.phase = .running t)
      (hp : w'.phase = .waiting) (hd : w'.deferred = w.deferred) (hi : w'.inbox = w.inbox)
      (ha : w'.attached = w.attached) : Close w (w', [.result t v, .idle])
  | error (t : TaskId) (detail : String) (w' : Worker) (h : w.phase = .running t)
      (hp : w'.phase = .waiting) (hd : w'.deferred = w.deferred) (hi : w'.inbox = w.inbox)
      (ha : w'.attached = w.attached) : Close w (w', [.error t detail, .idle])
  | panic (t : TaskId) (detail : String) (h : w.phase = .running t) :
      Close w (w.endWith (.panicked detail), [])

theorem Worker.finish_cases (w : Worker) (now : Nat) (how : Ended) :
    w.Close (w.finish now how) := by
  unfold finish
  split
  · rename_i t hp
    cases how with
    | value v => exact .value t v _ hp rfl rfl rfl rfl
    | error causes => exact .error t _ _ hp rfl rfl rfl rfl
    | panic detail => exact .panic t _ hp
  · exact .skipped

namespace Bench

/-! ## what a bench can do -/

def new (id : WorkerId) (now : Nat) : Bench := ⟨.new id now, [], false, false⟩

/-- the command arrives unless the worker has ended or was let go -/
def tell (b : Bench) (c : Command) : Bench :=
  if b.worker.isReachable then { b with worker := b.worker.send c } else b

/-- the pool has no entry for the worker any more -/
def dismiss (b : Bench) : Bench :=
  { b with
    worker := b.worker.detach
    doomed := true }

inductive Turn (b : Bench) : Bench → Prop where
  | step (now memory : Nat) (r : Worker × List Event) (h : b.worker.step now memory = some r) :
      Turn b
        { b with
          worker := r.1
          outgoing := b.outgoing ++ r.2 }
  | finish (now : Nat) (how : Ended) :
      Turn b
        { b with
          worker := (b.worker.finish now how).1
          outgoing := b.outgoing ++ (b.worker.finish now how).2 }
  | abort (h : b.doomed = true) : Turn b { b with worker := b.worker.abort }
  | watch (how : Ending) (h : b.worker.phase = .ended how) (hr : b.reported = false) :
      Turn b
        { b with
          reported := true
          outgoing := b.outgoing ++ how.events }

/-! ## what the pool can tell of it -/

def commands (b : Bench) : List Command := b.worker.deferred ++ b.worker.inbox

def orders (b : Bench) : List Command := b.commands.filter Command.isOrder

def news (b : Bench) : List Event := b.outgoing.filter Event.isNews

/-- the task is running on the bench, or a command or a report on its way is about it -/
def Names (b : Bench) (t : TaskId) : Prop :=
  b.worker.phase.task? = some t ∨ (∃ c ∈ b.commands, c.task? = some t) ∨
    ∃ e ∈ b.outgoing, e.task? = some t

/-- the pool still has an entry for the worker -/
structure Serves (b : Bench) : Prop where
  safe : b.doomed = false
  attached : b.worker.attached = true
  unreported : b.reported = true → b.worker.hasEnded = true

/-! ## stations -/

/-- started, and not yet known to be ready -/
def Fresh (b : Bench) : Prop :=
  b.orders = [] ∧
    ((b.worker.phase = .unstarted ∧ b.news = []) ∨ (b.worker.phase = .waiting ∧ b.news = [.ready]))

/-- ready for a task -/
structure Resting (b : Bench) : Prop where
  phase : b.worker.phase = .waiting
  orders : b.orders = []
  news : b.news = []

/-- the task was sent and not yet taken -/
structure Handed (b : Bench) (t : TaskId) : Prop where
  phase : b.worker.phase = .waiting
  orders : ∃ kind payload, b.orders = [.task t kind payload]
  news : b.news = []

/-- how an attempt that was begun goes on, with the reports that are left of it -/
inductive Rest (t : TaskId) : Phase → Bool → List Event → Prop where
  | running (reported : Bool) : Rest t (.running t) reported []
  | value (v : Json) (reported : Bool) : Rest t .waiting reported [.result t v, .idle]
  | error (detail : String) (reported : Bool) : Rest t .waiting reported [.error t detail, .idle]
  | dying (detail : String) : Rest t (.ended (.panicked detail)) false []
  | dead (detail : String) :
      Rest t (.ended (.panicked detail)) true [.fatal detail, .exited false]

/-- the attempt was begun and the pool knows -/
structure Acked (b : Bench) (t : TaskId) : Prop where
  orders : b.orders = []
  rest : Rest t b.worker.phase b.reported b.news

/-- the attempt was begun and the pool does not know yet -/
structure Unacked (b : Bench) (t : TaskId) : Prop where
  orders : b.orders = []
  rest : ∃ es, b.news = .busy t :: es ∧ Rest t b.worker.phase b.reported es

def Pending (b : Bench) (t : TaskId) : Prop := b.Handed t ∨ b.Unacked t

/-- the outcome is told and the worker is about to be idle -/
structure Spent (b : Bench) : Prop where
  phase : b.worker.phase = .waiting
  orders : b.orders = []
  news : b.news = [.idle]

/-! ## a turn, as the pool can tell -/

/-- a turn of a bench that serves -/
inductive Shift (b b' : Bench) : Prop where
  | same (hp : b'.worker.phase = b.worker.phase) (hr : b'.reported = b.reported)
      (ho : b'.orders = b.orders) (hn : b'.news = b.news)
  | ready (h : b.worker.phase = .unstarted) (hp : b'.worker.phase = .waiting)
      (hr : b'.reported = b.reported) (ho : b'.orders = b.orders)
      (hn : b'.news = b.news ++ [.ready])
  | take (t : TaskId) (kind : Kind) (payload : Json) (h : b.worker.phase = .waiting)
      (hc : b.orders = .task t kind payload :: b'.orders) (hp : b'.worker.phase = .running t)
      (hr : b'.reported = b.reported) (hn : b'.news = b.news ++ [.busy t])
  | leave (h : b.worker.phase = .waiting) (hc : ∃ rest, b.orders = .terminate :: rest)
  | value (t : TaskId) (v : Json) (h : b.worker.phase = .running t)
      (hp : b'.worker.phase = .waiting) (hr : b'.reported = b.reported) (ho : b'.orders = b.orders)
      (hn : b'.news = b.news ++ [.result t v, .idle])
  | error (t : TaskId) (detail : String) (h : b.worker.phase = .running t)
      (hp : b'.worker.phase = .waiting) (hr : b'.reported = b.reported) (ho : b'.orders = b.orders)
      (hn : b'.news = b.news ++ [.error t detail, .idle])
  | panic (t : TaskId) (detail : String) (h : b.worker.phase = .running t)
      (hp : b'.worker.phase = .ended (.panicked detail)) (hr : b'.reported = b.reported)
      (ho : b'.orders = []) (hn : b'.news = b.news)
  | watch (how : Ending) (h : b.worker.phase = .ended how) (h0 : b.reported = false)
      (hp : b'.worker.phase = b.worker.phase) (hr : b'.reported = true) (ho : b'.orders = b.orders)
      (hn : b'.news = b.news ++ how.events)

/-! ## one turn at a time -/

theorem news_append (b : Bench) (w : Worker) (es : List Event) (doomed reported : Bool) :
    news ⟨w, b.outgoing ++ es, doomed, reported⟩ = b.news ++ es.filter Event.isNews :=
  List.filter_append ..

theorem Serves.unreported_of {b : Bench} (hs : b.Serves) (h : b.worker.hasEnded = false) :
    b.reported = false := by
  cases hr : b.reported with
  | false => rfl
  | true =>
    rw [hs.unreported hr] at h
    cases h

/-- a worker that has not ended goes on serving -/
theorem Serves.go_on {b : Bench} (hs : b.Serves) (h : b.worker.hasEnded = false) {w : Worker}
    {es : List Event} (ha : w.attached = b.worker.attached) :
    Serves ⟨w, es, b.doomed, b.reported⟩ := by
  refine ⟨hs.safe, ha.trans hs.attached, fun hr => ?_⟩
  have hun : b.reported = true := hr
  rw [hs.unreported_of h] at hun
  cases hun

/-- the first command of a waiting worker -/
theorem shift_obey {b : Bench} (hp : b.worker.phase = .waiting) {c : Command} {w : Worker}
    (hc : b.commands = c :: (w.deferred ++ w.inbox)) (hw : w.phase = .waiting) (now memory : Nat) :
    Shift b ⟨(w.obey now memory c).1, b.outgoing ++ (w.obey now memory c).2, b.doomed,
      b.reported⟩ := by
  have ho : b.orders = (c :: (w.deferred ++ w.inbox)).filter Command.isOrder := by
    rw [orders, hc]
  cases c with
  | task id kind payload => exact .take id kind payload hp ho rfl rfl (news_append b _ _ _ _)
  | terminate => exact .leave hp ⟨(w.deferred ++ w.inbox).filter Command.isOrder, ho⟩
  | reportMetrics =>
    refine .same (hw.trans hp.symm) rfl ho.symm ?_
    exact (news_append b _ _ _ _).trans (List.append_nil _)

/-- a command that comes while a handler runs is answered or put off -/
theorem shift_overhear {b : Bench} {c : Command} {rest : List Command}
    (hi : b.worker.inbox = c :: rest) (now memory : Nat) :
    Shift b ⟨({ b.worker with inbox := rest }.overhear now memory c).1,
      b.outgoing ++ ({ b.worker with inbox := rest }.overhear now memory c).2, b.doomed,
      b.reported⟩ := by
  have ho : b.orders = (b.worker.deferred ++ c :: rest).filter Command.isOrder := by
    rw [orders, commands, hi]
  have hlater (h : c ≠ .reportMetrics) : Shift b ⟨{ b.worker with
      inbox := rest
      deferred := b.worker.deferred ++ [c] }, b.outgoing ++ [], b.doomed, b.reported⟩ := by
    refine .same rfl rfl ?_ ((news_append b _ _ _ _).trans (List.append_nil _))
    show ((b.worker.deferred ++ [c]) ++ rest).filter _ = _
    rw [ho, List.append_assoc]
    rfl
  cases c with
  | task => exact hlater Command.noConfusion
  | terminate => exact hlater Command.noConfusion
  | reportMetrics =>
    refine .same rfl rfl ?_ ((news_append b _ _ _ _).trans (List.append_nil _))
    rw [ho, List.filter_append]
    exact List.filter_append ..

/-- **a turn of a bench that serves is a shift, and the bench still serves** -/
theorem Turn.shift {b b' : Bench} (h : Turn b b') (hs : b.Serves) : Shift b b' ∧ b'.Serves := by
  cases h with
  | step now memory r h =>
    have hgo : b.worker.hasEnded = false := by
      cases hp : b.worker.phase with
      | ended how =>
        rw [Worker.step_of_ended hp] at h
        cases h
      | _ => rw [Worker.hasEnded, hp]
    cases Worker.step_cases h with
    | ready hp => exact ⟨.ready hp rfl rfl rfl (news_append b _ _ _ _), hs.go_on hgo rfl⟩
    | obey c v hp hc hv ha =>
      exact ⟨shift_obey hp hc hv now memory,
        hs.go_on hgo ((v.attached_obey now memory c).trans ha)⟩
    | close hp ha =>
      rw [hs.attached] at ha
      cases ha
    | overhear t c rest hp hi =>
      exact ⟨shift_overhear hi now memory, hs.go_on hgo (Worker.attached_overhear _ now memory c)⟩
  | finish now how =>
    have hclose := b.worker.finish_cases now how
    generalize b.worker.finish now how = r at hclose
    have horders {w : Worker} (hd : w.deferred = b.worker.deferred)
        (hi : w.inbox = b.worker.inbox) (es : List Event) :
        orders ⟨w, es, b.doomed, b.reported⟩ = b.orders := by
      show (w.deferred ++ w.inbox).filter _ = (b.worker.deferred ++ b.worker.inbox).filter _
      rw [hd, hi]
    cases hclose with
    | skipped =>
      refine ⟨.same rfl rfl rfl ((news_append b _ _ _ _).trans (List.append_nil _)), ?_⟩
      exact ⟨hs.safe, hs.attached, hs.unreported⟩
    | value t v w hp hw hd hi ha =>
      have hgo : b.worker.hasEnded = false := by rw [Worker.hasEnded, hp]
      exact ⟨.value t v hp hw rfl (horders hd hi _) (news_append b _ _ _ _), hs.go_on hgo ha⟩
    | error t detail w hp hw hd hi ha =>
      have hgo : b.worker.hasEnded = false := by rw [Worker.hasEnded, hp]
      exact ⟨.error t detail hp hw rfl (horders hd hi _) (news_append b _ _ _ _), hs.go_on hgo ha⟩
    | panic t detail hp =>
      have hgo : b.worker.hasEnded = false := by rw [Worker.hasEnded, hp]
      refine ⟨.panic t detail hp rfl rfl rfl ?_, hs.go_on hgo rfl⟩
      exact (news_append b _ _ _ _).trans (List.append_nil _)
  | abort h =>
    rw [hs.safe] at h
    cases h
  | watch how h hr =>
    refine ⟨.watch how h hr rfl rfl rfl ?_, hs.safe, hs.attached, fun _ => ?_⟩
    · have hnews : how.events.filter Event.isNews = how.events := by cases how <;> rfl
      exact (news_append b _ _ _ _).trans (by rw [hnews])
    · show b.worker.hasEnded = true
      rw [Worker.hasEnded, h]

/-! ## from station to station -/

theorem Fresh.shift {b b' : Bench} (h : b.Fresh) (hs : Shift b b') : b'.Fresh := by
  obtain ⟨ho, ⟨hp, hn⟩ | ⟨hp, hn⟩⟩ := h
  · cases hs with
    | same hp' hr' ho' hn' => exact ⟨ho'.trans ho, .inl ⟨hp'.trans hp, hn'.trans hn⟩⟩
    | ready _ hp' hr' ho' hn' =>
      rw [hn, List.nil_append] at hn'
      exact ⟨ho'.trans ho, .inr ⟨hp', hn'⟩⟩
    | take _ _ _ h | leave h | value _ _ h | error _ _ h | panic _ _ h | watch _ h =>
      rw [hp] at h
      cases h
  · cases hs with
    | same hp' hr' ho' hn' => exact ⟨ho'.trans ho, .inr ⟨hp'.trans hp, hn'.trans hn⟩⟩
    | take t kind payload _ hc =>
      rw [ho] at hc
      cases hc
    | leave _ hc =>
      obtain ⟨rest, hc⟩ := hc
      rw [ho] at hc
      cases hc
    | ready h | value _ _ h | error _ _ h | panic _ _ h | watch _ h =>
      rw [hp] at h
      cases h

/-- a bench that waits with no order does nothing that the pool can tell -/
theorem Shift.same_of_waiting {b b' : Bench} (hs : Shift b b') (hp : b.worker.phase = .waiting)
    (ho : b.orders = []) :
    b'.worker.phase = .waiting ∧ b'.orders = [] ∧ b'.news = b.news ∧ b'.reported = b.reported := by
  cases hs with
  | same hp' hr' ho' hn' => exact ⟨hp'.trans hp, ho'.trans ho, hn', hr'⟩
  | take t kind payload _ hc =>
    rw [ho] at hc
    cases hc
  | leave _ hc =>
    obtain ⟨rest, hc⟩ := hc
    rw [ho] at hc
    cases hc
  | ready h | value _ _ h | error _ _ h | panic _ _ h | watch _ h =>
    rw [hp] at h
    cases h

theorem Resting.shift {b b' : Bench} (h : b.Resting) (hs : Shift b b') : b'.Resting := by
  obtain ⟨hp, ho, hn, _⟩ := hs.same_of_waiting h.phase h.orders
  exact ⟨hp, ho, hn.trans h.news⟩

theorem Spent.shift {b b' : Bench} (h : b.Spent) (hs : Shift b b') : b'.Spent := by
  obtain ⟨hp, ho, hn, _⟩ := hs.same_of_waiting h.phase h.orders
  exact ⟨hp, ho, hn.trans h.news⟩

/-- the reports that are left of an attempt come after those already sent -/
theorem Rest.shift {b b' : Bench} {t : TaskId} (before : List Event) {es : List Event}
    (hb : b.Serves)
    (ho : b.orders = []) (hn : b.news = before ++ es) (h : Rest t b.worker.phase b.reported es)
    (hs : Shift b b') : b'.orders = [] ∧ ∃ es', b'.news = before ++ es' ∧
      Rest t b'.worker.phase b'.reported es' := by
  cases hs with
  | same hp' hr' ho' hn' =>
    refine ⟨ho'.trans ho, es, hn'.trans hn, ?_⟩
    rw [hp', hr']
    exact h
  | ready hp =>
    rw [hp] at h
    cases h
  | take t' kind payload _ hc =>
    rw [ho] at hc
    cases hc
  | leave _ hc =>
    obtain ⟨rest, hc⟩ := hc
    rw [ho] at hc
    cases hc
  | value t' v hp hp' hr' ho' hn' =>
    rw [hp] at h
    cases h
    refine ⟨ho'.trans ho, [.result t v, .idle], ?_, ?_⟩
    · rw [hn', hn, List.append_nil]
    · rw [hp']
      exact .value v _
  | error t' detail hp hp' hr' ho' hn' =>
    rw [hp] at h
    cases h
    refine ⟨ho'.trans ho, [.error t detail, .idle], ?_, ?_⟩
    · rw [hn', hn, List.append_nil]
    · rw [hp']
      exact .error detail _
  | panic t' detail hp hp' hr' ho' hn' =>
    have hun : b.reported = false := hb.unreported_of (by rw [Worker.hasEnded, hp])
    rw [hp] at h
    cases h
    refine ⟨ho', [], hn'.trans hn, ?_⟩
    rw [hp', hr', hun]
    exact .dying detail
  | watch how hp h0 hp' hr' ho' hn' =>
    rw [hp, h0] at h
    cases h with
    | dying detail =>
      refine ⟨ho'.trans ho, [.fatal detail, .exited false], ?_, ?_⟩
      · rw [hn', hn, List.append_nil]
        rfl
      · rw [hp', hp, hr']
        exact .dead detail

theorem Acked.shift {b b' : Bench} {t : TaskId} (hb : b.Serves) (h : b.Acked t)
    (hs : Shift b b') : b'.Acked t := by
  obtain ⟨ho, es, hn, hr⟩ := Rest.shift [] hb h.orders rfl h.rest hs
  refine ⟨ho, ?_⟩
  rw [hn]
  exact hr

theorem Pending.shift {b b' : Bench} {t : TaskId} (hb : b.Serves) (h : b.Pending t)
    (hs : Shift b b') : b'.Pending t := by
  rcases h with h | h
  · obtain ⟨kind, payload, ho⟩ := h.orders
    cases hs with
    | same hp' hr' ho' hn' =>
      exact .inl ⟨hp'.trans h.phase, ⟨kind, payload, ho'.trans ho⟩, hn'.trans h.news⟩
    | take t' kind' payload' _ hc hp' hr' hn' =>
      obtain ⟨hc, ho'⟩ := List.cons.inj (ho.symm.trans hc)
      cases hc
      refine .inr ⟨ho'.symm, [], ?_, ?_⟩
      · rw [hn', h.news]
        rfl
      · rw [hp']
        exact .running _
    | leave _ hc =>
      obtain ⟨rest, hc⟩ := hc
      rw [ho] at hc
      cases hc
    | ready hp | value _ _ hp | error _ _ hp | panic _ _ hp | watch _ hp =>
      rw [h.phase] at hp
      cases hp
  · obtain ⟨es, hn, hr⟩ := h.rest
    obtain ⟨ho', es', hn', hr'⟩ := Rest.shift [.busy t] hb h.orders hn hr hs
    exact .inr ⟨ho', es', hn', hr'⟩

/-! ## which tasks a bench names -/

theorem names_iff {b : Bench} {t : TaskId} :
    b.Names t ↔ b.worker.phase.task? = some t ∨ (∃ c ∈ b.orders, c.task? = some t) ∨
      ∃ e ∈ b.news, e.task? = some t := by
  have hc : (∃ c ∈ b.commands, c.task? = some t) ↔ ∃ c ∈ b.orders, c.task? = some t := by
    constructor
    · rintro ⟨c, hc, ht⟩
      refine ⟨c, List.mem_filter.mpr ⟨hc, ?_⟩, ht⟩
      cases c with
      | reportMetrics => cases ht
      | _ => rfl
    · rintro ⟨c, hc, ht⟩
      exact ⟨c, (List.mem_filter.mp hc).1, ht⟩
  have he : (∃ e ∈ b.outgoing, e.task? = some t) ↔ ∃ e ∈ b.news, e.task? = some t := by
    constructor
    · rintro ⟨e, he, ht⟩
      refine ⟨e, List.mem_filter.mpr ⟨he, ?_⟩, ht⟩
      cases e with
      | metrics => cases ht
      | _ => rfl
    · rintro ⟨e, he, ht⟩
      exact ⟨e, (List.mem_filter.mp he).1, ht⟩
  rw [Names, hc, he]

/-- after a turn that adds reports `es`, what is named was named before -/
theorem names_of_sub {b : Bench} {w : Worker} {es : List Event} {doomed reported : Bool}
    {t : TaskId} (h : Names ⟨w, b.outgoing ++ es, doomed, reported⟩ t)
    (hp : w.phase.task? = some t → b.Names t)
    (hc : ∀ c ∈ w.deferred ++ w.inbox, c ∈ b.commands)
    (he : ∀ e ∈ es, e.task? = some t → b.Names t) : b.Names t := by
  rcases h with h | ⟨c, hm, ht⟩ | ⟨e, hm, ht⟩
  · exact hp h
  · exact .inr (.inl ⟨c, hc c hm, ht⟩)
  · rcases List.mem_append.mp hm with hm | hm
    · exact .inr (.inr ⟨e, hm, ht⟩)
    · exact he e hm ht

theorem names_endWith {b : Bench} {how : Ending} {doomed reported : Bool} {t : TaskId}
    (h : Names ⟨b.worker.endWith how, b.outgoing ++ [], doomed, reported⟩ t) : b.Names t :=
  names_of_sub h (fun h => by cases h) (fun c hc => by cases hc) (fun e he => by cases he)

theorem names_obey {b : Bench} {c : Command} {v : Worker} {now memory : Nat} {t : TaskId}
    (hv : v.phase = .waiting) (hc : b.commands = c :: (v.deferred ++ v.inbox))
    (h : Names ⟨(v.obey now memory c).1, b.outgoing ++ (v.obey now memory c).2, b.doomed,
      b.reported⟩ t) : b.Names t := by
  have hrest : ∀ x ∈ v.deferred ++ v.inbox, x ∈ b.commands := by
    intro x hx
    rw [hc]
    exact List.mem_cons_of_mem c hx
  cases c with
  | task id kind payload =>
    have hname (hid : some id = some t) : b.Names t :=
      .inr (.inl ⟨.task id kind payload, by rw [hc]; exact List.mem_cons_self .., hid⟩)
    refine names_of_sub h hname hrest (fun e he ht => ?_)
    rw [List.mem_singleton.mp he] at ht
    exact hname ht
  | terminate =>
    refine names_of_sub h (fun h => by cases h) (fun c hc => by cases hc) (fun e he => by cases he)
  | reportMetrics =>
    refine names_of_sub h (fun hn => ?_) hrest (fun e he ht => ?_)
    · have hn' : v.phase.task? = some t := hn
      rw [hv] at hn'
      cases hn'
    · rw [List.mem_singleton.mp he] at ht
      cases ht

theorem names_overhear {b : Bench} {c : Command} {rest : List Command} {now memory : Nat}
    {t : TaskId} (hi : b.worker.inbox = c :: rest)
    (h : Names ⟨({ b.worker with inbox := rest }.overhear now memory c).1,
      b.outgoing ++ ({ b.worker with inbox := rest }.overhear now memory c).2, b.doomed,
      b.reported⟩ t) : b.Names t := by
  have hput : ∀ x ∈ (b.worker.deferred ++ [c]) ++ rest, x ∈ b.commands := by
    intro x hx
    rw [List.append_assoc] at hx
    show x ∈ b.worker.deferred ++ b.worker.inbox
    rw [hi]
    exact hx
  have hrest : ∀ x ∈ b.worker.deferred ++ rest, x ∈ b.commands := by
    intro x hx
    show x ∈ b.worker.deferred ++ b.worker.inbox
    rw [hi]
    rcases List.mem_append.mp hx with hx | hx
    · exact List.mem_append_left _ hx
    · exact List.mem_append_right _ (List.mem_cons_of_mem c hx)
  cases c with
  | task | terminate => exact names_of_sub h .inl hput (fun e he => by cases he)
  | reportMetrics =>
    refine names_of_sub h .inl hrest (fun e he ht => ?_)
    rw [List.mem_singleton.mp he] at ht
    cases ht

/-- a turn names no task anew -/
theorem Turn.names {b b' : Bench} {t : TaskId} (h : Turn b b') (hn : b'.Names t) : b.Names t := by
  cases h with
  | step now memory r h =>
    cases Worker.step_cases h with
    | ready hp =>
      refine names_of_sub hn (fun h => by cases h) (fun c hc => hc) (fun e he ht => ?_)
      rw [List.mem_singleton.mp he] at ht
      cases ht
    | obey c v hp hc hv ha => exact names_obey hv hc hn
    | close hp ha => exact names_endWith hn
    | overhear t' c rest hp hi => exact names_overhear hi hn
  | finish now how =>
    have hclose := b.worker.finish_cases now how
    generalize b.worker.finish now how = r at hclose hn
    cases hclose with
    | skipped => exact names_of_sub hn .inl (fun c hc => hc) (fun e he => by cases he)
    | value t' v w hp hw hd hi ha | error t' detail w hp hw hd hi ha =>
      refine names_of_sub hn (fun h => ?_) (fun c hc => ?_) (fun e he ht => ?_)
      · rw [hw] at h
        cases h
      · rw [hd, hi] at hc
        exact hc
      · rcases List.mem_cons.mp he with rfl | he
        · exact .inl (by rw [hp]; exact ht)
        · rw [List.mem_singleton.mp he] at ht
          cases ht
    | panic t' detail hp => exact names_endWith hn
  | abort h =>
    have hn' : Names ⟨b.worker.abort, b.outgoing ++ [], b.doomed, b.reported⟩ t := by
      rw [List.append_nil]
      exact hn
    unfold Worker.abort at hn'
    split at hn'
    · exact names_of_sub hn' .inl (fun c hc => hc) (fun e he => by cases he)
    · exact names_endWith hn'
  | watch how h hr =>
    refine names_of_sub hn .inl (fun c hc => hc) (fun e he ht => ?_)
    cases how with
    | stopped | aborted =>
      rw [List.mem_singleton.mp he] at ht
      cases ht
    | panicked detail =>
      rcases List.mem_cons.mp he with rfl | he
      · cases ht
      · rw [List.mem_singleton.mp he] at ht
        cases ht

theorem Fresh.names {b : Bench} (h : b.Fresh) {t : TaskId} : ¬ b.Names t := by
  rw [names_iff]
  obtain ⟨ho, ⟨hp, hn⟩ | ⟨hp, hn⟩⟩ := h <;> simp [hp, hn, ho, Phase.task?, Event.task?]

theorem Resting.names {b : Bench} (h : b.Resting) {t : TaskId} : ¬ b.Names t := by
  rw [names_iff]
  simp [h.phase, h.orders, h.news, Phase.task?]

theorem Spent.names {b : Bench} (h : b.Spent) {t : TaskId} : ¬ b.Names t := by
  rw [names_iff]
  simp [h.phase, h.orders, h.news, Phase.task?, Event.task?]

theorem Rest.names {t x : TaskId} {phase : Phase} {reported : Bool} {es : List Event}
    (h : Rest t phase reported es)
    (hn : phase.task? = some x ∨ ∃ e ∈ es, e.task? = some x) : x = t := by
  cases h with
  | running =>
    rcases hn with hn | ⟨e, he, _⟩
    · cases hn
      rfl
    · cases he
  | value | error =>
    rcases hn with hn | ⟨e, he, ht⟩
    · cases hn
    · rcases List.mem_cons.mp he with rfl | he
      · cases ht
        rfl
      · rw [List.mem_singleton.mp he] at ht
        cases ht
  | dying =>
    rcases hn with hn | ⟨e, he, _⟩
    · cases hn
    · cases he
  | dead =>
    rcases hn with hn | ⟨e, he, ht⟩
    · cases hn
    · rcases List.mem_cons.mp he with rfl | he
      · cases ht
      · rw [List.mem_singleton.mp he] at ht
        cases ht

theorem Acked.names {b : Bench} {t x : TaskId} (h : b.Acked t) (hn : b.Names x) : x = t := by
  rw [names_iff, h.orders] at hn
  refine h.rest.names ?_
  rcases hn with hn | ⟨c, hc, _⟩ | hn
  · exact .inl hn
  · cases hc
  · exact .inr hn

theorem Pending.names {b : Bench} {t x : TaskId} (h : b.Pending t) (hn : b.Names x) : x = t := by
  rw [names_iff] at hn
  rcases h with h | h
  · obtain ⟨kind, payload, ho⟩ := h.orders
    rw [h.phase, ho, h.news] at hn
    rcases hn with hn | ⟨c, hc, ht⟩ | ⟨e, he, _⟩
    · cases hn
    · rw [List.mem_singleton.mp hc] at ht
      cases ht
      rfl
    · cases he
  · obtain ⟨es, hnews, hrest⟩ := h.rest
    rw [h.orders, hnews] at hn
    rcases hn with hn | ⟨c, hc, _⟩ | ⟨e, he, ht⟩
    · exact hrest.names (.inl hn)
    · cases hc
    · rcases List.mem_cons.mp he with rfl | he
      · cases ht
        rfl
      · exact hrest.names (.inr ⟨e, he, ht⟩)

/-! ## what the pool does to a bench -/

theorem isReachable_tell (b : Bench) (c : Command) :
    (b.tell c).worker.isReachable = b.worker.isReachable := by
  unfold tell
  split <;> rfl

theorem isReachable_dismiss (b : Bench) : b.dismiss.worker.isReachable = false :=
  Bool.and_false _

theorem Serves.reachable {b : Bench} (hs : b.Serves) (hp : b.worker.phase = .waiting) :
    b.worker.isReachable = true := by
  rw [Worker.isReachable, Worker.hasEnded, hp, hs.attached]
  rfl

theorem Serves.tell {b : Bench} (hs : b.Serves) (c : Command) : (b.tell c).Serves := by
  unfold Bench.tell
  split
  · exact ⟨hs.safe, hs.attached, hs.unreported⟩
  · exact hs

/-- a request for metrics leaves no trace -/
theorem shift_tell (b : Bench) : Shift b (b.tell .reportMetrics) := by
  unfold tell
  split
  · refine .same rfl rfl ?_ rfl
    show (b.worker.deferred ++ (b.worker.inbox ++ [_])).filter _ = _
    rw [← List.append_assoc, List.filter_append]
    exact List.append_nil _
  · exact .same rfl rfl rfl rfl

theorem Resting.tell {b : Bench} (hs : b.Serves) (h : b.Resting) (t : TaskId) (kind : Kind)
    (payload : Json) : (b.tell (.task t kind payload)).Handed t := by
  unfold Bench.tell
  rw [if_pos (hs.reachable h.phase)]
  refine ⟨h.phase, ⟨kind, payload, ?_⟩, h.news⟩
  show (b.worker.deferred ++ (b.worker.inbox ++ [_])).filter _ = _
  rw [← List.append_assoc, List.filter_append]
  show b.orders ++ _ = _
  rw [h.orders]
  rfl

theorem names_tell {b : Bench} {c : Command} {t : TaskId} (h : (b.tell c).Names t) :
    b.Names t ∨ c.task? = some t := by
  unfold tell at h
  split at h
  · rcases h with h | ⟨x, hx, ht⟩ | h
    · exact .inl (.inl h)
    · have hx' : x ∈ b.worker.deferred ++ (b.worker.inbox ++ [c]) := hx
      rw [← List.append_assoc] at hx'
      rcases List.mem_append.mp hx' with hx | hx
      · exact .inl (.inr (.inl ⟨x, hx, ht⟩))
      · rw [List.mem_singleton.mp hx] at ht
        exact .inr ht
    · exact .inl (.inr (.inr h))
  · exact .inl h

/-- the bench after the pool has handled the first of its reports -/
def pop (b : Bench) (rest : List Event) : Bench := { b with outgoing := rest }

theorem names_pop {b : Bench} {e : Event} {rest : List Event} {t : TaskId}
    (ho : b.outgoing = e :: rest) (h : (b.pop rest).Names t) : b.Names t := by
  rcases h with h | h | ⟨x, hx, ht⟩
  · exact .inl h
  · exact .inr (.inl h)
  · refine .inr (.inr ⟨x, ?_, ht⟩)
    rw [ho]
    exact List.mem_cons_of_mem e hx

theorem Serves.pop {b : Bench} (hs : b.Serves) (rest : List Event) : (b.pop rest).Serves :=
  ⟨hs.safe, hs.attached, hs.unreported⟩

theorem shift_pop {b : Bench} {s : Metrics} {rest : List Event}
    (ho : b.outgoing = .metrics s :: rest) : Shift b (b.pop rest) := by
  refine .same rfl rfl rfl ?_
  show rest.filter _ = b.outgoing.filter _
  rw [ho]
  rfl

theorem news_pop {b : Bench} {e : Event} {rest : List Event} (ho : b.outgoing = e :: rest)
    (he : e.isNews = true) : b.news = e :: (b.pop rest).news := by
  show b.outgoing.filter _ = e :: rest.filter _
  rw [ho, List.filter_cons_of_pos he]

end Bench

end TaskPool
