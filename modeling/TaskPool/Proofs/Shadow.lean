import TaskPool.Proofs.Leaving
import TaskPool.Proofs.Veil
import TaskPool.Proofs.Workday
import Mathlib.Data.Option.Basic

/-!
# A workshop that nobody looks at

* `Worker.asked`            the next thing that a worker does is to answer a request for metrics
* `Bench.Act`, `Bench.Acts`   what a bench does by itself, with all that the outcome depends on
* `Worker.Shadow`, `Bench.Shadow`   the same worker without requests for metrics and their answers
* `Bench.Acts.shadow`       the shadow of a bench does what the bench does, but for answers
* `Shadowed`                every bench has its shadow, and effects keep it so
* `Workshop.Shadow W V`     `V` is `W` without what observers brought about
* `Shadow.deliver`, `Shadow.observe`   a message that is no observer's is handled in both alike, and
                            one that is casts no shadow

Why answers take no turn from other commands: a worker that is asked for metrics is asked next to
what else it was told, in the order in which it was told, and what it does with the rest does not
depend on when it has answered.
-/

namespace TaskPool

open Function

/-! ## what a bench does by itself -/

namespace Worker

/-- the command that is dealt with next -/
def upcoming (w : Worker) : Option Command :=
  match w.phase with
  | .waiting => (w.deferred ++ w.inbox).head?
  | .running _ => w.inbox.head?
  | _ => none

/-- the next thing that the worker does is to answer a request for metrics -/
def asked (w : Worker) : Prop := w.upcoming = some .reportMetrics

end Worker

namespace Bench

inductive Act where
  /-- a request for metrics is answered -/
  | answer (now memory : Nat)
  | step (now memory : Nat)
  | finish (now : Nat) (how : Ended)
  | abort
  | watch

def Act.observes : Act → Bool
  | .answer _ _ => true
  | _ => false

/-- the same act at any other time -/
def Act.blur : Act → Act
  | .answer _ _ => .answer 0 0
  | .step _ _ => .step 0 0
  | .finish _ how => .finish 0 how
  | a => a

/-- what comes of an act -/
inductive Acts (b : Bench) : Act → Bench → Prop where
  | answer (now memory : Nat) (r : Worker × List Event) (ha : b.worker.asked)
      (h : b.worker.step now memory = some r) :
      Acts b (.answer now memory)
        { b with
          worker := r.1
          outgoing := b.outgoing ++ r.2 }
  | step (now memory : Nat) (r : Worker × List Event) (ha : ¬ b.worker.asked)
      (h : b.worker.step now memory = some r) :
      Acts b (.step now memory)
        { b with
          worker := r.1
          outgoing := b.outgoing ++ r.2 }
  | finish (now : Nat) (how : Ended) :
      Acts b (.finish now how)
        { b with
          worker := (b.worker.finish now how).1
          outgoing := b.outgoing ++ (b.worker.finish now how).2 }
  | abort (h : b.doomed = true) : Acts b .abort { b with worker := b.worker.abort }
  | watch (how : Ending) (h : b.worker.phase = .ended how) (hr : b.reported = false) :
      Acts b .watch
        { b with
          reported := true
          outgoing := b.outgoing ++ how.events }

variable {b b' : Bench} {a : Act}

theorem Acts.turn (h : b.Acts a b') : b.Turn b' := by
  cases h with
  | answer now memory r _ h => exact .step now memory r h
  | step now memory r _ h => exact .step now memory r h
  | finish now how => exact .finish now how
  | abort h => exact .abort h
  | watch how h hr => exact .watch how h hr

theorem Turn.acts (h : b.Turn b') : ∃ a, b.Acts a b' := by
  cases h with
  | step now memory r h =>
    by_cases ha : b.worker.asked
    · exact ⟨_, .answer now memory r ha h⟩
    · exact ⟨_, .step now memory r ha h⟩
  | finish now how => exact ⟨_, .finish now how⟩
  | abort h => exact ⟨_, .abort h⟩
  | watch how h hr => exact ⟨_, .watch how h hr⟩

/-- nothing else can come of an act -/
theorem Acts.unique {b'' : Bench} (h : b.Acts a b') (h' : b.Acts a b'') : b' = b'' := by
  cases h with
  | answer now memory r _ h =>
    cases h' with
    | answer _ _ r' _ h' =>
      rw [h] at h'
      cases h'
      rfl
  | step now memory r _ h =>
    cases h' with
    | step _ _ r' _ h' =>
      rw [h] at h'
      cases h'
      rfl
  | finish | abort =>
    cases h'
    rfl
  | watch how h =>
    cases h' with
    | watch how' h' =>
      rw [h] at h'
      cases h'
      rfl

end Bench

/-! ## the shadow of a worker -/

/-- `w` is the worker `v` without requests for metrics; its meter may show anything -/
structure Worker.Shadow (v w : Worker) : Prop where
  id : w.id = v.id
  phase : w.phase = v.phase
  inbox : w.inbox = v.inbox.filter Command.isOrder
  attached : w.attached = v.attached
  deferred : w.deferred = v.deferred.filter Command.isOrder
  processed : w.processed = v.processed
  failed : w.failed = v.failed

namespace Worker.Shadow

variable {v w : Worker} (h : v.Shadow w)
include h

theorem hasEnded : w.hasEnded = v.hasEnded := by
  unfold Worker.hasEnded
  rw [h.phase]

theorem isReachable : w.isReachable = v.isReachable := by
  unfold Worker.isReachable
  rw [h.hasEnded, h.attached]

theorem send {c : Command} (hc : c.isOrder = true) : (v.send c).Shadow (w.send c) := by
  refine ⟨h.id, h.phase, ?_, h.attached, h.deferred, h.processed, h.failed⟩
  show w.inbox ++ [c] = (v.inbox ++ [c]).filter _
  rw [List.filter_append, h.inbox, List.filter_cons_of_pos hc]
  rfl

/-- a request for metrics casts no shadow -/
theorem send_left {c : Command} (hc : c.isOrder = false) : (v.send c).Shadow w := by
  refine ⟨h.id, h.phase, ?_, h.attached, h.deferred, h.processed, h.failed⟩
  show w.inbox = (v.inbox ++ [c]).filter _
  rw [List.filter_append, h.inbox, List.filter_cons_of_neg (by simp [hc])]
  exact (List.append_nil _).symm

theorem detach : v.detach.Shadow w.detach :=
  ⟨h.id, h.phase, h.inbox, rfl, h.deferred, h.processed, h.failed⟩

theorem endWith (how : Ending) : (v.endWith how).Shadow (w.endWith how) :=
  ⟨h.id, rfl, rfl, h.attached, rfl, h.processed, h.failed⟩

theorem abort : v.abort.Shadow w.abort := by
  unfold Worker.abort
  rw [h.hasEnded]
  split
  · exact h
  · exact h.endWith .aborted

/-- neither does the answer -/
theorem reportMetrics_left (now memory : Nat) :
    (v.reportMetrics now memory).1.Shadow w ∧
      (v.reportMetrics now memory).2.filter Event.isNews = [] :=
  ⟨⟨h.id, h.phase, h.inbox, h.attached, h.deferred, h.processed, h.failed⟩, rfl⟩

theorem obey {c : Command} (hc : c.isOrder = true) (now memory now' memory' : Nat) :
    (v.obey now memory c).1.Shadow (w.obey now' memory' c).1 ∧
      (w.obey now' memory' c).2 = (v.obey now memory c).2.filter Event.isNews := by
  cases c with
  | task id kind payload =>
    exact ⟨⟨h.id, rfl, h.inbox, h.attached, h.deferred, h.processed, h.failed⟩, rfl⟩
  | terminate => exact ⟨h.endWith .stopped, rfl⟩
  | reportMetrics => cases hc

theorem overhear {c : Command} (hc : c.isOrder = true) (now memory now' memory' : Nat) :
    (v.overhear now memory c).1.Shadow (w.overhear now' memory' c).1 ∧
      (w.overhear now' memory' c).2 = (v.overhear now memory c).2.filter Event.isNews := by
  have hlater : Shadow { v with deferred := v.deferred ++ [c] }
      { w with deferred := w.deferred ++ [c] } := by
    refine ⟨h.id, h.phase, h.inbox, h.attached, ?_, h.processed, h.failed⟩
    show w.deferred ++ [c] = (v.deferred ++ [c]).filter _
    rw [List.filter_append, h.deferred, List.filter_cons_of_pos hc]
    rfl
  cases c with
  | task => exact ⟨hlater, rfl⟩
  | terminate => exact ⟨hlater, rfl⟩
  | reportMetrics => cases hc

/-- the end of a handler is the same in the shadow -/
theorem finish (now now' : Nat) (how : Ended) :
    (v.finish now how).1.Shadow (w.finish now' how).1 ∧
      (w.finish now' how).2 = (v.finish now how).2.filter Event.isNews := by
  unfold Worker.finish
  rw [h.phase]
  cases v.phase with
  | running id =>
    cases how with
    | value x =>
      exact ⟨⟨h.id, rfl, h.inbox, h.attached, h.deferred, congrArg (· + 1) h.processed, h.failed⟩,
        rfl⟩
    | error causes =>
      exact ⟨⟨h.id, rfl, h.inbox, h.attached, h.deferred, h.processed, congrArg (· + 1) h.failed⟩,
        rfl⟩
    | panic detail => exact ⟨h.endWith _, rfl⟩
  | unstarted | waiting | ended => exact ⟨h, rfl⟩

/-- a worker whose next command is an order takes this step in its shadow, too -/
theorem step {now memory : Nat} {r : Worker × List Event} (ha : ¬ v.asked)
    (hr : v.step now memory = some r) (now' memory' : Nat) :
    ∃ r', w.step now' memory' = some r' ∧ r.1.Shadow r'.1 ∧ r'.2 = r.2.filter Event.isNews := by
  have horder (c : Command) (hc : v.upcoming = some c) : c.isOrder = true := by
    cases c with
    | reportMetrics => exact absurd hc ha
    | _ => rfl
  obtain ⟨_, _, inbox, _, deferred, _, _, meter⟩ := v
  obtain ⟨id, phase, _, attached, _, processed, failed, meter'⟩ := w
  obtain ⟨hid, hphase, hinbox, hattached, hdeferred, hprocessed, hfailed⟩ := h
  dsimp only at hid hphase hinbox hattached hdeferred hprocessed hfailed
  subst hid hphase hinbox hattached hdeferred hprocessed hfailed
  have hsame (p : Phase) (is ds : List Command) :
      Shadow ⟨id, p, is, attached, ds, processed, failed, meter⟩
        ⟨id, p, is.filter Command.isOrder, attached, ds.filter Command.isOrder, processed, failed,
          meter'⟩ :=
    ⟨rfl, rfl, rfl, rfl, rfl, rfl, rfl⟩
  cases phase with
  | unstarted =>
    cases hr
    exact ⟨_, rfl, hsame .waiting inbox deferred, rfl⟩
  | waiting =>
    cases deferred with
    | cons c rest =>
      cases hr
      have hc := horder c rfl
      refine ⟨_, ?_, (hsame .waiting inbox rest).obey hc now memory now' memory'⟩
      unfold Worker.step
      dsimp only
      rw [List.filter_cons_of_pos hc]
    | nil =>
      cases inbox with
      | cons c rest =>
        cases hr
        have hc := horder c rfl
        refine ⟨_, ?_, (hsame .waiting rest []).obey hc now memory now' memory'⟩
        unfold Worker.step
        dsimp only [List.filter_nil]
        rw [List.filter_cons_of_pos hc]
      | nil =>
        cases attached with
        | true => cases hr
        | false =>
          cases hr
          exact ⟨_, rfl, (hsame .waiting [] []).endWith .stopped, rfl⟩
  | running id =>
    cases inbox with
    | cons c rest =>
      cases hr
      have hc := horder c rfl
      refine ⟨_, ?_, (hsame (.running id) rest deferred).overhear hc now memory now' memory'⟩
      unfold Worker.step
      dsimp only
      rw [List.filter_cons_of_pos hc]
    | nil => cases hr
  | ended => cases hr

/-- the step in which metrics are reported casts no shadow -/
theorem answer {now memory : Nat} {r : Worker × List Event} (ha : v.asked)
    (hr : v.step now memory = some r) : r.1.Shadow w ∧ r.2.filter Event.isNews = [] := by
  obtain ⟨id, phase, inbox, attached, deferred, processed, failed, meter⟩ := v
  obtain ⟨hid, hphase, hinbox, hattached, hdeferred, hprocessed, hfailed⟩ := h
  have hleft (u : Worker) (hu : u.Shadow w) :
      (u.obey now memory .reportMetrics).1.Shadow w ∧
        (u.obey now memory .reportMetrics).2.filter Event.isNews = [] :=
    hu.reportMetrics_left now memory
  cases phase with
  | waiting =>
    cases deferred with
    | cons c rest =>
      cases ha
      cases hr
      exact hleft _ ⟨hid, hphase, hinbox, hattached, hdeferred, hprocessed, hfailed⟩
    | nil =>
      cases inbox with
      | cons c rest =>
        cases ha
        cases hr
        exact hleft _ ⟨hid, hphase, hinbox, hattached, hdeferred, hprocessed, hfailed⟩
      | nil => cases ha
  | running task =>
    cases inbox with
    | cons c rest =>
      cases ha
      cases hr
      exact hleft _ ⟨hid, hphase, hinbox, hattached, hdeferred, hprocessed, hfailed⟩
    | nil => cases ha
  | unstarted | ended => cases ha

/-- the shadow of a worker is never asked for metrics -/
theorem not_asked : ¬ w.asked := by
  intro ha
  have hmem : ∀ c ∈ w.deferred ++ w.inbox, c.isOrder = true := by
    intro c hc
    rw [h.deferred, h.inbox, ← List.filter_append] at hc
    exact (List.mem_filter.mp hc).2
  have hin : .reportMetrics ∈ w.deferred ++ w.inbox := by
    unfold Worker.asked Worker.upcoming at ha
    split at ha
    · exact List.mem_of_mem_head? ha
    · exact List.mem_append_right _ (List.mem_of_mem_head? ha)
    · cases ha
  cases hmem _ hin

end Worker.Shadow

/-! ## the shadow of a bench -/

/-- the shadow of its worker, and its reports without answers to requests for metrics -/
structure Bench.Shadow (a b : Bench) : Prop where
  worker : a.worker.Shadow b.worker
  outgoing : b.outgoing = a.news
  doomed : b.doomed = a.doomed
  reported : b.reported = a.reported

namespace Bench

theorem shadow_new (w : WorkerId) (now : Nat) : (Bench.new w now).Shadow (.new w now) :=
  ⟨⟨rfl, rfl, rfl, rfl, rfl, rfl, rfl⟩, rfl, rfl, rfl⟩

namespace Shadow

variable {a b : Bench} (h : a.Shadow b)
include h

theorem tell {c : Command} (hc : c.isOrder = true) : (a.tell c).Shadow (b.tell c) := by
  unfold Bench.tell
  rw [h.worker.isReachable]
  split
  · exact ⟨h.worker.send hc, h.outgoing, h.doomed, h.reported⟩
  · exact h

theorem tell_left {c : Command} (hc : c.isOrder = false) : (a.tell c).Shadow b := by
  unfold Bench.tell
  split
  · exact ⟨h.worker.send_left hc, h.outgoing, h.doomed, h.reported⟩
  · exact h

theorem dismiss : a.dismiss.Shadow b.dismiss :=
  ⟨h.worker.detach, h.outgoing, rfl, h.reported⟩

theorem pop {e : Event} {rest : List Event} (he : e.isNews = true) (ho : a.outgoing = e :: rest) :
    b.outgoing = e :: rest.filter Event.isNews ∧
      (a.pop rest).Shadow (b.pop (rest.filter Event.isNews)) := by
  refine ⟨?_, h.worker, rfl, h.doomed, h.reported⟩
  rw [h.outgoing, news, ho, List.filter_cons_of_pos he]

theorem pop_left {e : Event} {rest : List Event} (he : e.isNews = false)
    (ho : a.outgoing = e :: rest) : (a.pop rest).Shadow b := by
  refine ⟨h.worker, ?_, h.doomed, h.reported⟩
  rw [h.outgoing, news, ho, List.filter_cons_of_neg (by simp [he])]
  rfl

theorem append {v w : Worker} {es fs : List Event} {reported : Bool} (hw : v.Shadow w)
    (he : fs = es.filter Event.isNews) :
    Shadow ⟨v, a.outgoing ++ es, a.doomed, reported⟩ ⟨w, b.outgoing ++ fs, b.doomed, reported⟩ := by
  refine ⟨hw, ?_, h.doomed, rfl⟩
  rw [news_append]
  show b.outgoing ++ fs = _
  rw [h.outgoing, he]

end Shadow

/-- an answer casts no shadow -/
theorem Acts.shadow_left {a b a' : Bench} {act : Act} (h : a.Shadow b) (ha : a.Acts act a')
    (ho : act.observes = true) : a'.Shadow b := by
  cases ha with
  | answer now memory r hasked hr =>
    obtain ⟨hw, hes⟩ := h.worker.answer hasked hr
    refine ⟨hw, ?_, h.doomed, h.reported⟩
    rw [news_append, hes, List.append_nil]
    exact h.outgoing
  | step | finish | abort | watch => cases ho

/-- **the shadow of a bench does what the bench does**, whatever the time is -/
theorem Acts.shadow {a b a' : Bench} {act act' : Act} (h : a.Shadow b) (ha : a.Acts act a')
    (ho : act.observes = false) (hb : act'.blur = act.blur) :
    ∃ b', b.Acts act' b' ∧ a'.Shadow b' := by
  cases ha with
  | answer => cases ho
  | step now memory r hasked hr =>
    cases act' with
    | step now' memory' =>
      obtain ⟨r', hr', hw, hes⟩ := h.worker.step hasked hr now' memory'
      refine ⟨_, .step now' memory' r' h.worker.not_asked hr', ?_⟩
      rw [← h.reported]
      exact h.append hw hes
    | answer | finish | abort | watch => cases hb
  | finish now how =>
    cases act' with
    | finish now' how' =>
      cases hb
      obtain ⟨hw, hes⟩ := h.worker.finish now now' how
      refine ⟨_, .finish now' how, ?_⟩
      rw [← h.reported]
      exact h.append hw hes
    | answer | step | abort | watch => cases hb
  | abort hd =>
    cases act' with
    | abort =>
      exact ⟨_, .abort (h.doomed.trans hd), h.worker.abort, h.outgoing, h.doomed, h.reported⟩
    | answer | step | finish | watch => cases hb
  | watch how hp hr =>
    cases act' with
    | watch =>
      refine ⟨_, .watch how (h.worker.phase.trans hp) (h.reported.trans hr), ?_⟩
      refine h.append h.worker ?_
      cases how <;> rfl
    | answer | step | finish | abort => cases hb

end Bench

/-! ## the shadows of all benches -/

/-- the same workers have benches, and each on the right is the shadow of the one on the left -/
def Shadowed (f g : WorkerId → Option Bench) : Prop := ∀ w, Option.Rel Bench.Shadow (f w) (g w)

namespace Shadowed

variable {f g : WorkerId → Option Bench} (h : Shadowed f g) {w : WorkerId}
include h

theorem update {o o' : Option Bench} (ho : Option.Rel Bench.Shadow o o') :
    Shadowed (update f w o) (update g w o') := by
  intro v
  by_cases hv : v = w
  · rw [hv, update_self, update_self]
    exact ho
  · rw [update_of_ne hv, update_of_ne hv]
    exact h v

theorem update_left {o : Option Bench} (ho : Option.Rel Bench.Shadow o (g w)) :
    Shadowed (Function.update f w o) g := by
  have hu := h.update (w := w) ho
  rwa [update_eq_self] at hu

theorem map {F G : Bench → Bench} (hFG : ∀ a b, a.Shadow b → (F a).Shadow (G b)) :
    Option.Rel Bench.Shadow ((f w).map F) ((g w).map G) := by
  have hw := h w
  generalize f w = o at hw ⊢
  generalize g w = o' at hw ⊢
  cases hw with
  | some hab => exact .some (hFG _ _ hab)
  | none => exact .none

theorem map_left {F : Bench → Bench} (hF : ∀ a b, a.Shadow b → (F a).Shadow b) :
    Option.Rel Bench.Shadow ((f w).map F) (g w) := by
  have hmap := h.map (w := w) (G := id) hF
  rwa [Option.map_id] at hmap

/-- a bench has a shadow -/
theorem bench {a : Bench} (ha : f w = some a) : ∃ b, g w = some b ∧ a.Shadow b := by
  have hw := h w
  rw [ha] at hw
  generalize g w = o at hw ⊢
  cases hw with
  | some hab => exact ⟨_, rfl, hab⟩

/-- and there are no shadows of other benches -/
theorem source {b : Bench} (hb : g w = some b) : ∃ a, f w = some a ∧ a.Shadow b := by
  have hw := h w
  rw [hb] at hw
  generalize f w = o at hw ⊢
  cases hw with
  | some hab => exact ⟨_, rfl, hab⟩

theorem onBench (now : Nat) {e : Effect} (he : e.observes = false) :
    Shadowed (e.onBench now f) (e.onBench now g) := by
  cases e with
  | hire w => exact h.update (.some (Bench.shadow_new w now))
  | tell w c =>
    have hc : c.isOrder = true := by simpa [Effect.observes] using he
    exact h.update (h.map fun _ _ hab => hab.tell hc)
  | dismiss w => exact h.update (h.map fun _ _ hab => hab.dismiss)
  | _ => exact h

theorem onBench_left (now : Nat) {e : Effect} (he : e.observes = true) :
    Shadowed (e.onBench now f) g := by
  cases e with
  | tell w c =>
    have hc : c.isOrder = false := by simpa [Effect.observes] using he
    exact h.update_left (h.map_left fun _ _ hab => hab.tell_left hc)
  | reply => exact h
  | _ => cases he

theorem stage (now : Nat) {es : List Effect} (hes : ∀ e ∈ es, e.observes = false) :
    Shadowed (stage now f es) (stage now g es) := by
  induction es generalizing f g with
  | nil => exact h
  | cons e es ih =>
    exact ih (h.onBench now (hes e (List.mem_cons_self ..)))
      fun x hx => hes x (List.mem_cons_of_mem e hx)

theorem stage_left (now : Nat) {es : List Effect} (hes : ∀ e ∈ es, e.observes = true) :
    Shadowed (TaskPool.stage now f es) g := by
  induction es generalizing f with
  | nil => exact h
  | cons e es ih =>
    exact ih (h.onBench_left now (hes e (List.mem_cons_self ..)))
      fun x hx => hes x (List.mem_cons_of_mem e hx)

end Shadowed

/-! ## the shadow of a workshop -/

theorem Effect.armless_of_observes {e : Effect} (he : e.observes = true) :
    e.Armless ∧ e.disarms? = none := by
  cases e with
  | reply | tell => exact ⟨trivial, rfl⟩
  | _ => cases he

theorem Effect.observes_of_ordinary {e : Effect} (he : e.isOrdinary = true) :
    e.observes = false := by
  have hand : (!e.observes) = true := (Bool.and_eq_true_iff.mp he).1
  simpa using hand

theorem Veil.of_dense_moment {m n : Moment} (h : dense.moment m = dense.moment n) :
    n.gone = m.gone ∧ n.attached = m.attached := by
  obtain ⟨_, hgone, hattached⟩ := Moment.mk.inj h
  exact ⟨hgone.symm, hattached.symm⟩

/-- `V` is `W` without what observers brought about; points in time and samples may be any -/
structure Workshop.Shadow (W V : Workshop) : Prop where
  pool : Veil.dense.pool W.pool = Veil.dense.pool V.pool
  bench : Shadowed W.bench V.bench
  timers : V.timers = W.timers
  rung : V.rung = W.rung
  held : V.held = W.held
  history : V.history = W.history.filter fun e => !e.observes

namespace Workshop

theorem shadow_new (c : Config) : (new c).Shadow (new c) :=
  ⟨rfl, fun _ => .none, rfl, rfl, rfl, rfl⟩

namespace Shadow

variable {W V : Workshop} (h : W.Shadow V) {m n : Moment} {msg : Message}
include h

theorem setBench {w : WorkerId} {a b : Bench} (hab : a.Shadow b) :
    (W.setBench w a).Shadow (V.setBench w b) :=
  ⟨h.pool, h.bench.update (.some hab), h.timers, h.rung, h.held, h.history⟩

theorem setBench_left {w : WorkerId} {a b : Bench} (hb : V.bench w = some b) (hab : a.Shadow b) :
    (W.setBench w a).Shadow V := by
  refine ⟨h.pool, h.bench.update_left ?_, h.timers, h.rung, h.held, h.history⟩
  rw [hb]
  exact .some hab

/-- **a message that is no observer's is handled in the shadow as it is handled here**, whatever the
time is -/
theorem deliver (hc : W.pool.config.autoscaling = false) (hW : W.pool.outbox = [])
    (hV : V.pool.outbox = []) (ho : msg.observes = false) (ht : msg ≠ .ring .autoscaleTick)
    (hm : Veil.dense.moment m = Veil.dense.moment n) (now : Nat) :
    (V.pool.handle n msg).outbox = (W.pool.handle m msg).outbox ∧
      (W.deliver m now msg).Shadow (V.deliver n now msg) := by
  obtain ⟨hout, hpool⟩ := Pool.handle_alike h.pool hc hW hV ho ht hm
  have hplain : ∀ e ∈ (W.pool.handle m msg).outbox, e.observes = false := fun e he =>
    Effect.observes_of_ordinary (Pool.ordinary_handle hc hW ho ht e he)
  refine ⟨hout.symm, ?_, ?_, ?_, h.rung, h.held, ?_⟩
  · exact congrArg (fun p => { p with outbox := [] }) hpool
  · show Shadowed _ (stage now V.bench (V.pool.handle n msg).outbox)
    rw [← hout]
    exact h.bench.stage now hplain
  · show wind V.timers (V.pool.handle n msg).outbox = _
    rw [← hout, h.timers]
    rfl
  · show V.history ++ (V.pool.handle n msg).outbox = (W.history ++ _).filter _
    rw [← hout, h.history, List.filter_append]
    refine congrArg _ (List.filter_eq_self.mpr fun e he => ?_).symm
    rw [hplain e he]
    rfl

/-- **a message of an observer casts no shadow** -/
theorem observe (hW : W.pool.outbox = []) (ho : msg.observes = true) (now : Nat)
    (due : TimerId → Nat) :
    appoint now due (W.pool.handle m msg).outbox = due ∧ (W.deliver m now msg).Shadow V := by
  obtain ⟨hobs, hpool⟩ := Pool.handle_observer (m := m) hW ho
  have harmless : ∀ e ∈ (W.pool.handle m msg).outbox, e.Armless :=
    fun e he => (Effect.armless_of_observes (hobs e he)).1
  have hdisarmed : disarmed (W.pool.handle m msg).outbox = [] :=
    List.filterMap_eq_nil_iff.mpr fun e he => (Effect.armless_of_observes (hobs e he)).2
  refine ⟨appoint_armless harmless due, hpool.trans h.pool, h.bench.stage_left now hobs, ?_, h.rung,
    h.held, ?_⟩
  · show V.timers = wind W.timers (W.pool.handle m msg).outbox
    rw [wind_armless harmless, hdisarmed, h.timers]
    exact (List.filter_eq_self.mpr fun x _ => rfl).symm
  · show V.history = (W.history ++ _).filter _
    rw [List.filter_append, h.history]
    have hnone : (W.pool.handle m msg).outbox.filter (fun e => !e.observes) = [] := by
      refine List.filter_eq_nil_iff.mpr fun e he => ?_
      rw [hobs e he]
      exact Bool.false_ne_true
    rw [hnone, List.append_nil]

/-! ## what can be told from the history -/

theorem filterMap_history {β : Type} {f : Effect → Option β}
    (hf : ∀ e, e.observes = true → f e = none) :
    V.history.filterMap f = W.history.filterMap f := by
  rw [h.history, List.filterMap_filter]
  refine List.filterMap_congr fun e _ => ?_
  cases he : e.observes with
  | true => exact (hf e he).symm
  | false => rfl

theorem accepted : accepted V.history = accepted W.history := by
  refine h.filterMap_history fun e he => ?_
  cases e with
  | reply caller a =>
    cases a with
    | accepted => cases he
    | _ => rfl
  | _ => rfl

theorem told (id : TaskId) : told id V.history = told id W.history := by
  refine h.filterMap_history fun e he => ?_
  cases e with
  | tell w c =>
    cases c with
    | task => cases he
    | _ => rfl
  | _ => rfl

theorem handed (w : WorkerId) : handed w V.history = handed w W.history := by
  refine h.filterMap_history fun e he => ?_
  cases e with
  | tell w c =>
    cases c with
    | task => cases he
    | _ => rfl
  | _ => rfl

theorem outcomes (id : TaskId) : outcomes id V.history = outcomes id W.history := by
  refine h.filterMap_history fun e he => ?_
  cases e with
  | deliver => cases he
  | _ => rfl

/-! ## messages that wait -/

theorem draws {request : Request} (hd : W.Draws request) : V.Draws request := by
  cases request with
  | submit id =>
    show id ∉ TaskPool.accepted V.history
    rw [h.accepted]
    exact hd
  | _ => trivial

/-- a message that is no observer's waits in the shadow, too -/
theorem takes {W' : Workshop} (ht : W.Takes msg W') (ho : msg.observes = false) :
    ∃ V', V.Takes msg V' ∧ W'.Shadow V' := by
  cases ht with
  | call caller request hd => exact ⟨V, .call caller request (h.draws hd), h⟩
  | report w a e rest ha hout =>
    obtain ⟨b, hb, hab⟩ := h.bench.bench ha
    have he : e.isNews = true := by simpa [Message.observes] using ho
    obtain ⟨hout', hpop⟩ := hab.pop he hout
    exact ⟨_, .report w b e _ hb hout', h.setBench hpop⟩
  | alarm a ha =>
    refine ⟨_, .alarm a (h.rung ▸ ha), h.pool, h.bench, h.timers, ?_, h.held, h.history⟩
    show V.rung.erase a = W.rung.erase a
    rw [h.rung]

theorem takes_left {W' : Workshop} (ht : W.Takes msg W') (ho : msg.observes = true) :
    W'.Shadow V := by
  cases ht with
  | call => exact h
  | report w a e rest ha hout =>
    obtain ⟨b, hb, hab⟩ := h.bench.bench ha
    have he : e.isNews = false := by simpa [Message.observes] using ho
    exact h.setBench_left hb (hab.pop_left he hout)
  | alarm => cases ho

/-- what the pool may believe of its surroundings, it may believe in the shadow -/
theorem admits (ha : W.Admits m) (hm : Veil.dense.moment m = Veil.dense.moment n) : V.Admits n := by
  obtain ⟨hgone, hattached⟩ := Veil.of_dense_moment hm
  refine ⟨fun hh => ?_, fun w hw => ?_⟩
  · rw [hattached]
    exact ha.attached (h.held ▸ hh)
  · obtain ⟨a, haw, hreach⟩ := ha.gone w (hgone ▸ hw)
    obtain ⟨b, hb, hab⟩ := h.bench.bench haw
    exact ⟨b, hb, hab.worker.isReachable.trans hreach⟩

end Shadow

end Workshop

end TaskPool
