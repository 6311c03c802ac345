import TaskPool.Proofs.Hearing
import TaskPool.Proofs.Numbering
import TaskPool.Proofs.Picture

/-!
# Seats and benches

The workers of a world sit at seats, those of a workshop at benches.

* `reportsOf`, `alarmsOf`, `submitted`   what messages on their way are about
* `Bench.Twin`       the bench of a seat and the one that stands for it in a workshop: they are the
                     same until the worker is lost, and from then on end in the same way
* `Carries`          the benches and timers of a workshop carry the seats and timers of a picture
* `Carries.perform`  they still do when everything that a message asks for was done on both sides

Why not the same for good: a workshop lets go of a worker at once when it is dismissed, and a world
only marks it.  Nothing can tell the two apart, because the worker does nothing more than end.
-/

namespace TaskPool

open Function

/-! ## messages on their way -/

namespace Message

def reports? (v : WorkerId) : Message → Option Event
  | .report w e => if w = v then some e else none
  | _ => none

def alarm? : Message → Option Alarm
  | .ring a => some a
  | _ => none

def submits? : Message → Option TaskId
  | .call _ (.submit id _ _ _) => some id
  | _ => none

end Message

/-- the reports of a worker among messages -/
def reportsOf (v : WorkerId) (ms : List Message) : List Event := ms.filterMap (Message.reports? v)

def alarmsOf (ms : List Message) : List Alarm := ms.filterMap Message.alarm?

/-- the tasks that messages submit -/
def submitted (ms : List Message) : List TaskId := ms.filterMap Message.submits?

theorem reportsOf_append (v : WorkerId) (ms ns : List Message) :
    reportsOf v (ms ++ ns) = reportsOf v ms ++ reportsOf v ns := List.filterMap_append

theorem alarmsOf_append (ms ns : List Message) : alarmsOf (ms ++ ns) = alarmsOf ms ++ alarmsOf ns :=
  List.filterMap_append

theorem submitted_append (ms ns : List Message) :
    submitted (ms ++ ns) = submitted ms ++ submitted ns := List.filterMap_append

theorem reportsOf_reports (v u : WorkerId) (es : List Event) :
    reportsOf u (es.map (Message.report v)) = if v = u then es else [] := by
  unfold reportsOf
  rw [List.filterMap_map]
  by_cases hv : v = u
  · rw [if_pos hv]
    have h : Message.reports? u ∘ Message.report v = some := by
      funext e
      exact if_pos hv
    rw [h, List.filterMap_some]
  · rw [if_neg hv]
    exact List.filterMap_eq_nil_iff.mpr fun e _ => if_neg hv

theorem alarmsOf_reports (v : WorkerId) (es : List Event) :
    alarmsOf (es.map (Message.report v)) = [] := by
  refine List.filterMap_eq_nil_iff.mpr fun m hm => ?_
  obtain ⟨e, _, rfl⟩ := List.mem_map.mp hm
  rfl

theorem submitted_reports (v : WorkerId) (es : List Event) :
    submitted (es.map (Message.report v)) = [] := by
  refine List.filterMap_eq_nil_iff.mpr fun m hm => ?_
  obtain ⟨e, _, rfl⟩ := List.mem_map.mp hm
  rfl

/-! ## a seat and its bench -/

theorem Worker.hasEnded_congr {w v : Worker} (h : w.phase = v.phase) : w.hasEnded = v.hasEnded := by
  unfold hasEnded
  rw [h]

theorem Worker.phase_abort {w : Worker} (h : w.hasEnded = false) :
    w.abort.phase = .ended .aborted := by
  unfold abort
  rw [if_neg (by rw [h]; exact Bool.false_ne_true)]
  rfl

/-- the bench of a seat, with the reports on their way from it -/
def Seat.bench (out : List Event) (s : Seat) : Bench := ⟨s.worker, out, s.doomed, s.reported⟩

namespace Bench

/-- `b` does what `b'` does; once the worker is lost, that is no more than to end and to report
the end -/
inductive Twin (b : Bench) : Bench → Prop where
  | same (h : b.doomed = false) : Twin b b
  | lost (b' : Bench) (hp : b.worker.phase = b'.worker.phase) (ho : b.outgoing = b'.outgoing)
      (hr : b.reported = b'.reported) (hu : b'.worker.isReachable = false)
      (hd : b.worker.hasEnded = true ∨ (b.doomed = true ∧ b'.doomed = true)) : Twin b b'

namespace Twin

variable {b b' : Bench}

theorem phase (h : b.Twin b') : b.worker.phase = b'.worker.phase := by
  cases h with
  | same => rfl
  | lost _ hp => exact hp

theorem outgoing (h : b.Twin b') : b.outgoing = b'.outgoing := by
  cases h with
  | same => rfl
  | lost _ _ ho => exact ho

theorem reported (h : b.Twin b') : b.reported = b'.reported := by
  cases h with
  | same => rfl
  | lost _ _ _ hr => exact hr

/-- a worker that is neither lost nor to be lost is the same on both sides -/
theorem eq_of_safe (h : b.Twin b') (hd : b.doomed = false) (he : b.worker.hasEnded = false) :
    b = b' := by
  cases h with
  | same => rfl
  | lost _ _ _ _ _ hl =>
    rcases hl with hl | ⟨hl, _⟩
    · rw [he] at hl
      cases hl
    · rw [hd] at hl
      cases hl

theorem unreachable (h : b.Twin b') (hb : b.worker.isReachable = false) :
    b'.worker.isReachable = false := by
  cases h with
  | same => exact hb
  | lost _ _ _ _ hu => exact hu

theorem tell (h : b.Twin b') (c : Command) : (b.tell c).Twin (b'.tell c) := by
  cases h with
  | same hd =>
    refine .same ?_
    unfold Bench.tell
    split <;> exact hd
  | lost _ hp ho hr hu hd =>
    have hb' : b'.tell c = b' := by
      unfold Bench.tell
      rw [if_neg (by rw [hu]; exact Bool.false_ne_true)]
    rw [hb']
    unfold Bench.tell
    split
    · exact .lost b' hp ho hr hu hd
    · exact .lost b' hp ho hr hu hd

theorem pop (h : b.Twin b') (rest : List Event) : (b.pop rest).Twin (b'.pop rest) := by
  cases h with
  | same hd => exact .same hd
  | lost _ hp _ hr hu hd => exact .lost _ hp rfl hr hu hd

/-- a worker that is doomed is ended on both sides -/
theorem abort (h : b.Twin b') (hd : b.doomed = true) (he : b.worker.hasEnded = false) :
    b'.doomed = true ∧ ({ b with worker := b.worker.abort } : Bench).Twin
      { b' with worker := b'.worker.abort } := by
  cases h with
  | same hd' =>
    rw [hd] at hd'
    cases hd'
  | lost _ hp ho hr _ hl =>
    have hphase := Worker.phase_abort he
    have hphase' := Worker.phase_abort ((Worker.hasEnded_congr hp).symm.trans he)
    rcases hl with hl | ⟨_, hl⟩
    · rw [he] at hl
      cases hl
    · refine ⟨hl, .lost _ (hphase.trans hphase'.symm) ho hr ?_ (.inl ?_)⟩
      · show (!b'.worker.abort.hasEnded && _) = false
        rw [Worker.hasEnded, hphase']
        rfl
      · show b.worker.abort.hasEnded = true
        rw [Worker.hasEnded, hphase]

/-- the end of a worker is reported on both sides -/
theorem watch (h : b.Twin b') (es : List Event) :
    ({ b with
        reported := true
        outgoing := b.outgoing ++ es } : Bench).Twin
      { b' with
        reported := true
        outgoing := b'.outgoing ++ es } := by
  cases h with
  | same hd => exact .same hd
  | lost _ hp ho _ hu hl =>
    refine .lost _ hp ?_ rfl hu hl
    show b.outgoing ++ es = b'.outgoing ++ es
    rw [ho]

theorem dismiss {s : Seat} {out : List Event} (h : (s.bench out).Twin b') :
    (s.doom.bench out).Twin b'.dismiss := by
  unfold Seat.doom
  by_cases he : s.worker.hasEnded = true
  · rw [if_pos he]
    exact .lost _ h.phase h.outgoing h.reported b'.isReachable_dismiss (.inl he)
  · rw [if_neg he]
    exact .lost _ h.phase h.outgoing h.reported b'.isReachable_dismiss (.inr ⟨rfl, rfl⟩)

end Twin

end Bench

theorem Seat.bench_tell (s : Seat) (out : List Event) (c : Command) :
    (s.tell c).bench out = (s.bench out).tell c := by
  unfold Seat.tell Bench.tell
  show (if s.worker.isReachable = true then _ else s).bench out
    = if s.worker.isReachable = true then _ else s.bench out
  split <;> rfl

/-! ## seats and benches -/

/-- the benches and timers of a workshop carry those of a picture, with the messages `ms` on their
way -/
structure Carries (x : Picture) (ms : List Message) (bench : WorkerId → Option Bench)
    (timers : List Timer) : Prop where
  numbered : x.Numbered
  seated : ∀ s ∈ x.seats, ∃ b, bench s.worker.id = some b ∧
    (s.bench (reportsOf s.worker.id ms)).Twin b
  empty : ∀ v, (∀ s ∈ x.seats, s.worker.id ≠ v) → bench v = none ∧ reportsOf v ms = []
  timers : ∀ t ∈ x.timers, t ∈ timers

namespace Carries

variable {x : Picture} {ms : List Message} {bench : WorkerId → Option Bench} {timers : List Timer}

theorem lt_of_seat (h : Carries x ms bench timers) {s : Seat} (hs : s ∈ x.seats) :
    s.worker.id < x.seats.length + 1 := by
  obtain ⟨i, hi⟩ := List.mem_iff_getElem?.mp hs
  have hlt := (List.getElem?_eq_some_iff.mp hi).1
  rw [h.numbered i s hi]
  exact Nat.succ_lt_succ hlt

/-- nobody sits behind the last seat -/
theorem next_empty (h : Carries x ms bench timers) :
    bench (x.seats.length + 1) = none ∧ reportsOf (x.seats.length + 1) ms = [] :=
  h.empty _ fun _ hs => Nat.ne_of_lt (h.lt_of_seat hs)

/-- something happens at the seats of a worker, and the same at its bench; reports of that worker
may come or go -/
theorem change (h : Carries x ms bench timers) (ms' : List Message) {v : WorkerId}
    {f : Seat → Seat} {g : Bench → Bench} (hf : ∀ s, s.worker.id = v → (f s).worker.id = v)
    (hg : ∀ s b, (s.bench (reportsOf v ms)).Twin b → ((f s).bench (reportsOf v ms')).Twin (g b))
    (hm : ∀ u, u ≠ v → reportsOf u ms' = reportsOf u ms)
    (hv : (∀ s ∈ x.seats, s.worker.id ≠ v) → reportsOf v ms' = []) :
    Carries (x.change v f) ms' (update bench v ((bench v).map g)) timers := by
  refine ⟨h.numbered.change hf, fun s hs => ?_, fun u hu => ?_, h.timers⟩
  · obtain ⟨s0, h0, rfl⟩ := List.mem_map.mp hs
    obtain ⟨b, hb, ht⟩ := h.seated s0 h0
    by_cases hid : s0.worker.id = v
    · rw [if_pos hid, hf s0 hid]
      rw [hid] at hb ht
      refine ⟨g b, ?_, hg s0 b ht⟩
      rw [update_self, hb]
      rfl
    · rw [if_neg hid]
      refine ⟨b, ?_, ?_⟩
      · rw [update_of_ne hid]
        exact hb
      · rw [hm _ hid]
        exact ht
  · have hu' : ∀ s ∈ x.seats, s.worker.id ≠ u := by
      intro s hs hsu
      have hmem : (if s.worker.id = v then f s else s) ∈ (x.change v f).seats :=
        List.mem_map_of_mem hs
      refine hu _ hmem ?_
      by_cases hid : s.worker.id = v
      · rw [if_pos hid, hf s hid, ← hid]
        exact hsu
      · rw [if_neg hid]
        exact hsu
    obtain ⟨hb, hr⟩ := h.empty u hu'
    by_cases huv : u = v
    · rw [huv] at hb hu' ⊢
      rw [update_self, hb]
      exact ⟨rfl, hv hu'⟩
    · rw [update_of_ne huv, hm u huv]
      exact ⟨hb, hr⟩

/-- the same with the messages as they were -/
theorem change_same (h : Carries x ms bench timers) {v : WorkerId} {f : Seat → Seat}
    {g : Bench → Bench} (hf : ∀ s, (f s).worker.id = s.worker.id)
    (hg : ∀ s out b, (s.bench out).Twin b → ((f s).bench out).Twin (g b)) :
    Carries (x.change v f) ms (update bench v ((bench v).map g)) timers :=
  h.change ms (fun s hs => (hf s).trans hs) (fun s b => hg s _ b) (fun _ _ => rfl)
    fun hv => (h.empty v hv).2

theorem hire (h : Carries x ms bench timers) :
    Carries (x.after (.hire (x.seats.length + 1))) ms
      (update bench (x.seats.length + 1)
        (some (.new (x.seats.length + 1) (x.clock * 1000000)))) timers := by
  obtain ⟨hb, hr⟩ := h.next_empty
  refine ⟨fun i s hs => ?_, fun s hs => ?_, fun u hu => ?_, h.timers⟩
  · have hs' : (x.seats ++ [_])[i]? = some s := hs
    rw [List.getElem?_append] at hs'
    split at hs'
    · exact h.numbered i s hs'
    · rename_i hi
      obtain ⟨hlt, hs'⟩ := List.getElem?_eq_some_iff.mp hs'
      have : i = x.seats.length := by
        have : i - x.seats.length < 1 := hlt
        omega
      subst this
      simp at hs'
      rw [← hs']
      rfl
  · rcases List.mem_append.mp hs with hs | hs
    · obtain ⟨b, hb', ht⟩ := h.seated s hs
      rw [update_of_ne (Nat.ne_of_lt (h.lt_of_seat hs))]
      exact ⟨b, hb', ht⟩
    · rw [List.mem_singleton.mp hs]
      refine ⟨_, update_self .., ?_⟩
      show (Seat.bench (reportsOf (x.seats.length + 1) ms) _).Twin _
      rw [hr]
      exact .same rfl
  · have hu' : ∀ s ∈ x.seats, s.worker.id ≠ u := fun s hs => hu s (List.mem_append_left _ hs)
    have hne : u ≠ x.seats.length + 1 := fun he =>
      hu _ (List.mem_append_right _ (List.mem_singleton_self _)) he.symm
    rw [update_of_ne hne]
    exact h.empty u hu'

theorem arm (h : Carries x ms bench timers) (t : Timer) :
    Carries (x.arm t) ms bench (timers ++ [t]) := by
  refine ⟨h.numbered, h.seated, h.empty, fun u hu => ?_⟩
  rcases List.mem_append.mp hu with hu | hu
  · exact List.mem_append_left _ (h.timers u hu)
  · exact List.mem_append_right _ hu

theorem disarm (h : Carries x ms bench timers) (id : TimerId) :
    Carries (x.disarm id) ms bench (timers.filter fun t => t.id != id) := by
  refine ⟨h.numbered, h.seated, h.empty, fun u hu => ?_⟩
  obtain ⟨hu, hid⟩ := List.mem_filter.mp hu
  exact List.mem_filter.mpr ⟨h.timers u hu, hid⟩

/-- an effect is carried out on both sides -/
theorem after (h : Carries x ms bench timers) {e : Effect}
    (hh : ∀ v, e.hires? = some v → v = x.seats.length + 1) :
    Carries (x.after e) ms (e.onBench (x.clock * 1000000) bench) (e.onTimers timers) := by
  cases e with
  | reply | deliver | warn => exact h
  | hire v =>
    obtain rfl := hh v rfl
    exact h.hire
  | tell v c =>
    refine h.change_same (fun s => ?_) fun s out b ht => ?_
    · unfold Seat.tell
      split <;> rfl
    · rw [s.bench_tell]
      exact ht.tell c
  | dismiss v =>
    refine h.change_same (fun s => ?_) fun s out b ht => ht.dismiss
    unfold Seat.doom
    split <;> rfl
  | arm id delay alarm => exact h.arm ⟨id, alarm, false⟩
  | armEvery id period alarm => exact h.arm ⟨id, alarm, true⟩
  | disarm id => exact h.disarm id

/-- whoever is gone stays gone -/
theorem parted_onBench (h : Carries x ms bench timers) {m : Moment} (now : Nat) {e : Effect}
    (hh : ∀ v, e.hires? = some v → v = x.seats.length + 1) (hp : m.Parted bench) :
    m.Parted (e.onBench now bench) := by
  intro u hu
  obtain ⟨b, hb, hr⟩ := hp u hu
  have touch (v : WorkerId) (g : Bench → Bench)
      (hg : b.worker.isReachable = false → (g b).worker.isReachable = false) :
      ∃ b', update bench v ((bench v).map g) u = some b' ∧ b'.worker.isReachable = false := by
    by_cases huv : u = v
    · subst huv
      rw [update_self, hb]
      exact ⟨g b, rfl, hg hr⟩
    · rw [update_of_ne huv]
      exact ⟨b, hb, hr⟩
  cases e with
  | hire v =>
    obtain rfl := hh v rfl
    have hne : u ≠ x.seats.length + 1 := by
      rintro rfl
      rw [h.next_empty.1] at hb
      cases hb
    show ∃ b', update bench _ _ u = some b' ∧ _
    rw [update_of_ne hne]
    exact ⟨b, hb, hr⟩
  | tell v c => exact touch v _ fun hr => by rw [Bench.isReachable_tell, hr]
  | dismiss v => exact touch v _ fun _ => b.isReachable_dismiss
  | _ => exact ⟨b, hb, hr⟩

end Carries

/-! ## everything that a message asks for -/

/-- what effects leave alone, and `n` more seats -/
structure Picture.Sequel (x y : Picture) (n : Nat) : Prop where
  clock : y.clock = x.clock
  pool : y.pool = x.pool
  held : y.held = x.held
  listening : y.listening = x.listening
  inbox : y.inbox = x.inbox
  length : y.seats.length = x.seats.length + n

theorem Picture.Sequel.trans {x y z : Picture} {n k : Nat} (h1 : x.Sequel y n)
    (h2 : y.Sequel z k) : x.Sequel z (n + k) where
  clock := h2.clock.trans h1.clock
  pool := h2.pool.trans h1.pool
  held := h2.held.trans h1.held
  listening := h2.listening.trans h1.listening
  inbox := h2.inbox.trans h1.inbox
  length := by rw [h2.length, h1.length, Nat.add_assoc]

theorem Picture.sequel_after (x : Picture) (e : Effect) :
    x.Sequel (x.after e) (hired [e]).length := by
  cases e with
  | hire => exact ⟨rfl, rfl, rfl, rfl, rfl, List.length_append⟩
  | tell | dismiss => exact ⟨rfl, rfl, rfl, rfl, rfl, List.length_map _⟩
  | _ => exact ⟨rfl, rfl, rfl, rfl, rfl, rfl⟩

/-- effects are carried out on both sides, one after the other -/
theorem Carries.perform {ms : List Message} (es : List Effect) {w : World} {m : Moment}
    {bench : WorkerId → Option Bench} {timers : List Timer} {n : Nat}
    (h : Carries w.picture ms bench timers) (hp : m.Parted bench)
    (hh : hired es = List.range' (w.picture.seats.length + 1) n) :
    Carries (es.foldl World.perform w).picture ms (stage w.nanos bench es) (wind timers es) ∧
      m.Parted (stage w.nanos bench es) ∧
      w.picture.Sequel (es.foldl World.perform w).picture n := by
  induction es generalizing w bench timers n with
  | nil =>
    have hn : n = 0 := by
      cases n with
      | zero => rfl
      | succ n => cases hh
    rw [hn]
    exact ⟨h, hp, rfl, rfl, rfl, rfl, rfl, rfl⟩
  | cons e es ih =>
    have hsplit : ∃ k, n = (hired [e]).length + k ∧
        (∀ v, e.hires? = some v → v = w.picture.seats.length + 1) ∧
        hired es = List.range' (w.picture.seats.length + (hired [e]).length + 1) k := by
      cases hv : e.hires? with
      | none =>
        have he : hired [e] = [] := List.filterMap_cons_none hv
        rw [show hired (e :: es) = hired es from List.filterMap_cons_none hv] at hh
        rw [he]
        exact ⟨n, (Nat.zero_add n).symm, fun _ h => (nomatch h), hh⟩
      | some v =>
        have he : hired [e] = [v] := List.filterMap_cons_some hv
        rw [show hired (e :: es) = v :: hired es from List.filterMap_cons_some hv] at hh
        rw [he]
        cases n with
        | zero => cases hh
        | succ n =>
          rw [List.range'_succ] at hh
          obtain ⟨hv', hes⟩ := List.cons.inj hh
          exact ⟨n, Nat.add_comm n 1, fun u hu => (Option.some.inj hu).symm.trans hv', hes⟩
    obtain ⟨k, rfl, hv, hes⟩ := hsplit
    have hq := w.picture.sequel_after e
    have hx := World.picture_perform h.numbered e
    have hc := h.after hv
    have hpe := h.parted_onBench w.nanos hv hp
    rw [← hx] at hq hc
    have hnow : (w.perform e).nanos = w.nanos := congrArg (· * 1000000) hq.clock
    obtain ⟨h1, h2, h3⟩ := ih hc hpe (by rw [hes, hq.length])
    rw [hnow] at h1 h2
    exact ⟨h1, h2, hq.trans h3⟩

end TaskPool
