import TaskPool.Proofs.Winding

/-!
# A pool at work, by the clock

A `Workday` is a workshop with a clock.  Timers go off when their time has come or later, messages
are handled any time after they were sent, and every call has a number of its own.

* `Workday.hear`       the pool handles a message, and its timers are armed for their times
* `Workday.Step`       what can happen, with the message that is handled, if one is
* `Workday.Reachable`  what can come of a new pool
* `Workday.Path`       what can happen from one workday on, with the messages in their order
* `Reachable.shop`     a reachable workday is a reachable workshop

Why the pool can tell more than `Admits` says: benches whose end was not reported, and timers, hold
on to the pool as well as the world outside does.
-/

namespace TaskPool

open Function Relation

/-! ## when timers go off -/

def Effect.onDue (clock : Nat) (due : TimerId → Nat) : Effect → TimerId → Nat
  | .arm i d _ | .armEvery i d _ => update due i (clock + d.nanos)
  | _ => due

def appoint (clock : Nat) (due : TimerId → Nat) (es : List Effect) : TimerId → Nat :=
  es.foldl (Effect.onDue clock) due

theorem appoint_append (clock : Nat) (due : TimerId → Nat) (es fs : List Effect) :
    appoint clock due (es ++ fs) = appoint clock (appoint clock due es) fs := List.foldl_append

theorem appoint_armless {clock : Nat} {es : List Effect} (h : ∀ e ∈ es, e.Armless)
    (due : TimerId → Nat) : appoint clock due es = due := by
  induction es with
  | nil => rfl
  | cons e es ih =>
    have he : e.onDue clock due = due := by
      have := h e (List.mem_cons_self ..)
      cases e with
      | arm | armEvery => cases this
      | _ => rfl
    show appoint clock (e.onDue clock due) es = due
    rw [he]
    exact ih fun x hx => h x (List.mem_cons_of_mem e hx)

/-! ## messages on their way -/

/-- a message is taken out of where it waits to be handled -/
inductive Workshop.Takes (W : Workshop) : Message → Workshop → Prop where
  | call (caller : CallId) (request : Request) (hd : W.Draws request) :
      Takes W (.call caller request) W
  | report (w : WorkerId) (b : Bench) (e : Event) (rest : List Event) (hb : W.bench w = some b)
      (ho : b.outgoing = e :: rest) : Takes W (.report w e) (W.setBench w (b.pop rest))
  | alarm (a : Alarm) (ha : a ∈ W.rung) : Takes W (.ring a) { W with rung := W.rung.erase a }

theorem Workshop.Takes.step {W V : Workshop} {msg : Message} (h : W.Takes msg V) {m : Moment}
    (hm : W.Admits m) (now : Nat) : W.Step (V.deliver m now msg) := by
  cases h with
  | call caller request hd => exact .call m now caller request hm hd
  | report w b e rest hb ho => exact .report m now w b e rest hm hb ho
  | alarm a ha => exact .alarm m now a hm ha

theorem Workshop.Takes.pool {W V : Workshop} {msg : Message} (h : W.Takes msg V) :
    V.pool = W.pool ∧ V.timers = W.timers ∧ V.history = W.history ∧ V.held = W.held := by
  cases h <;> exact ⟨rfl, rfl, rfl, rfl⟩

/-! ## the workday -/

structure Workday where
  shop : Workshop
  /-- in nanoseconds -/
  clock : Nat
  /-- when the armed timers go off -/
  due : TimerId → Nat
  /-- the calls so far -/
  callers : List CallId

def Message.callers : Message → List CallId
  | .call caller _ => [caller]
  | _ => []

namespace Workday

def new (c : Config) : Workday where
  shop := .new c
  clock := 0
  due := fun _ => 0
  callers := []

/-- the pool handles a message that was taken out of where it waited, which left `W` -/
def hear (D : Workday) (W : Workshop) (m : Moment) (msg : Message) : Workday where
  shop := W.deliver m D.clock msg
  clock := D.clock
  due := appoint D.clock D.due (W.pool.handle m msg).outbox
  callers := D.callers ++ msg.callers

/-- what the pool may believe of its surroundings -/
structure Trusts (D : Workday) (m : Moment) : Prop where
  admits : D.shop.Admits m
  timers : D.shop.timers ≠ [] → m.attached = true
  benches : ∀ w b, D.shop.bench w = some b → b.reported = false → m.attached = true

inductive Step (D : Workday) : Option Message → Workday → Prop where
  | hear (m : Moment) (msg : Message) (W : Workshop) (hm : D.Trusts m) (ht : D.shop.Takes msg W)
      (hc : ∀ caller ∈ msg.callers, caller ∉ D.callers) : Step D (some msg) (D.hear W m msg)
  /-- when a timer that repeats goes off next is left open -/
  | ring (t : Timer) (next : Nat) (ht : t ∈ D.shop.timers) (hd : D.due t.id ≤ D.clock) :
      Step D none
        { D with
          shop :=
            { D.shop with
              timers := if t.repeats then D.shop.timers else
                D.shop.timers.filter fun x => x.id != t.id
              rung := D.shop.rung ++ [t.alarm] }
          due := if t.repeats then update D.due t.id next else D.due }
  | turn (w : WorkerId) (b b' : Bench) (hb : D.shop.bench w = some b) (ht : b.Turn b') :
      Step D none { D with shop := D.shop.setBench w b' }
  | letGo : Step D none { D with shop := { D.shop with held := false } }
  | pass (clock : Nat) (hc : D.clock ≤ clock) : Step D none { D with clock := clock }

inductive Reachable (c : Config) : Workday → Prop where
  | new : Reachable c (.new c)
  | step {D E : Workday} {o : Option Message} (h : Reachable c D) (hs : Step D o E) : Reachable c E

/-- `ms` are the messages that were handled on the way -/
inductive Path (D : Workday) : List Message → Workday → Prop where
  | refl : Path D [] D
  | step {E F : Workday} {ms : List Message} {o : Option Message} (h : Path D ms E)
      (hs : Step E o F) : Path D (ms ++ o.toList) F

variable {c : Config} {D E F : Workday} {o : Option Message} {msg : Message}

theorem Path.trans {ms ns : List Message} (h : D.Path ms E) (h' : E.Path ns F) :
    D.Path (ms ++ ns) F := by
  induction h' with
  | refl =>
    rw [List.append_nil]
    exact h
  | step _ hs ih =>
    rw [← List.append_assoc]
    exact ih.step hs

theorem Reachable.path (h : Reachable c D) {ms : List Message} (hp : D.Path ms E) :
    Reachable c E := by
  induction hp with
  | refl => exact h
  | step _ hs ih => exact ih.step hs

/-- a message is handled at some moment, and in no time -/
theorem Step.heard (h : D.Step (some msg) E) :
    ∃ m, E.shop.pool = { D.shop.pool.handle m msg with outbox := [] } ∧
      E.shop.history = D.shop.history ++ (D.shop.pool.handle m msg).outbox ∧ E.clock = D.clock := by
  cases h with
  | hear m _ W hm ht =>
    obtain ⟨hpool, _, hhist, _⟩ := ht.pool
    rw [← hpool, ← hhist]
    exact ⟨m, rfl, rfl, rfl⟩

/-! ## the workshop behind it -/

/-- time passes unnoticed; whatever else happens, happens in the workshop -/
theorem Step.shop (h : D.Step o E) :
    D.shop.Step E.shop ∨ (E.shop = D.shop ∧ E.due = D.due ∧ D.clock ≤ E.clock ∧ o = none) := by
  cases h with
  | hear m msg W hm ht => exact .inl (ht.step hm.admits D.clock)
  | ring t next ht hd => exact .inl (.ring t ht)
  | turn w b b' hb ht => exact .inl (.turn w b b' hb ht)
  | letGo => exact .inl .letGo
  | pass clock hc => exact .inr ⟨rfl, rfl, hc, rfl⟩

theorem Reachable.shop (h : Reachable c D) : Workshop.Reachable c D.shop := by
  induction h with
  | new => exact .new
  | step _ hs ih =>
    rcases hs.shop with hw | ⟨hw, _⟩
    · exact ih.step hw
    · rw [hw]
      exact ih

theorem Path.shop {ms : List Message} (h : D.Path ms E) :
    ReflTransGen Workshop.Step D.shop E.shop := by
  induction h with
  | refl => exact .refl
  | step _ hs ih =>
    rcases hs.shop with hw | ⟨hw, _⟩
    · exact ih.tail hw
    · rw [hw]
      exact ih

theorem Step.held (h : D.Step o E) (hh : E.shop.held = true) : D.shop.held = true := by
  rcases h.shop with hw | ⟨hw, _⟩
  · exact hw.held hh
  · rwa [hw] at hh

theorem Step.clock (h : D.Step o E) : D.clock ≤ E.clock := by
  cases h with
  | pass clock hc => exact hc
  | _ => exact Nat.le_refl _

theorem Path.clock {ms : List Message} (h : D.Path ms E) : D.clock ≤ E.clock := by
  induction h with
  | refl => exact Nat.le_refl _
  | step _ hs ih => exact Nat.le_trans ih hs.clock

end Workday

end TaskPool
