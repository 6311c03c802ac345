import TaskPool.Proofs.Workshop
import TaskPool.Simulation.Run

/-!
# What a workshop shows of a world

A `World` has much that no `Workshop` knows of: what its actors have to do, where their handlers
wait, who sleeps until when, and who is told what.  Its `Picture` is the rest.

* `World.picture`           the pool, the workers at their seats, the timers and the messages
* `picture_wake` and its like   most of what happens in a world is not seen in its picture
* `picture_post`, `picture_modifySeat`, `picture_dropTimer`   what is seen, as changes of pictures
* `Picture.after`, `picture_perform`   what an effect makes of a picture
-/

namespace TaskPool

/-- the seat without the handler that runs there -/
def Seat.bare (s : Seat) : Seat := { s with job := none }

def PoolTimer.shown (t : PoolTimer) : Timer := ⟨t.id, t.alarm, t.repeats⟩

structure Picture where
  clock : Nat
  pool : Option Pool
  held : Bool
  listening : Bool
  inbox : List Message
  seats : List Seat
  timers : List Timer

namespace Picture

/-- a change at the seats of one worker -/
def change (x : Picture) (v : WorkerId) (f : Seat → Seat) : Picture :=
  { x with seats := x.seats.map fun s => if s.worker.id = v then f s else s }

/-- more messages for the pool -/
def receive (x : Picture) (ms : List Message) : Picture := { x with inbox := x.inbox ++ ms }

def disarm (x : Picture) (id : TimerId) : Picture :=
  { x with timers := x.timers.filter fun t => t.id != id }

def arm (x : Picture) (t : Timer) : Picture := { x with timers := x.timers ++ [t] }

theorem receive_nil (x : Picture) : x.receive [] = x := by
  unfold receive
  rw [List.append_nil]

theorem receive_receive (x : Picture) (ms ns : List Message) :
    (x.receive ms).receive ns = x.receive (ms ++ ns) := by
  unfold receive
  rw [List.append_assoc]

/-- workers are numbered by their seats -/
def Numbered (x : Picture) : Prop := ∀ i s, x.seats[i]? = some s → s.worker.id = i + 1

end Picture

namespace World

def picture (w : World) : Picture where
  clock := w.clock
  pool := w.pool
  held := w.held
  listening := w.listening
  inbox := w.inbox
  seats := w.seats.toList.map Seat.bare
  timers := w.timers.map PoolTimer.shown

variable (w : World)

theorem seats_picture (i : Nat) : w.picture.seats[i]? = (w.seats[i]?).map Seat.bare := by
  simp [picture]

@[simp] theorem picture_wake (a : Actor) : (w.wake a).picture = w.picture := by
  unfold wake
  split <;> rfl

@[simp] theorem picture_cancelSleep (s : Sleeper) : (w.cancelSleep s).picture = w.picture := rfl

@[simp] theorem picture_putGate (g : Gate) : (w.putGate g).picture = w.picture := rfl

/-- a change at a seat -/
theorem picture_modifySeat (i : Nat) (f g : Seat → Seat) (h : ∀ s, (f s).bare = g s.bare) :
    (w.modifySeat i f).picture = { w.picture with seats := w.picture.seats.modify i g } := by
  have hs : (w.seats.modify i f).toList.map Seat.bare
      = (w.seats.toList.map Seat.bare).modify i g := by
    refine List.ext_getElem? fun j => ?_
    rw [List.getElem?_map, List.getElem?_modify, List.getElem?_map, Array.getElem?_toList,
      Array.getElem?_modify, Array.getElem?_toList]
    by_cases hj : i = j
    · rw [if_pos hj]
      cases w.seats[j]? with
      | none => rfl
      | some s => simp [hj, h]
    · rw [if_neg hj]
      cases w.seats[j]? with
      | none => rfl
      | some s => simp [hj]
  show { w.picture with seats := (w.seats.modify i f).toList.map Seat.bare } = _
  rw [hs]
  rfl

theorem picture_modifySeat_same (i : Nat) (f : Seat → Seat) (h : ∀ s, (f s).bare = s.bare) :
    (w.modifySeat i f).picture = w.picture := by
  rw [w.picture_modifySeat i f id h, List.modify_id]

@[simp] theorem picture_setHold (i : Nat) (hold : Hold) :
    (w.setHold i hold).picture = w.picture := w.picture_modifySeat_same i _ fun _ => rfl

@[simp] theorem picture_release (name : String) : (w.release name).picture = w.picture := by
  unfold release
  dsimp only
  split <;> simp

@[simp] theorem picture_leaveHold (i : Nat) (hold : Hold) :
    (w.leaveHold i hold).picture = w.picture := by
  cases hold with
  | nothing => rfl
  | «until» deadline => exact w.picture_cancelSleep _
  | gate name granted =>
    cases granted with
    | true => exact w.picture_release name
    | false => rfl

/-! ## handlers -/

theorem picture_runActions (i : Nat) (as : List Action) :
    (runActions i as w).2.picture = w.picture := by
  induction as generalizing w with
  | nil => rfl
  | cons a as ih =>
    cases a with
    | skip => exact ih w
    | finish how => rfl
    | sleep ms =>
      unfold runActions
      split
      · exact ih w
      · exact picture_modifySeat_same _ i _ fun _ => rfl
    | acquire name =>
      unfold runActions
      dsimp only
      split
      · exact ih _
      · exact picture_modifySeat_same _ i _ fun _ => rfl

theorem picture_pollJob (i : Nat) : (w.pollJob i).2.picture = w.picture := by
  unfold pollJob
  split
  · rfl
  · split
    · rw [picture_runActions, picture_setHold]
    · rfl

theorem picture_startJob (i : Nat) (v : WorkerId) (t : TaskId) (kind : Kind) (payload : Json) :
    (w.startJob i v t kind payload).picture = w.picture := by
  have h := w.picture_modifySeat_same i (fun s =>
    { s with
      job := some
        { task := t
          actions := w.handlers.start kind payload v (w.runsOf t + 1)
            (HandlerTable.processValue (Rfc3339.write w.now) memory)
          hold := .nothing } }) fun _ => rfl
  unfold startJob
  dsimp only
  split
  · exact h
  · exact h

/-! ## timers and streams -/

theorem picture_modifyTimer (id : TimerId) (f : PoolTimer → PoolTimer)
    (h : ∀ t, (f t).shown = t.shown) : (w.modifyTimer id f).picture = w.picture := by
  have ht : (w.modifyTimer id f).timers.map PoolTimer.shown = w.timers.map PoolTimer.shown := by
    unfold modifyTimer
    rw [List.map_map]
    refine List.map_congr_left fun t _ => ?_
    show PoolTimer.shown (if t.id = id then f t else t) = t.shown
    split
    · exact h t
    · rfl
  show { w.picture with timers := (w.modifyTimer id f).timers.map PoolTimer.shown } = _
  rw [ht]
  rfl

@[simp] theorem picture_armTimer (id : TimerId) (deadline : Nat) :
    (w.armTimer id deadline).picture = w.picture := w.picture_modifyTimer id _ fun _ => rfl

theorem picture_dropTimer (id : TimerId) : (w.dropTimer id).picture = w.picture.disarm id := by
  have ht : (w.dropTimer id).timers.map PoolTimer.shown
      = (w.timers.map PoolTimer.shown).filter fun t => t.id != id := by
    unfold dropTimer
    rw [List.filter_map]
    rfl
  show { w.picture with timers := (w.dropTimer id).timers.map PoolTimer.shown } = _
  rw [ht]
  rfl

@[simp] theorem picture_modifyStream (caller : CallId) (f : Stream → Stream) :
    (w.modifyStream caller f).picture = w.picture := rfl

@[simp] theorem picture_answer (caller : CallId) (a : Answer) :
    (w.answer caller a).picture = w.picture := by
  cases a with
  | stats s =>
    unfold answer
    dsimp only
    split <;> rfl
  | _ => rfl

theorem picture_addTimer (id : TimerId) (delay : Duration) (repeats : Bool) (alarm : Alarm) :
    (w.addTimer id delay repeats alarm).picture = w.picture.arm ⟨id, alarm, repeats⟩ := by
  unfold addTimer
  rw [picture_wake]
  simp [picture, Picture.arm, PoolTimer.shown]

theorem picture_disarm (id : TimerId) : (w.disarm id).picture = w.picture.disarm id :=
  w.picture_dropTimer id

/-! ## messages -/

theorem picture_post (h : w.listening = true) (m : Message) :
    (w.post m).picture = w.picture.receive [m] := by
  unfold post
  rw [if_pos h]
  dsimp only
  split
  · rw [picture_wake]
    rfl
  · rfl

theorem picture_postEvents (h : w.listening = true) (v : WorkerId) (es : List Event) :
    (w.postEvents v es).picture = w.picture.receive (es.map (Message.report v)) := by
  induction es generalizing w with
  | nil => exact w.picture.receive_nil.symm
  | cons e es ih =>
    have hp := w.picture_post h (.report v e)
    have hl : (w.post (.report v e)).listening = true :=
      (congrArg Picture.listening hp).trans h
    show ((w.post (.report v e)).postEvents v es).picture = _
    rw [ih _ hl, hp, Picture.receive_receive]
    rfl

/-! ## workers -/

theorem picture_hire (v : WorkerId) : (w.hire v).picture
    = { w.picture with
        seats := w.picture.seats
          ++ [⟨.new v (w.picture.clock * 1000000), none, false, false⟩] } := by
  unfold hire
  rw [picture_wake, picture_wake]
  simp [picture, nanos, Seat.bare]

end World

/-- a change at one seat is a change at the seat of a worker -/
theorem Picture.Numbered.modify {x : Picture} (h : x.Numbered) (i : Nat) (f : Seat → Seat) :
    { x with seats := x.seats.modify i f } = x.change (i + 1) f := by
  have hs : x.seats.modify i f = x.seats.map fun s => if s.worker.id = i + 1 then f s else s := by
    refine List.ext_getElem? fun j => ?_
    rw [List.getElem?_modify, List.getElem?_map]
    cases hj : x.seats[j]? with
    | none => simp
    | some s =>
      have hid := h j s hj
      by_cases hij : i = j
      · simp [hij, hid]
      · have hne : j ≠ i := Ne.symm hij
        simp [hij, hid, hne]
  rw [hs]
  rfl

theorem Picture.Numbered.change {x : Picture} (h : x.Numbered) {v : WorkerId} {f : Seat → Seat}
    (hf : ∀ s, s.worker.id = v → (f s).worker.id = v) : (x.change v f).Numbered := by
  intro i s hs
  have hs' : (x.seats.map fun s => if s.worker.id = v then f s else s)[i]? = some s := hs
  rw [List.getElem?_map] at hs'
  obtain ⟨s0, h0, rfl⟩ := Option.map_eq_some_iff.mp hs'
  have hid := h i s0 h0
  by_cases hv : s0.worker.id = v
  · rw [if_pos hv, hf s0 hv, ← hv]
    exact hid
  · rw [if_neg hv]
    exact hid

/-! ## effects -/

/-- the command arrives unless the worker has ended or was let go -/
def Seat.tell (c : Command) (s : Seat) : Seat :=
  if s.worker.isReachable then { s with worker := s.worker.send c } else s

/-- the worker is to be aborted unless it has ended -/
def Seat.doom (s : Seat) : Seat := if s.worker.hasEnded then s else { s with doomed := true }

namespace Picture

/-- the picture when an effect was carried out -/
def after (x : Picture) : Effect → Picture
  | .hire v =>
    { x with seats := x.seats ++ [⟨.new v (x.clock * 1000000), none, false, false⟩] }
  | .tell v c => x.change v (Seat.tell c)
  | .dismiss v => x.change v Seat.doom
  | .arm id _ alarm => x.arm ⟨id, alarm, false⟩
  | .armEvery id _ alarm => x.arm ⟨id, alarm, true⟩
  | .disarm id => x.disarm id
  | _ => x

theorem change_absent {x : Picture} {v : WorkerId} (f : Seat → Seat)
    (h : ∀ s ∈ x.seats, s.worker.id ≠ v) : x.change v f = x := by
  have hs : (x.seats.map fun s => if s.worker.id = v then f s else s) = x.seats.map id :=
    List.map_congr_left fun s hs => if_neg (h s hs)
  unfold change
  rw [hs, List.map_id]

end Picture

namespace World

theorem id_of_seatOf? {w : World} {v : WorkerId} {i : Nat} (h : w.seatOf? v = some i) :
    ∃ s, w.seats[i]? = some s ∧ s.worker.id = v := by
  have hi := List.find?_some h
  split at hi
  · rename_i s hs
    exact ⟨s, hs, by simpa using hi⟩
  · cases hi

theorem id_ne_of_seatOf? {w : World} {v : WorkerId} (h : w.seatOf? v = none) {i : Nat} {s : Seat}
    (hs : w.seats[i]? = some s) : s.worker.id ≠ v := by
  have hi := List.find?_eq_none.mp h i (by
    obtain ⟨hlt, _⟩ := Array.getElem?_eq_some_iff.mp hs
    exact List.mem_reverse.mpr (List.mem_range.mpr hlt))
  rw [hs] at hi
  simpa using hi

/-- whatever is done at the seat of a worker is a change at the seats of that worker -/
theorem picture_at_seat {w : World} (hn : w.picture.Numbered) {v : WorkerId} {f : Seat → Seat}
    (op : Nat → World)
    (h : ∀ i, (op i).picture = { w.picture with seats := w.picture.seats.modify i f }) :
    (match w.seatOf? v with
      | some i => op i
      | none => w).picture = w.picture.change v f := by
  cases hv : w.seatOf? v with
  | some i =>
    obtain ⟨s, hs, hid⟩ := id_of_seatOf? hv
    have hi : s.bare.worker.id = i + 1 := hn i s.bare (by rw [w.seats_picture, hs]; rfl)
    dsimp only
    rw [h i, hn.modify, ← hi]
    exact congrArg (fun v => w.picture.change v f) hid
  | none =>
    refine (Picture.change_absent f fun s hs => ?_).symm
    obtain ⟨i, hi⟩ := List.mem_iff_getElem?.mp hs
    rw [w.seats_picture] at hi
    obtain ⟨s', hs', rfl⟩ := Option.map_eq_some_iff.mp hi
    exact id_ne_of_seatOf? hv (s := s') hs'

theorem modify_at {seats : List Seat} {i : Nat} {s : Seat} (f : Seat → Seat)
    (h : seats[i]? = some s) : seats.modify i f = seats.modify i fun _ => f s := by
  refine List.ext_getElem? fun j => ?_
  rw [List.getElem?_modify, List.getElem?_modify]
  by_cases hij : i = j
  · rw [← hij, h]
    rfl
  · simp [hij]

/-- only what stands at the seat counts -/
theorem modify_congr {w : World} {i : Nat} {f g : Seat → Seat}
    (h : ∀ s, w.seats[i]? = some s → f s.bare = g s.bare) :
    w.picture.seats.modify i f = w.picture.seats.modify i g := by
  refine List.ext_getElem? fun j => ?_
  rw [List.getElem?_modify, List.getElem?_modify, w.seats_picture]
  cases hj : w.seats[j]? with
  | none => rfl
  | some s =>
    by_cases hij : i = j
    · rw [← hij] at hj
      simp [hij, h s hj]
    · simp [hij]

theorem modify_absent {w : World} {i : Nat} {f : Seat → Seat}
    (h : ∀ s, w.seats[i]? = some s → f s.bare = s.bare) :
    w.picture.seats.modify i f = w.picture.seats := by
  rw [modify_congr (g := id) h, List.modify_id]

theorem picture_send (w : World) (i : Nat) (c : Command) : (w.send i c).2.picture
    = { w.picture with seats := w.picture.seats.modify i (Seat.tell c) } := by
  unfold send
  cases hs : w.seats[i]? with
  | none =>
    rw [modify_absent fun s h => by rw [hs] at h; cases h]
  | some s =>
    by_cases hr : s.worker.isReachable = true
    · have h := modify_congr (w := w) (i := i) (f := Seat.tell c)
        (g := fun s => { s with worker := s.worker.send c }) fun s' h => by
          rw [hs] at h
          cases h
          exact if_pos hr
      dsimp only
      rw [if_pos hr, picture_wake, h]
      exact w.picture_modifySeat i _ _ fun _ => rfl
    · have h := modify_absent (w := w) (i := i) (f := Seat.tell c) fun s' h => by
          rw [hs] at h
          cases h
          exact if_neg hr
      dsimp only
      rw [if_neg hr, h]

theorem picture_abort (w : World) (i : Nat) : (w.abort i).picture
    = { w.picture with seats := w.picture.seats.modify i Seat.doom } := by
  unfold abort
  cases hs : w.seats[i]? with
  | none =>
    rw [modify_absent fun s h => by rw [hs] at h; cases h]
  | some s =>
    by_cases he : s.worker.hasEnded = true
    · have h := modify_absent (w := w) (i := i) (f := Seat.doom) fun s' h => by
          rw [hs] at h
          cases h
          exact if_pos he
      dsimp only
      rw [if_pos he, h]
    · have h := modify_congr (w := w) (i := i) (f := Seat.doom)
        (g := fun s => { s with doomed := true }) fun s' h => by
          rw [hs] at h
          cases h
          exact if_neg he
      dsimp only
      rw [if_neg he, picture_wake, h]
      exact w.picture_modifySeat i _ _ fun _ => rfl

/-- what an effect makes of a picture -/
theorem picture_perform {w : World} (hn : w.picture.Numbered) (e : Effect) :
    (w.perform e).picture = w.picture.after e := by
  cases e with
  | reply caller a => exact w.picture_answer caller a
  | deliver t o => rfl
  | hire v => exact w.picture_hire v
  | tell v c => exact picture_at_seat hn (fun i => (w.send i c).2) fun i => w.picture_send i c
  | dismiss v => exact picture_at_seat hn w.abort w.picture_abort
  | arm id delay alarm => exact w.picture_addTimer id delay false alarm
  | armEvery id period alarm => exact w.picture_addTimer id period true alarm
  | disarm id => exact w.picture_disarm id
  | warn what => rfl

end World

end TaskPool
