import TaskPool.Proofs.Picture
import Mathlib.Logic.Relation

/-!
# What the turns of the actors show

An actor that has its turn goes on until it has to wait.  Of all that it does, little shows in the
picture of its world, and most of that happens at one seat.

* `Seat.Turn`          what a worker and its watcher do by themselves
* `World.Stir`         what any actor but the pool does at once, as far as it shows
* `stirs_runWorker`, `runWatcher`, `runTimer`, `runStream`   a turn is nothing else
* `World.Enduring`     what every stir and the pool keep
* `Enduring.advance`   is kept while time passes
* `World.Ages`         the same workers sit at the same seats, and nobody was let go or doomed
* `Stir.ages`          as far as the actors by themselves are concerned

Why the pool is left out: what it does depends on its state, and a world may do without one.
-/

namespace TaskPool

open Relation

/-! ## seats -/

theorem Worker.id_of_step {w : Worker} {now memory : Nat} {r : Worker × List Event}
    (h : w.step now memory = some r) : r.1.id = w.id ∧ r.1.attached = w.attached := by
  have hobey (v : Worker) (c : Command) :
      (v.obey now memory c).1.id = v.id ∧ (v.obey now memory c).1.attached = v.attached := by
    cases c <;> exact ⟨rfl, rfl⟩
  have hover (v : Worker) (c : Command) : (v.overhear now memory c).1.id = v.id ∧
      (v.overhear now memory c).1.attached = v.attached := by
    cases c <;> exact ⟨rfl, rfl⟩
  unfold step at h
  split at h
  · cases h
    exact ⟨rfl, rfl⟩
  · split at h
    · cases h
      exact hobey _ _
    · cases h
      exact hobey _ _
    · split at h
      · cases h
      · cases h
        exact ⟨rfl, rfl⟩
  · split at h
    · cases h
      exact hover _ _
    · cases h
  · cases h

theorem Worker.id_finish (w : Worker) (now : Nat) (how : Ended) :
    (w.finish now how).1.id = w.id ∧ (w.finish now how).1.attached = w.attached := by
  unfold finish
  split
  · cases how <;> exact ⟨rfl, rfl⟩
  · exact ⟨rfl, rfl⟩

theorem Worker.id_abort (w : Worker) : w.abort.id = w.id ∧ w.abort.attached = w.attached := by
  unfold abort
  split <;> exact ⟨rfl, rfl⟩

namespace Seat

/-- what a worker and its watcher do by themselves, with what they report: nobody asked for the end
of a worker that goes on -/
inductive Turn (now : Nat) (s : Seat) : List Event → Seat → Prop where
  | step (r : Worker × List Event) (hd : s.doomed = false)
      (hr : s.worker.step now World.memory = some r) : Turn now s r.2 { s with worker := r.1 }
  | finish (t : TaskId) (how : Ended) (hd : s.doomed = false) (hp : s.worker.phase = .running t) :
      Turn now s (s.worker.finish now how).2 { s with worker := (s.worker.finish now how).1 }
  | abort (hd : s.doomed = true) (he : s.worker.hasEnded = false) :
      Turn now s [] { s with worker := s.worker.abort }
  | watch (how : Ending) (hp : s.worker.phase = .ended how) (hr : s.reported = false) :
      Turn now s how.events { s with reported := true }

/-- who sits there, whether he was let go and whether he is to be ended is the same, and an end is
an end -/
structure Stays (s s' : Seat) : Prop where
  id : s'.worker.id = s.worker.id
  attached : s'.worker.attached = s.worker.attached
  doomed : s'.doomed = s.doomed
  ended : s.worker.hasEnded = true → s'.worker.hasEnded = true

theorem Stays.refl (s : Seat) : s.Stays s := ⟨rfl, rfl, rfl, fun he => he⟩

theorem Stays.trans {s s' s'' : Seat} (h : s.Stays s') (h' : s'.Stays s'') : s.Stays s'' :=
  ⟨h'.id.trans h.id, h'.attached.trans h.attached, h'.doomed.trans h.doomed, h'.ended ∘ h.ended⟩

theorem Turn.stays {now : Nat} {s s' : Seat} {es : List Event} (h : s.Turn now es s') :
    s.Stays s' := by
  cases h with
  | step r _ hr =>
    obtain ⟨hid, hattached⟩ := Worker.id_of_step hr
    refine ⟨hid, hattached, rfl, fun he => ?_⟩
    unfold Worker.hasEnded at he
    split at he
    · rename_i hp
      rw [Worker.step_of_ended hp] at hr
      cases hr
    · cases he
  | finish t how _ hp =>
    obtain ⟨hid, hattached⟩ := s.worker.id_finish now how
    refine ⟨hid, hattached, rfl, fun he => ?_⟩
    unfold Worker.hasEnded at he
    rw [hp] at he
    cases he
  | abort _ he =>
    obtain ⟨hid, hattached⟩ := s.worker.id_abort
    exact ⟨hid, hattached, rfl, fun he' => absurd (he.symm.trans he') Bool.false_ne_true⟩
  | watch => exact ⟨rfl, rfl, rfl, id⟩

end Seat

/-! ## stirs -/

namespace World

theorem kept_post (w : World) (m : Message) :
    (w.post m).pool = w.pool ∧ (w.post m).seats = w.seats := by
  unfold post wake
  split
  · dsimp only
    split
    · split <;> exact ⟨rfl, rfl⟩
    · exact ⟨rfl, rfl⟩
  · exact ⟨rfl, rfl⟩

theorem kept_postEvents (w : World) (v : WorkerId) (es : List Event) :
    (w.postEvents v es).pool = w.pool ∧ (w.postEvents v es).seats = w.seats := by
  induction es generalizing w with
  | nil => exact ⟨rfl, rfl⟩
  | cons e es ih =>
    have hpost := w.kept_post (.report v e)
    obtain ⟨hp, hs⟩ := ih (w.post (.report v e))
    exact ⟨hp.trans hpost.1, hs.trans hpost.2⟩

theorem picture_of_seats {w w' : World} (h : w'.seats = w.seats) :
    w'.picture.seats = w.picture.seats :=
  congrArg (fun seats : Array Seat => seats.toList.map Seat.bare) h

/-- what any actor but the pool does at once, as far as it shows; messages show only if somebody
listens -/
inductive Stir (w w' : World) : Prop where
  | same (h : w'.picture = w.picture)
  | turn (i : Nat) (s s' : Seat) (es : List Event) (hs : w.picture.seats[i]? = some s)
      (ht : s.Turn w.nanos es s') (hp : w'.pool = w.pool)
      (hseats : w'.picture.seats = w.picture.seats.modify i fun _ => s')
      (hw : w.listening = true → w'.picture
        = ({ w.picture with seats := w.picture.seats.modify i fun _ => s' } : Picture).receive
            (es.map (.report s.worker.id)))
  | ring (t : PoolTimer) (ht : t ∈ w.timers) (hp : w'.pool = w.pool) (hseats : w'.seats = w.seats)
      (hw : w.listening = true → w'.picture
        = (if t.repeats then w.picture else w.picture.disarm t.id).receive [.ring t.alarm])
  | drop (id : TimerId) (h : w'.picture = w.picture.disarm id)
  | ask (caller : CallId) (hp : w'.pool = w.pool) (hseats : w'.seats = w.seats)
      (hw : w.listening = true → w'.picture = w.picture.receive [.call caller .stats])

abbrev Stirs : World → World → Prop := ReflTransGen Stir

theorem Stirs.same {w w' : World} (h : w'.picture = w.picture) : Stirs w w' := .single (.same h)

/-- what is at each place is still there -/
def Ages (w w' : World) : Prop :=
  ∀ i : Nat, Option.Rel Seat.Stays w.picture.seats[i]? w'.picture.seats[i]?

section
variable {w w' w'' : World}

theorem Ages.of_seats (h : w'.picture.seats = w.picture.seats) : Ages w w' := by
  intro i
  rw [h]
  cases w.picture.seats[i]? with
  | none => exact .none
  | some s => exact .some (.refl s)

theorem Ages.trans (h : Ages w w') (h' : Ages w' w'') : Ages w w'' := by
  intro i
  have hi := h i
  have hi' := h' i
  generalize w.picture.seats[i]? = a at hi
  generalize w'.picture.seats[i]? = b at hi hi'
  generalize w''.picture.seats[i]? = d at hi'
  cases hi with
  | none =>
    cases hi'
    exact .none
  | some hs =>
    cases hi' with
    | some hs' => exact .some (hs.trans hs')

theorem Ages.some {i : Nat} {s : Seat} (h : Ages w w') (hs : w.picture.seats[i]? = some s) :
    ∃ s', w'.picture.seats[i]? = some s' ∧ s.Stays s' := by
  have hi := h i
  rw [hs] at hi
  generalize w'.picture.seats[i]? = b at hi ⊢
  cases hi with
  | some hst => exact ⟨_, rfl, hst⟩

theorem Ages.of_some {i : Nat} {s' : Seat} (h : Ages w w') (hs : w'.picture.seats[i]? = .some s') :
    ∃ s, w.picture.seats[i]? = .some s ∧ s.Stays s' := by
  have hi := h i
  rw [hs] at hi
  generalize w.picture.seats[i]? = b at hi ⊢
  cases hi with
  | some hst => exact ⟨_, rfl, hst⟩

/-- **no actor lets a worker go, dooms one or takes a seat** -/
theorem Stir.ages (h : Stir w w') : Ages w w' := by
  cases h with
  | same h => exact .of_seats (congrArg Picture.seats h)
  | turn i s s' es hs ht _ hseats =>
    intro j
    rw [hseats, List.getElem?_modify]
    by_cases hij : i = j
    · subst hij
      simp only [hs, if_true]
      exact .some ht.stays
    · simp only [hij, if_false]
      cases w.picture.seats[j]? with
      | none => exact .none
      | some s => exact .some (.refl s)
  | ring t _ _ hseats => exact .of_seats (picture_of_seats hseats)
  | drop id h => exact .of_seats ((congrArg Picture.seats h).trans rfl)
  | ask caller _ hseats => exact .of_seats (picture_of_seats hseats)

theorem Stir.pool (h : Stir w w') : w'.pool = w.pool := by
  cases h with
  | same h => exact congrArg Picture.pool h
  | turn i s s' es _ _ hp => exact hp
  | ring t _ hp => exact hp
  | drop id h => exact congrArg Picture.pool h
  | ask caller hp => exact hp

theorem Stirs.ages (h : Stirs w w') : Ages w w' := by
  induction h with
  | refl => exact .of_seats rfl
  | tail _ hs ih => exact ih.trans hs.ages

/-! ## workers -/

/-- nobody asked for the end of the worker at a seat -/
def Safe (i : Nat) (w : World) : Prop := ∀ s, w.picture.seats[i]? = some s → s.doomed = false

theorem Safe.stirs {i : Nat} (h : w.Safe i) (hs : Stirs w w') : w'.Safe i := by
  intro s' hs'
  obtain ⟨s, hold, hst⟩ := hs.ages.of_some hs'
  exact hst.doomed.trans (h s hold)

theorem stir_settleStep {i : Nat} {s : Seat} {r : Worker × List Event}
    (hs : w.picture.seats[i]? = some s) (ht : s.Turn w.nanos r.2 { s with worker := r.1 }) :
    Stir w (w.settleStep i r) := by
  have hmodify : (w.modifySeat i fun s => { s with worker := r.1 }).picture
      = { w.picture with seats := w.picture.seats.modify i fun _ => { s with worker := r.1 } } := by
    rw [w.picture_modifySeat i _ (fun s => { s with worker := r.1 }) fun _ => rfl, modify_at _ hs]
  have hid : r.1.id = s.worker.id := ht.stays.id
  refine .turn i s _ r.2 hs ht (kept_postEvents _ _ _).1 ?_ fun hl => ?_
  · exact (picture_of_seats (kept_postEvents _ _ _).2).trans (congrArg Picture.seats hmodify)
  · have hl' : (w.modifySeat i fun s => { s with worker := r.1 }).listening = true := hl
    unfold settleStep
    rw [picture_postEvents _ hl', hmodify, hid]

theorem stirs_stepWorker {i : Nat} (hsafe : w.Safe i) : Stirs w (w.stepWorker i).2 := by
  unfold stepWorker
  cases hi : w.seats[i]? with
  | none => exact .refl
  | some s =>
    dsimp only
    cases hr : s.worker.step w.nanos memory with
    | none => exact .refl
    | some r =>
      have hs : w.picture.seats[i]? = some s.bare := by rw [w.seats_picture, hi]; rfl
      have hturn : s.bare.Turn w.nanos r.2 { s.bare with worker := r.1 } :=
        .step r (hsafe s.bare hs) hr
      have hstir := stir_settleStep hs hturn
      dsimp only
      split
      · exact (ReflTransGen.single hstir).tail (.same (picture_startJob _ _ _ _ _ _))
      · exact .single hstir

theorem isRunning_iff {i : Nat} : w.isRunning i = true ↔
    ∃ s t, w.picture.seats[i]? = some s ∧ s.worker.phase = .running t := by
  rw [w.seats_picture]
  unfold isRunning
  cases w.seats[i]? with
  | none => simp
  | some s =>
    cases hp : s.worker.phase <;> simp [Seat.bare, hp]

theorem stirs_finishJob {i : Nat} (how : Ended) (hsafe : w.Safe i) (hrun : w.isRunning i = true) :
    Stirs w (w.finishJob i how) := by
  unfold finishJob
  cases hi : w.seats[i]? with
  | none => exact .refl
  | some s =>
    obtain ⟨s', t, hs', hp⟩ := isRunning_iff.mp hrun
    have hs : w.picture.seats[i]? = some s.bare := by rw [w.seats_picture, hi]; rfl
    rw [hs] at hs'
    cases hs'
    have hx : (w.modifySeat i fun s => { s with job := none }).picture = w.picture :=
      w.picture_modifySeat_same i _ fun _ => rfl
    have hturn : s.bare.Turn w.nanos (s.worker.finish w.nanos how).2
        { s.bare with worker := (s.worker.finish w.nanos how).1 } :=
      .finish t how (hsafe s.bare hs) hp
    exact (Stirs.same hx).tail (stir_settleStep (hx ▸ hs) hturn)

theorem stirs_goOn {i : Nat} (fuel : Nat) (hsafe : w.Safe i) : Stirs w (goOn i fuel w) := by
  induction fuel generalizing w with
  | zero => exact .refl
  | succ fuel ih =>
    have onward {v v' : World} {moved : Bool} (h : Stirs w v)
        (hv : v.stepWorker i = (moved, v')) : Stirs w v' := by
      have hstep := stirs_stepWorker (hsafe.stirs h)
      rw [hv] at hstep
      exact h.trans hstep
    -- it takes one step after the other until one does not move it
    have onwards {v v' : World} (h : Stirs w v) (hv : v.stepWorker i = (true, v')) :
        Stirs w (goOn i fuel v') :=
      (onward h hv).trans (ih (hsafe.stirs (onward h hv)))
    unfold goOn
    split
    · rename_i hrun
      have hx := w.picture_pollJob i
      rcases hw : w.pollJob i with ⟨how, w'⟩
      rw [hw] at hx
      cases how with
      | some how =>
        have hrun' : w'.isRunning i = true := by
          rw [isRunning_iff, hx]
          exact isRunning_iff.mp hrun
        have hpolled : Stirs w w' := .same hx
        have hfinished := hpolled.trans (stirs_finishJob how (hsafe.stirs hpolled) hrun')
        exact hfinished.trans (ih (hsafe.stirs hfinished))
      | none =>
        have hpolled : Stirs w w' := .same hx
        dsimp only
        split
        · rename_i hv
          exact onwards hpolled hv
        · rename_i hv
          exact onward hpolled hv
    · split
      · rename_i hv
        exact onwards .refl hv
      · rename_i hv
        exact onward .refl hv

/-- the worker at a seat that is doomed is ended -/
theorem stir_abortNow {i : Nat} {s : Seat} (hi : w.seats[i]? = some s) (hd : s.doomed = true)
    (he : s.worker.hasEnded = false) : Stir w (w.abortNow i) := by
  have hs : w.picture.seats[i]? = some s.bare := by rw [w.seats_picture, hi]; rfl
  have hx : (w.abortNow i).picture = { w.picture with
      seats := w.picture.seats.modify i fun _ => { s.bare with worker := s.worker.abort } } := by
    unfold abortNow
    rw [picture_modifySeat _ i _ (fun s => { s with worker := s.worker.abort }) fun _ => rfl,
      picture_leaveHold, modify_at _ hs]
    rfl
  exact .turn i s.bare _ [] hs (.abort hd he) (congrArg Picture.pool hx)
    (congrArg Picture.seats hx) fun _ => hx.trans (Picture.receive_nil _).symm

theorem stirs_runWorker (w : World) (i : Nat) : Stirs w (w.runWorker i) := by
  unfold runWorker
  cases hi : w.seats[i]? with
  | none => exact .refl
  | some s =>
    dsimp only
    cases he : s.worker.hasEnded with
    | true => exact .refl
    | false =>
      have called {w' : World} (h : Stirs w w') :
          Stirs w (if w'.hasEnded i then w'.wake (.watcher i) else w') := by
        split
        · exact h.tail (.same (picture_wake _ _))
        · exact h
      rw [if_neg Bool.false_ne_true]
      refine called ?_
      by_cases hd : s.doomed = true
      · rw [if_pos hd]
        exact .single (stir_abortNow hi hd he)
      · rw [if_neg hd]
        refine stirs_goOn _ fun s' hs' => ?_
        rw [w.seats_picture, hi] at hs'
        cases hs'
        exact eq_false_of_ne_true hd

theorem stirs_runWatcher (w : World) (i : Nat) : Stirs w (w.runWatcher i) := by
  unfold runWatcher
  cases hi : w.seats[i]? with
  | none => exact .refl
  | some s =>
    have hs : w.picture.seats[i]? = some s.bare := by rw [w.seats_picture, hi]; rfl
    dsimp only
    split
    · rename_i how hp
      split
      · exact .refl
      · rename_i hrep
        have hrep' : s.reported = false := by simpa using hrep
        have hmodify : (w.modifySeat i fun s => { s with reported := true }).picture
            = { w.picture with
              seats := w.picture.seats.modify i fun _ => { s.bare with reported := true } } := by
          rw [w.picture_modifySeat i _ (fun s => { s with reported := true }) fun _ => rfl,
            modify_at _ hs]
        refine .single (.turn i s.bare _ how.events hs (.watch how hp hrep')
          (kept_postEvents _ _ _).1 ?_ fun hl => ?_)
        · exact (picture_of_seats (kept_postEvents _ _ _).2).trans (congrArg Picture.seats hmodify)
        · have hl' : (w.modifySeat i fun s => { s with reported := true }).listening = true := hl
          rw [picture_postEvents _ hl', hmodify]
          rfl
    · exact .refl

/-! ## timers and streams -/

theorem stirs_runTimer (w : World) (id : TimerId) : Stirs w (w.runTimer id) := by
  unfold runTimer
  cases hf : w.timers.find? fun t => t.id == id with
  | none => exact .refl
  | some t =>
    have ht : t ∈ w.timers := List.mem_of_find?_eq_some hf
    have hid : t.id = id := by simpa using List.find?_some hf
    -- a timer that goes off once is gone then
    have once (hr : t.repeats = false) : Stir w ((w.dropTimer id).post (.ring t.alarm)) := by
      refine .ring t ht (kept_post _ _).1 (kept_post _ _).2 fun hl => ?_
      have hl' : (w.dropTimer id).listening = true := hl
      rw [picture_post _ hl', picture_dropTimer, hr, hid]
      rfl
    dsimp only
    split
    · exact .refl
    · split
      · split
        · exact .single (.drop id (w.picture_dropTimer id))
        · rename_i hr
          exact .single (once (by simpa using hr))
      · exact .same (picture_armTimer _ _ _)
    · rename_i deadline _
      split
      · rename_i hr
        have hring : Stir w (w.post (.ring t.alarm)) := by
          refine .ring t ht (kept_post _ _).1 (kept_post _ _).2 fun hl => ?_
          rw [picture_post _ hl, if_pos hr]
        exact (ReflTransGen.single hring).tail (.same (picture_armTimer _ _ _))
      · rename_i hr
        exact .single (once (by simpa using hr))

theorem stirs_runStream (w : World) (caller : CallId) : Stirs w (w.runStream caller) := by
  unfold runStream
  split
  · have hx := w.picture_modifyStream caller fun s => { s with asking := true }
    refine (Stirs.same hx).tail (.ask caller (kept_post _ _).1 (kept_post _ _).2 fun hl => ?_)
    exact picture_post _ hl _
  · exact .same rfl

end

/-! ## while time passes -/

/-- without a pool nobody handles a message -/
theorem foldl_deliver_of_none {w : World} (h : w.pool = none) (m : Moment) (ms : List Message) :
    ms.foldl (deliver m) w = w := by
  induction ms with
  | nil => rfl
  | cons msg ms ih =>
    have hmsg : deliver m w msg = w := by
      unfold deliver
      rw [h]
    rw [List.foldl_cons, hmsg, ih]

/-- what every stir keeps, and the pool as well, when it has its turn and when it ends -/
structure Enduring (P : World → Prop) : Prop where
  stir : ∀ w w', P w → Stir w w' → P w'
  runPool : ∀ w, P w → P w.runPool
  endPool : ∀ w, P w → P w.endPool
  clock : ∀ w clock, P w → P { w with clock := clock }

theorem picture_rouse (w : World) (s : Sleep) : (w.rouse s).picture = w.picture := by
  unfold rouse
  split
  · exact picture_wake _ _
  · rw [picture_wake]
    exact picture_modifyTimer _ _ _ fun _ => rfl
  · exact picture_wake _ _

theorem picture_wakeDue (w : World) : w.wakeDue.picture = w.picture := by
  have h (due : List Sleep) (w : World) : (due.foldl rouse w).picture = w.picture := by
    induction due generalizing w with
    | nil => rfl
    | cons s due ih => exact (ih _).trans (picture_rouse w s)
  exact h _ _

namespace Enduring

variable {P : World → Prop} (hP : Enduring P) {w w' : World}
include hP

theorem stirs (h : P w) (hs : Stirs w w') : P w' := by
  induction hs with
  | refl => exact h
  | tail _ hs ih => exact hP.stir _ _ ih hs

theorem same (h : P w) (hw : w'.picture = w.picture) : P w' := hP.stir w w' h (.same hw)

theorem run (h : P w) (a : Actor) : P (w.run a) := by
  cases a with
  | pool => exact hP.runPool w h
  | worker i => exact hP.stirs h (w.stirs_runWorker i)
  | watcher i => exact hP.stirs h (w.stirs_runWatcher i)
  | timer id => exact hP.stirs h (w.stirs_runTimer id)
  | stream caller => exact hP.stirs h (w.stirs_runStream caller)

theorem runReady (fuel : Nat) (h : P w) : P (runReady fuel w) := by
  induction fuel generalizing w with
  | zero => exact h
  | succ fuel ih =>
    unfold World.runReady
    split
    · exact h
    · rename_i a rest _
      have h' : P { w with ready := rest } := hP.same h rfl
      exact ih (hP.run h' a)

theorem quiesce (h : P w) : P w.quiesce := hP.endPool _ (hP.runReady patience h)

theorem advanceTo (target fuel : Nat) (h : P w) : P (advanceTo target fuel w) := by
  induction fuel generalizing w with
  | zero => exact h
  | succ fuel ih =>
    unfold World.advanceTo
    split
    · exact hP.clock w target h
    · rename_i deadline _
      exact ih (hP.quiesce (hP.same (hP.clock w deadline h) (picture_wakeDue _)))

theorem advance (h : P w) (ms : Nat) : P (w.advance ms) :=
  hP.advanceTo _ _ (hP.quiesce h)

end Enduring

/-- in a world without a pool workers age, and nothing else becomes of them -/
theorem enduring_ages (w : World) : Enduring fun v => v.pool = none ∧ w.Ages v where
  stir _ _ h hs := ⟨hs.pool.trans h.1, h.2.trans hs.ages⟩
  runPool v h := by
    have hgone : ({ v with inbox := [] } : World).pool = none := h.1
    have hrun : v.runPool = { v with inbox := [] } := foldl_deliver_of_none hgone _ _
    rw [hrun]
    exact ⟨h.1, h.2.trans (.of_seats rfl)⟩
  endPool v h := by
    have hend : v.endPool = v := by
      unfold endPool
      rw [h.1]
    rw [hend]
    exact h
  clock _ _ h := ⟨h.1, h.2.trans (.of_seats rfl)⟩

end World

end TaskPool
