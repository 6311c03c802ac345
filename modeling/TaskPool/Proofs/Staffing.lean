import TaskPool.Proofs.Clocks
import TaskPool.Proofs.Keyed
import TaskPool.Proofs.Stir
import TaskPool.Simulation.StaffedRoster

/-!
# A roster and the workers behind it

Each entry of a `StaffedRoster` stands for one running worker.  A worker that loses its entry is on
its way out, whether its entry was taken out or another one took its place.

* `Staffing`            how the entries and the seats of a world fit together, but for one seat
* `Staffing.leave`      an entry goes, so its seat is to be vacated
* `Staffing.enlist`     a worker is hired and gets an entry
* `Staffing.vacate`     whoever is left at a seat without an entry is on his way out
* `StaffedRoster.Reachable`   whatever is done with a roster, while its workers go on
* `Reachable.staffing`  the entries and the seats fit together all the time
* `Reachable.send_iff`  so a command gets to the worker of an entry until that worker has ended
-/

namespace TaskPool

open Function

/-- nobody can send to the worker any more, or it is to be ended, or it has ended -/
def Seat.Leaving (s : Seat) : Prop :=
  s.worker.attached = false ∨ s.doomed = true ∨ s.worker.hasEnded = true

/-- it can be sent to, and nobody asked for its end -/
def Seat.Serves (s : Seat) (w : WorkerId) : Prop :=
  s.worker.id = w ∧ s.worker.attached = true ∧ s.doomed = false

namespace Seat.Stays

variable {s s' : Seat}

theorem leaving (h : s.Stays s') (hs : s.Leaving) : s'.Leaving := by
  rcases hs with hs | hs | hs
  · exact .inl (h.attached.trans hs)
  · exact .inr (.inl (h.doomed.trans hs))
  · exact .inr (.inr (h.ended hs))

theorem serves (h : s.Stays s') {w : WorkerId} (hs : s.Serves w) : s'.Serves w :=
  ⟨h.id.trans hs.1, h.attached.trans hs.2.1, h.doomed.trans hs.2.2⟩

end Seat.Stays

theorem Seat.stays_tell (s : Seat) (c : Command) : s.Stays (s.tell c) := by
  unfold Seat.tell
  split
  · exact ⟨rfl, rfl, rfl, fun he => he⟩
  · exact .refl s

theorem Seat.leaving_doom (s : Seat) : s.doom.Leaving := by
  unfold Seat.doom
  split
  · rename_i he
    exact .inr (.inr he)
  · exact .inr (.inl rfl)

/-- the entries that are found and the seats of a world fit together, but for a seat that is still
to be vacated -/
structure Staffing (vacating : Option Nat) (v : World) (find : WorkerId → Option Entry) : Prop where
  pool : v.pool = none
  /-- behind each entry the worker of its number sits, for good -/
  seated : ∀ w e, find w = some e → ∃ s, v.picture.seats[e.seat]? = some s ∧ s.Serves w
  leaving : ∀ i s, v.picture.seats[i]? = some s → (∀ w e, find w = some e → e.seat ≠ i) →
    some i ≠ vacating → s.Leaving
  apart : ∀ w e, find w = some e → some e.seat ≠ vacating

namespace Staffing

variable {o : Option Nat} {v v' : World} {find : WorkerId → Option Entry} {w : WorkerId} {e : Entry}

theorem empty : Staffing none (.new ⟨[]⟩ none) Roster.empty.find? where
  pool := rfl
  seated _ _ he := nomatch he
  leaving _ _ hs := nomatch hs
  apart _ _ he := nomatch he

/-- no two entries share a seat -/
theorem seat_ne (h : Staffing o v find) {w' : WorkerId} {e' : Entry} (he : find w = some e)
    (he' : find w' = some e') (hne : w' ≠ w) : e'.seat ≠ e.seat := by
  intro hseat
  obtain ⟨s, hs, hserves⟩ := h.seated w e he
  obtain ⟨s', hs', hserves'⟩ := h.seated w' e' he'
  rw [hseat, hs] at hs'
  cases hs'
  exact hne (hserves'.1.symm.trans hserves.1)

theorem ages (h : Staffing o v find) (hp : v'.pool = none) (ha : v.Ages v') :
    Staffing o v' find := by
  refine ⟨hp, fun w e he => ?_, fun i s' hs' hno hi => ?_, h.apart⟩
  · obtain ⟨s, hs, hserves⟩ := h.seated w e he
    obtain ⟨s', hs', hst⟩ := ha.some hs
    exact ⟨s', hs', hst.serves hserves⟩
  · obtain ⟨s, hs, hst⟩ := ha.of_some hs'
    exact hst.leaving (h.leaving i s hs hno hi)

/-- an entry goes, so its seat is to be vacated -/
theorem leave (h : Staffing none v find) (he : find w = some e) :
    Staffing (some e.seat) v (update find w none) := by
  have hold {w' : WorkerId} {e' : Entry} (he' : update find w none w' = some e') :
      find w' = some e' ∧ w' ≠ w := by
    by_cases hw : w' = w
    · rw [hw, update_self] at he'
      cases he'
    · rw [update_of_ne hw] at he'
      exact ⟨he', hw⟩
  refine ⟨h.pool, fun w' e' he' => h.seated w' e' (hold he').1, fun i s hs hno hi => ?_,
    fun w' e' he' heq => ?_⟩
  · refine h.leaving i s hs (fun w' e' he' hseat => ?_) nofun
    by_cases hw : w' = w
    · subst hw
      cases he.symm.trans he'
      exact hi (congrArg some hseat.symm)
    · exact hno w' e' ((update_of_ne hw _ _).trans he') hseat
  · exact h.seat_ne he (hold he').1 (hold he').2 (Option.some.inj heq)

/-- a worker is hired and gets an entry -/
theorem enlist (h : Staffing o v find) (hnone : find w = none) (hsize : some v.seats.size ≠ o)
    (now : Timestamp) :
    Staffing o (v.hire w) (update find w (some (.new w v.seats.size now))) := by
  have hseats : (v.hire w).picture.seats
      = v.picture.seats ++ [⟨.new w (v.picture.clock * 1000000), none, false, false⟩] :=
    congrArg Picture.seats (v.picture_hire w)
  have hlen : v.picture.seats.length = v.seats.size := by simp [World.picture]
  have hpool : (v.hire w).pool = v.pool := congrArg Picture.pool (v.picture_hire w)
  refine ⟨hpool.trans h.pool, fun w' e' he' => ?_, fun i s hs hno hi => ?_, fun w' e' he' => ?_⟩
  · rcases update_eq_some he' with ⟨rfl, hnew⟩ | ⟨hw, hold⟩
    · cases hnew
      have hlast : (v.hire w').picture.seats[v.seats.size]?
          = some ⟨.new w' (v.picture.clock * 1000000), none, false, false⟩ := by
        rw [hseats, ← hlen, List.getElem?_concat_length]
      exact ⟨_, hlast, ⟨rfl, rfl, rfl⟩⟩
    · obtain ⟨s, hs, hserves⟩ := h.seated w' e' hold
      refine ⟨s, ?_, hserves⟩
      rw [hseats, List.getElem?_append_left (List.getElem?_eq_some_iff.mp hs).1, hs]
  · have hne : v.seats.size ≠ i := hno w _ (update_self ..)
    rw [hseats] at hs
    have hi' : i < v.picture.seats.length := by
      obtain ⟨hlt, -⟩ := List.getElem?_eq_some_iff.mp hs
      rw [List.length_append, List.length_singleton] at hlt
      omega
    rw [List.getElem?_append_left hi'] at hs
    refine h.leaving i s hs (fun w' e' he' => ?_) hi
    have hw : w' ≠ w := by
      rintro rfl
      cases hnone.symm.trans he'
    exact hno w' e' ((update_of_ne hw _ _).trans he')
  · rcases update_eq_some he' with ⟨rfl, hnew⟩ | ⟨hw, hold⟩
    · cases hnew
      exact hsize
    · exact h.apart w' e' hold

/-- whoever is left at a seat without an entry is on his way out -/
theorem vacate {i : Nat} {f : Seat → Seat} (h : Staffing (some i) v find) (hp : v'.pool = none)
    (hseats : v'.picture.seats = v.picture.seats.modify i f) (hf : ∀ s, (f s).Leaving) :
    Staffing none v' find := by
  have hother {j : Nat} (hj : j ≠ i) : v'.picture.seats[j]? = v.picture.seats[j]? := by
    have hne : ¬i = j := fun heq => hj heq.symm
    rw [hseats, List.getElem?_modify]
    simp [hne]
  refine ⟨hp, fun w e he => ?_, fun j s hs hno _ => ?_, fun _ _ _ => nofun⟩
  · obtain ⟨s, hs, hserves⟩ := h.seated w e he
    exact ⟨s, (hother fun hj => h.apart w e he (congrArg some hj)).trans hs, hserves⟩
  · by_cases hj : j = i
    · subst hj
      rw [hseats, List.getElem?_modify_eq] at hs
      obtain ⟨s0, -, rfl⟩ := Option.map_eq_some_iff.mp hs
      exact hf s0
    · rw [hother hj] at hs
      exact h.leaving j s hs hno fun heq => hj (Option.some.inj heq)

end Staffing

namespace StaffedRoster

/-- whatever is done with a staffed roster; an entry keeps its worker -/
inductive Step (r : StaffedRoster) : StaffedRoster → Prop where
  | allocate : Step r { r with roster := r.roster.allocate.2 }
  | insert (w : WorkerId) : Step r (r.insert w)
  | remove (w : WorkerId) : Step r (r.remove w).2
  | modify (w : WorkerId) (f : Entry → Entry)
      (hf : ∀ e, (f e).worker = e.worker ∧ (f e).seat = e.seat) : Step r (r.modify w f)
  | send (e : Entry) (c : Command) : Step r (r.send e c).2
  | takeReports : Step r r.takeReports.2
  | listen : Step r { r with woken := [] }
  | tick : Step r { r with world := r.world.tick }
  | quiesce : Step r { r with world := r.world.quiesce }
  | advance (ms : Nat) : Step r { r with world := r.world.advance ms }

inductive Reachable : StaffedRoster → Prop where
  | empty : Reachable .empty
  | step {r r' : StaffedRoster} (h : Reachable r) (hs : Step r r') : Reachable r'

variable {r r' : StaffedRoster}

theorem staffing_insert (h : Staffing none r.world r.roster.find?) (w : WorkerId) :
    Staffing none (r.insert w).world (r.insert w).roster.find? := by
  have hfind : (r.roster.insert (.new w r.world.seats.size r.world.now)).find?
      = update r.roster.find? w (some (.new w r.world.seats.size r.world.now)) := by
    funext w'
    rw [Roster.find?_insert]
    by_cases hw : w' = w
    · rw [hw, update_self]
      exact if_pos rfl
    · rw [update_of_ne hw]
      exact if_neg hw
  unfold insert
  cases he : r.roster.find? w with
  | none =>
    show Staffing none (r.world.hire w)
      (r.roster.insert (.new w r.world.seats.size r.world.now)).find?
    rw [hfind]
    exact h.enlist he nofun _
  | some e =>
    obtain ⟨s, hs, -⟩ := h.seated w e he
    have hlt : e.seat < r.world.seats.size := by
      obtain ⟨hlt, -⟩ := List.getElem?_eq_some_iff.mp hs
      simpa [World.picture] using hlt
    have hleft := (h.leave he).enlist (update_self ..)
      (fun heq => Nat.ne_of_gt hlt (Option.some.inj heq)) r.world.now
    rw [update_idem, ← hfind] at hleft
    -- the worker whose entry was taken over is let go
    have hdetach : ((r.world.hire w).detach e.seat).picture = { (r.world.hire w).picture with
        seats := (r.world.hire w).picture.seats.modify e.seat fun s =>
          { s with worker := s.worker.detach } } :=
      (World.picture_wake _ _).trans (World.picture_modifySeat _ _ _ _ fun _ => rfl)
    exact hleft.vacate ((congrArg Picture.pool hdetach).trans hleft.pool)
      (congrArg Picture.seats hdetach) fun s => .inl rfl

theorem staffing_remove (h : Staffing none r.world r.roster.find?) (w : WorkerId) :
    Staffing none (r.remove w).2.world (r.remove w).2.roster.find? := by
  unfold remove
  cases he : r.roster.find? w with
  | none => exact h
  | some e =>
    have hfind : (r.roster.erase w).find? = update r.roster.find? w none := by
      funext w'
      rw [Roster.find?_erase]
      by_cases hw : w' = w
      · rw [hw, update_self, if_pos rfl]
      · rw [update_of_ne hw, if_neg hw]
    have habort := r.world.picture_abort e.seat
    have hleft := h.leave he
    rw [← hfind] at hleft
    exact hleft.vacate ((congrArg Picture.pool habort).trans hleft.pool)
      (congrArg Picture.seats habort) Seat.leaving_doom

theorem staffing_modify (h : Staffing none r.world r.roster.find?) (w : WorkerId)
    {f : Entry → Entry} (hf : ∀ e, (f e).worker = e.worker ∧ (f e).seat = e.seat) :
    Staffing none r.world (r.roster.modify w f).find? := by
  have hsome {w' : WorkerId} {e' : Entry} (he' : (r.roster.modify w f).find? w' = some e') :
      ∃ e, r.roster.find? w' = some e ∧ e'.seat = e.seat := by
    rcases Roster.find?_modify_some he' fun e => (hf e).1 with ⟨-, e, he, rfl⟩ | ⟨-, he⟩
    · exact ⟨e, he, (hf e).2⟩
    · exact ⟨e', he, rfl⟩
  refine ⟨h.pool, fun w' e' he' => ?_, fun i s hs hno hi => ?_, fun _ _ _ => nofun⟩
  · obtain ⟨e, he, hseat⟩ := hsome he'
    rw [hseat]
    exact h.seated w' e he
  · refine h.leaving i s hs (fun w' e he => ?_) hi
    have hmod := r.roster.find?_modify f (fun e => (hf e).1) w w'
    by_cases hw : w' = w
    · rw [if_pos hw, he] at hmod
      exact (hf e).2 ▸ hno w' (f e) hmod
    · rw [if_neg hw, he] at hmod
      exact hno w' e hmod

theorem ages_send (v : World) (i : Nat) (c : Command) : v.Ages (v.send i c).2 := by
  intro j
  rw [v.picture_send, List.getElem?_modify]
  cases v.picture.seats[j]? with
  | none => exact .none
  | some s =>
    by_cases hij : i = j
    · simp only [hij, if_true]
      exact .some (s.stays_tell c)
    · simp only [hij, if_false]
      exact .some (.refl s)

theorem Step.staffing (h : Staffing none r.world r.roster.find?) (hs : Step r r') :
    Staffing none r'.world r'.roster.find? := by
  have hnow : r.world.pool = none ∧ r.world.Ages r.world := ⟨h.pool, .of_seats rfl⟩
  cases hs with
  | allocate | listen => exact h
  | insert w => exact staffing_insert h w
  | remove w => exact staffing_remove h w
  | modify w f hf => exact staffing_modify h w hf
  | send e c =>
    refine h.ages ?_ (ages_send r.world e.seat c)
    exact (congrArg Picture.pool (r.world.picture_send e.seat c)).trans h.pool
  | takeReports | tick => exact h.ages h.pool (.of_seats rfl)
  | quiesce =>
    obtain ⟨hp, ha⟩ := r.world.enduring_ages.quiesce hnow
    exact h.ages hp ha
  | advance ms =>
    obtain ⟨hp, ha⟩ := r.world.enduring_ages.advance hnow ms
    exact h.ages hp ha

/-- **behind each entry the worker of its number goes on**, and whoever has no entry is on his way
out, whatever was done and however time went on -/
theorem Reachable.staffing (h : Reachable r) : Staffing none r.world r.roster.find? := by
  induction h with
  | empty => exact .empty
  | step _ hs ih => exact hs.staffing ih

/-- a command gets to the worker of an entry until that worker has ended -/
theorem Reachable.send_iff (h : Reachable r) {w : WorkerId} {e : Entry}
    (he : r.roster.find? w = some e) (c : Command) : ∃ s, r.world.picture.seats[e.seat]? = some s ∧
      s.worker.id = w ∧ ((r.send e c).1 = true ↔ s.worker.hasEnded = false) := by
  obtain ⟨s, hs, hid, hattached, -⟩ := h.staffing.seated w e he
  refine ⟨s, hs, hid, ?_⟩
  rw [r.world.seats_picture] at hs
  obtain ⟨s', hs', rfl⟩ := Option.map_eq_some_iff.mp hs
  have hsame : s'.worker.attached = true := hattached
  show (r.world.send e.seat c).1 = true ↔ s'.worker.hasEnded = false
  unfold World.send
  rw [hs']
  cases hend : s'.worker.hasEnded <;> simp [Worker.isReachable, hend, hsame]

end StaffedRoster

end TaskPool
