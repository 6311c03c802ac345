import TaskPool.Proofs.Workshop
import Mathlib.Data.List.Nodup

/-!
# Timers and the tasks they are for

A `Clocks` is what the records of a pool say about timers, side by side with the timers that are
armed and the alarms that went off and were not handled yet.

* `callsFor`      how often a task will be called for again
* `Clocks.Right`  a task that is to be tried again will be called for once, any other task never,
                  and no timer is taken back in place of another
* `Right.disarm`, `arm`, `refer`, `forget`, `retry`, ...   the changes that keep it so

Why numbers matter: a timer is taken back by its number only, so a number that the pool keeps for
one purpose must never be the number of a timer for another.
-/

namespace TaskPool

open Function

structure Clocks where
  timers : List Timer
  rung : List Alarm
  /-- the next timer number -/
  next : TimerId
  /-- what is believed of a task, with the timer kept for it -/
  kept : TaskId → Option (Status × Option TimerId)
  /-- the timers kept for anything but tasks -/
  others : List TimerId
  /-- the tasks accepted so far -/
  taken : List TaskId

/-- how often the task will be called for again: its timers that are armed, and its alarms that went
off and were not handled yet -/
def callsFor (timers : List Timer) (rung : List Alarm) (t : TaskId) : Nat :=
  timers.countP (fun x => x.alarm == .retryDue t) + rung.count (.retryDue t)

theorem update_eq_some {α β : Type} [DecidableEq α] {f : α → Option β} {a b : α} {v : Option β}
    {y : β} (h : update f a v b = some y) : (b = a ∧ v = some y) ∨ (b ≠ a ∧ f b = some y) := by
  by_cases hb : b = a
  · rw [hb, update_self] at h
    exact .inl ⟨hb, h⟩
  · rw [update_of_ne hb] at h
    exact .inr ⟨hb, h⟩

namespace Clocks

def due (s : Clocks) (t : TaskId) : Nat := callsFor s.timers s.rung t

/-- a timer of this number calls for no task -/
def Mute (s : Clocks) (i : TimerId) : Prop :=
  ∀ x ∈ s.timers, x.id = i → ∀ t, x.alarm ≠ .retryDue t

structure Right (s : Clocks) : Prop where
  nodup : (s.timers.map Timer.id).Nodup
  fresh : ∀ x ∈ s.timers, x.id < s.next
  others : ∀ i ∈ s.others, i < s.next ∧ s.Mute i
  kept : ∀ t st i, s.kept t = some (st, some i) → i < s.next ∧
    ∀ x ∈ s.timers, x.id = i → ∀ u, x.alarm = .retryDue u → u = t
  own : ∀ x ∈ s.timers, ∀ t, x.alarm = .retryDue t →
    x.repeats = false ∧ s.kept t = some (.retrying, some x.id)
  due : ∀ t st o, s.kept t = some (st, o) → s.due t = if st = .retrying then 1 else 0
  known : ∀ t y, s.kept t = some y → t ∈ s.taken
  rung : ∀ t, .retryDue t ∈ s.rung → t ∈ s.taken

/-! ## timers alone -/

/-- the timer kept for a task calls for no task but that one, and only if it is to be tried
again -/
theorem Right.mute {s : Clocks} (h : s.Right) {t : TaskId} {st : Status} {i : TimerId}
    (ht : s.kept t = some (st, some i)) (hst : st ≠ .retrying) : s.Mute i := by
  intro x hx hi u hu
  have heq : u = t := (h.kept t st i ht).2 x hx hi u hu
  have hown := (h.own x hx u hu).2
  rw [heq, ht] at hown
  cases hown
  exact hst rfl

/-- the timers without those of some numbers -/
def without (timers : List Timer) (is : List TimerId) : List Timer :=
  timers.filter fun x => !is.contains x.id

theorem mem_without {timers : List Timer} {is : List TimerId} {x : Timer} :
    x ∈ without timers is ↔ x ∈ timers ∧ x.id ∉ is := by
  simp [without, List.mem_filter]

theorem countP_without {timers : List Timer} {is : List TimerId} {p : Timer → Bool}
    (h : ∀ x ∈ timers, p x = true → x.id ∉ is) :
    (without timers is).countP p = timers.countP p := by
  rw [without, List.countP_filter]
  refine List.countP_congr fun x hx => ?_
  constructor
  · intro hp
    exact (Bool.and_eq_true_iff.mp hp).1
  · intro hp
    have := h x hx hp
    simp [hp, this]

/-- timers that call for no task are taken back -/
theorem Right.disarm {s : Clocks} (h : s.Right) {is : List TimerId} (hi : ∀ i ∈ is, s.Mute i) :
    Right { s with timers := without s.timers is } where
  nodup := h.nodup.sublist (List.filter_sublist.map Timer.id)
  fresh := fun x hx => h.fresh x (mem_without.mp hx).1
  others := fun i ho => ⟨(h.others i ho).1, fun x hx => (h.others i ho).2 x (mem_without.mp hx).1⟩
  kept := fun t st i ht =>
    ⟨(h.kept t st i ht).1, fun x hx => (h.kept t st i ht).2 x (mem_without.mp hx).1⟩
  own := fun x hx => h.own x (mem_without.mp hx).1
  due := by
    intro t st o ht
    rw [← h.due t st o ht]
    show (without s.timers is).countP _ + _ = s.timers.countP _ + _
    rw [countP_without]
    intro x hx hp hm
    exact hi x.id hm x hx rfl t (by simpa using hp)
  known := h.known
  rung := h.rung

section
variable {s : Clocks} (h : s.Right) {y : Timer} (hy : y.id = s.next)
include h hy

theorem Right.nodup_arm : ((s.timers ++ [y]).map Timer.id).Nodup := by
  rw [List.map_append]
  refine List.nodup_append.mpr ⟨h.nodup, by simp, fun i hi j hj hij => ?_⟩
  obtain ⟨x, hx, rfl⟩ := List.mem_map.mp hi
  rw [List.mem_singleton.mp hj, hy] at hij
  exact Nat.ne_of_lt (h.fresh x hx) hij

theorem Right.fresh_arm : ∀ x ∈ s.timers ++ [y], x.id < s.next + 1 := by
  intro x hx
  rcases List.mem_append.mp hx with hx | hx
  · exact Nat.lt_succ_of_lt (h.fresh x hx)
  · rw [List.mem_singleton.mp hx, hy]
    exact Nat.lt_succ_self s.next

omit h in
/-- the timers of an older number are as before -/
theorem mem_arm {x : Timer} (hx : x ∈ s.timers ++ [y]) {i : TimerId} (hi : i < s.next)
    (hxi : x.id = i) : x ∈ s.timers := by
  rcases List.mem_append.mp hx with hx | hx
  · exact hx
  · rw [List.mem_singleton.mp hx, hy] at hxi
    exact absurd hxi (Nat.ne_of_gt hi)

theorem Right.others_arm :
    ∀ i ∈ s.others, i < s.next + 1 ∧ Mute { s with timers := s.timers ++ [y] } i := by
  intro i ho
  obtain ⟨hlt, hm⟩ := h.others i ho
  exact ⟨Nat.lt_succ_of_lt hlt, fun x hx hxi => hm x (mem_arm hy hx hlt hxi) hxi⟩

theorem Right.kept_arm {t : TaskId} {st : Status} {i : TimerId} (ht : s.kept t = some (st, some i)) :
    i < s.next + 1 ∧ ∀ x ∈ s.timers ++ [y], x.id = i → ∀ u, x.alarm = .retryDue u → u = t := by
  obtain ⟨hlt, hk⟩ := h.kept t st i ht
  exact ⟨Nat.lt_succ_of_lt hlt, fun x hx hxi => hk x (mem_arm hy hx hlt hxi) hxi⟩

end

/-- a timer that calls for no task is set -/
theorem Right.arm {s : Clocks} (h : s.Right) {a : Alarm} (ha : ∀ t, a ≠ .retryDue t)
    (repeats : Bool) :
    Right { s with
      timers := s.timers ++ [⟨s.next, a, repeats⟩]
      next := s.next + 1 } where
  nodup := h.nodup_arm rfl
  fresh := h.fresh_arm rfl
  others := h.others_arm rfl
  kept := fun _ _ _ ht => h.kept_arm rfl ht
  own := by
    intro x hx t hxt
    rcases List.mem_append.mp hx with hx | hx
    · exact h.own x hx t hxt
    · rw [List.mem_singleton.mp hx] at hxt
      exact absurd hxt (ha t)
  due := by
    intro t st o ht
    rw [← h.due t st o ht]
    have hnot : (a == .retryDue t) = false := by simp [ha t]
    show (s.timers ++ [_]).countP _ + _ = s.timers.countP _ + _
    rw [List.countP_append, List.countP_singleton]
    simp [hnot]
  known := h.known
  rung := h.rung

/-! ## what timers are kept for -/

/-- what is kept may change where no task is to be tried again -/
theorem Right.refer {s : Clocks} (h : s.Right) (kept : TaskId → Option (Status × Option TimerId))
    (others : List TimerId) (ho : ∀ i ∈ others, i ∈ s.others ∨ (i < s.next ∧ s.Mute i))
    (hk : ∀ t st o, kept t = some (st, o) → s.kept t = some (st, o) ∨
      (st ≠ .retrying ∧ (∃ st' o', s.kept t = some (st', o') ∧ st' ≠ .retrying) ∧
        ∀ i, o = some i → i < s.next ∧ s.Mute i))
    (hr : ∀ t o, s.kept t = some (.retrying, o) → kept t = some (.retrying, o)) :
    Right { s with
      kept := kept
      others := others } where
  nodup := h.nodup
  fresh := h.fresh
  others := by
    intro i hi
    rcases ho i hi with hi | hi
    · exact h.others i hi
    · exact hi
  kept := by
    intro t st i ht
    rcases hk t st (some i) ht with ht | ⟨_, _, hi⟩
    · exact h.kept t st i ht
    · obtain ⟨hlt, hm⟩ := hi i rfl
      exact ⟨hlt, fun x hx hxi u hu => absurd hu (hm x hx hxi u)⟩
  own := by
    intro x hx t hxt
    obtain ⟨hrep, hown⟩ := h.own x hx t hxt
    exact ⟨hrep, hr t _ hown⟩
  due := by
    intro t st o ht
    rcases hk t st o ht with ht | ⟨hst, ⟨st', o', ht', hst'⟩, _⟩
    · exact h.due t st o ht
    · have hdue := h.due t st' o' ht'
      rw [if_neg hst'] at hdue
      rw [if_neg hst]
      exact hdue
  known := by
    intro t y hy
    rcases hk t y.1 y.2 hy with hy | ⟨_, ⟨st', o', ht', _⟩, _⟩
    · exact h.known t _ hy
    · exact h.known t _ ht'
  rung := h.rung

/-- a task is over, and the timer kept for it is taken back -/
theorem Right.forget {s : Clocks} (h : s.Right) {t : TaskId} {st : Status} {o : Option TimerId}
    (ht : s.kept t = some (st, o)) :
    Right { s with
      timers := without s.timers o.toList
      kept := update s.kept t none } := by
  have hold {u : TaskId} {y : Status × Option TimerId} (hy : update s.kept t none u = some y) :
      u ≠ t ∧ s.kept u = some y :=
    (update_eq_some hy).resolve_left fun hn => nomatch hn.2
  refine ⟨h.nodup.sublist (List.filter_sublist.map Timer.id),
    fun x hx => h.fresh x (mem_without.mp hx).1,
    fun i ho => ⟨(h.others i ho).1, fun x hx => (h.others i ho).2 x (mem_without.mp hx).1⟩,
    fun u st' i hu => ?_, fun x hx u hxu => ?_, fun u st' o' hu => ?_,
    fun u y hu => h.known u y (hold hu).2, h.rung⟩
  · have hkept := h.kept u st' i (hold hu).2
    exact ⟨hkept.1, fun x hx => hkept.2 x (mem_without.mp hx).1⟩
  · obtain ⟨hx, hnot⟩ := mem_without.mp hx
    obtain ⟨hrep, hown⟩ := h.own x hx u hxu
    refine ⟨hrep, ?_⟩
    have hne : u ≠ t := by
      rintro rfl
      rw [ht] at hown
      cases hown
      exact hnot (List.mem_singleton_self _)
    exact (update_of_ne hne _ _).trans hown
  · obtain ⟨hne, hu⟩ := hold hu
    rw [← h.due u st' o' hu]
    show (without s.timers _).countP _ + _ = s.timers.countP _ + _
    rw [countP_without]
    -- a timer that calls for `u` is kept for `u`, so it is not the one kept for `t`
    intro x hx hp hm
    cases o with
    | none => cases hm
    | some i =>
      have hxi : x.id = i := List.mem_singleton.mp hm
      exact hne ((h.kept t st i ht).2 x hx hxi u (by simpa using hp))

/-- the timer kept for a task that is not to be tried again gives way to another such timer -/
theorem Right.begin {s : Clocks} (h : s.Right) {t : TaskId} {st st' : Status} {o : Option TimerId}
    (ht : s.kept t = some (st, o)) (hst : st ≠ .retrying) (hst' : st' ≠ .retrying) {a : Alarm}
    (ha : ∀ t, a ≠ .retryDue t) :
    Right { s with
      timers := without (s.timers ++ [⟨s.next, a, false⟩]) o.toList
      next := s.next + 1
      kept := update s.kept t (some (st', some s.next)) } := by
  have harm := h.arm ha false
  have hold : ∀ i ∈ o.toList, Mute { s with
      timers := s.timers ++ [⟨s.next, a, false⟩]
      next := s.next + 1 } i := by
    intro i hi
    rw [Option.mem_toList.mp hi] at ht
    exact harm.mute ht hst
  refine (harm.disarm hold).refer _ s.others (fun i hi => .inl hi) (fun u st'' o' hu => ?_)
    fun u o' hu => ?_
  · rcases update_eq_some hu with ⟨rfl, hy⟩ | ⟨_, hu⟩
    · cases hy
      refine .inr ⟨hst', ⟨st, o, ht, hst⟩, fun i hi => ?_⟩
      cases hi
      refine ⟨Nat.lt_succ_self s.next, fun x hx hxi => ?_⟩
      rcases List.mem_append.mp (mem_without.mp hx).1 with hx | hx
      · exact absurd hxi (Nat.ne_of_lt (h.fresh x hx))
      · rw [List.mem_singleton.mp hx]
        exact ha
    · exact .inl hu
  · have hne : u ≠ t := by
      rintro rfl
      have hu' : s.kept u = some (.retrying, o') := hu
      rw [ht] at hu'
      cases hu'
      exact hst rfl
    exact (update_of_ne hne _ _).trans hu

/-- the next attempt of a task is put off -/
theorem Right.retry {s : Clocks} (h : s.Right) {t : TaskId} {st : Status} {o : Option TimerId}
    (ht : s.kept t = some (st, o)) (hst : st ≠ .retrying) :
    Right { s with
      timers := s.timers ++ [⟨s.next, .retryDue t, false⟩]
      next := s.next + 1
      kept := update s.kept t (some (.retrying, some s.next)) } where
  nodup := h.nodup_arm rfl
  fresh := h.fresh_arm rfl
  others := h.others_arm rfl
  kept := by
    intro u st' i hu
    rcases update_eq_some hu with ⟨hut, hy⟩ | ⟨_, hu⟩
    · cases hy
      refine ⟨Nat.lt_succ_self s.next, fun x hx hxi v hv => ?_⟩
      rcases List.mem_append.mp hx with hx | hx
      · exact absurd hxi (Nat.ne_of_lt (h.fresh x hx))
      · rw [List.mem_singleton.mp hx] at hv
        cases hv
        exact hut.symm
    · exact h.kept_arm rfl hu
  own := by
    intro x hx u hxu
    rcases List.mem_append.mp hx with hx | hx
    · obtain ⟨hrep, hown⟩ := h.own x hx u hxu
      have hut : u ≠ t := by
        rintro rfl
        rw [ht] at hown
        cases hown
        exact hst rfl
      exact ⟨hrep, (update_of_ne hut _ _).trans hown⟩
    · rw [List.mem_singleton.mp hx] at hxu ⊢
      cases hxu
      exact ⟨rfl, update_self ..⟩
  due := by
    intro u st' o' hu
    show (s.timers ++ [_]).countP _ + s.rung.count _ = _
    rw [List.countP_append, List.countP_singleton]
    rcases update_eq_some hu with ⟨hut, hy⟩ | ⟨hut, hu⟩
    · have hnone := h.due t st o ht
      rw [if_neg hst, Clocks.due, callsFor] at hnone
      cases hy
      rw [hut, if_pos rfl]
      simp only [beq_self_eq_true, if_true]
      omega
    · have hnot : (Alarm.retryDue t == .retryDue u) = false := by simp [Ne.symm hut]
      rw [← h.due u st' o' hu, hnot]
      rfl
  known := by
    intro u y hu
    rcases update_eq_some hu with ⟨rfl, _⟩ | ⟨_, hu⟩
    · exact h.known u _ ht
    · exact h.known u y hu
  rung := h.rung

/-- a task is taken in -/
theorem Right.accept {s : Clocks} (h : s.Right) {t : TaskId} (ht : t ∉ s.taken) :
    Right { s with
      kept := update s.kept t (some (.queued, none))
      taken := s.taken ++ [t] } := by
  have hnone : s.kept t = none := by
    cases hk : s.kept t with
    | none => rfl
    | some y => exact absurd (h.known t y hk) ht
  refine ⟨h.nodup, h.fresh, h.others, fun u st i hu => ?_, fun x hx u hxu => ?_,
    fun u st o hu => ?_, fun u y hu => ?_, fun u hu => List.mem_append_left _ (h.rung u hu)⟩
  · rcases update_eq_some hu with ⟨_, hy⟩ | ⟨_, hu⟩
    · cases hy
    · exact h.kept u st i hu
  · obtain ⟨hrep, hown⟩ := h.own x hx u hxu
    have hne : u ≠ t := by
      rintro rfl
      rw [hnone] at hown
      cases hown
    exact ⟨hrep, (update_of_ne hne _ _).trans hown⟩
  · rcases update_eq_some hu with ⟨rfl, hy⟩ | ⟨_, hu⟩
    · cases hy
      -- nothing calls for a task that nobody has heard of
      have htimers : s.timers.countP (fun x => x.alarm == .retryDue u) = 0 := by
        refine List.countP_eq_zero.mpr fun x hx hxu => ?_
        have hown := (h.own x hx u (by simpa using hxu)).2
        rw [hnone] at hown
        cases hown
      have hrung : s.rung.count (.retryDue u) = 0 :=
        List.count_eq_zero.mpr fun hm => ht (h.rung u hm)
      show s.timers.countP _ + s.rung.count _ = 0
      rw [htimers, hrung]
    · exact h.due u st o hu
  · rcases update_eq_some hu with ⟨rfl, _⟩ | ⟨_, hu⟩
    · exact List.mem_append_right _ (List.mem_singleton_self _)
    · exact List.mem_append_left _ (h.known u y hu)

/-- all tasks are over -/
theorem Right.clear {s : Clocks} (h : s.Right) {is : List TimerId}
    (hi : ∀ t st i, s.kept t = some (st, some i) → i ∈ is) :
    Right { s with
      timers := without s.timers is
      kept := fun _ => none } where
  nodup := h.nodup.sublist (List.filter_sublist.map Timer.id)
  fresh := fun x hx => h.fresh x (mem_without.mp hx).1
  others := fun i ho => ⟨(h.others i ho).1, fun x hx => (h.others i ho).2 x (mem_without.mp hx).1⟩
  kept := fun t st i ht => by cases ht
  own := by
    intro x hx t hxt
    obtain ⟨hx, hnot⟩ := mem_without.mp hx
    exact absurd (hi t _ _ (h.own x hx t hxt).2) hnot
  due := fun t st o ht => by cases ht
  known := fun t y hy => by cases hy
  rung := h.rung

/-! ## alarms -/

/-- the alarm of a timer that calls for a task takes the place of the timer -/
theorem Right.due_ring {s : Clocks} (h : s.Right) {y : Timer} (hy : y ∈ s.timers) {t : TaskId}
    {st : Status} {o : Option TimerId} (ht : s.kept t = some (st, o)) :
    Clocks.due { s with
      timers := if y.repeats then s.timers else without s.timers [y.id]
      rung := s.rung ++ [y.alarm] } t = s.due t := by
  show (if y.repeats then s.timers else without s.timers [y.id]).countP _
    + (s.rung ++ [y.alarm]).count _ = s.timers.countP _ + s.rung.count _
  rw [List.count_append, List.count_singleton]
  by_cases hyt : y.alarm = .retryDue t
  · obtain ⟨hrep, hown⟩ := h.own y hy t hyt
    have hdue := h.due t st o ht
    rw [ht] at hown
    cases hown
    rw [if_pos rfl, Clocks.due, callsFor] at hdue
    have hpos : 0 < s.timers.countP (fun x => x.alarm == .retryDue t) :=
      List.countP_pos_iff.mpr ⟨y, hy, by simp [hyt]⟩
    have hgone : (without s.timers [y.id]).countP (fun x => x.alarm == .retryDue t) = 0 := by
      refine List.countP_eq_zero.mpr fun x hx hxt => ?_
      obtain ⟨hx, hnot⟩ := mem_without.mp hx
      have hx2 := (h.own x hx t (by simpa using hxt)).2
      rw [ht] at hx2
      have hid : y.id = x.id := by simpa using hx2
      exact hnot (hid ▸ List.mem_singleton_self _)
    simp only [hrep, Bool.false_eq_true, if_false, hgone, hyt, beq_self_eq_true, if_true]
    omega
  · have hnot : (y.alarm == .retryDue t) = false := by simp [hyt]
    simp only [hnot, Bool.false_eq_true, if_false, Nat.add_zero]
    split
    · rfl
    · rw [countP_without]
      intro x hx hxt hm
      have hxy : x = y := List.inj_on_of_nodup_map h.nodup hx hy (List.mem_singleton.mp hm)
      rw [hxy] at hxt
      exact hyt (by simpa using hxt)

/-- a timer goes off -/
theorem Right.ring {s : Clocks} (h : s.Right) {y : Timer} (hy : y ∈ s.timers) :
    Right { s with
      timers := if y.repeats then s.timers else without s.timers [y.id]
      rung := s.rung ++ [y.alarm] } := by
  have hsub : ∀ x ∈ (if y.repeats then s.timers else without s.timers [y.id]), x ∈ s.timers := by
    intro x hx
    split at hx
    · exact hx
    · exact (mem_without.mp hx).1
  have hnodup : ((if y.repeats then s.timers else without s.timers [y.id]).map Timer.id).Nodup := by
    split
    · exact h.nodup
    · exact h.nodup.sublist (List.filter_sublist.map Timer.id)
  refine ⟨hnodup, fun x hx => h.fresh x (hsub x hx),
    fun i ho => ⟨(h.others i ho).1, fun x hx => (h.others i ho).2 x (hsub x hx)⟩,
    fun t st i ht => ⟨(h.kept t st i ht).1, fun x hx => (h.kept t st i ht).2 x (hsub x hx)⟩,
    fun x hx => h.own x (hsub x hx), fun t st o ht => (h.due_ring hy ht).trans (h.due t st o ht),
    h.known, fun t ht => ?_⟩
  rcases List.mem_append.mp ht with ht | ht
  · exact h.rung t ht
  · exact h.known t _ (h.own y hy t (List.mem_singleton.mp ht).symm).2

/-- an alarm is handled that calls for no task in flight -/
theorem Right.hear {s : Clocks} (h : s.Right) {a : Alarm}
    (ha : ∀ t, a = .retryDue t → s.kept t = none) : Right { s with rung := s.rung.erase a } where
  nodup := h.nodup
  fresh := h.fresh
  others := h.others
  kept := h.kept
  own := h.own
  due := by
    intro t st o ht
    rw [← h.due t st o ht]
    have hne : Alarm.retryDue t ≠ a := by
      rintro rfl
      have := (ha t rfl).symm.trans ht
      cases this
    show _ + (s.rung.erase a).count _ = _ + _
    rw [List.count_erase_of_ne hne]
  known := h.known
  rung := fun t ht => h.rung t (List.mem_of_mem_erase ht)

/-- a task is called for, and waits again -/
theorem Right.requeue {s : Clocks} (h : s.Right) {t : TaskId} {o : Option TimerId}
    (ht : s.kept t = some (.retrying, o)) (ha : .retryDue t ∈ s.rung) :
    Right { s with
      rung := s.rung.erase (.retryDue t)
      kept := update s.kept t (some (.queued, none)) } := by
  have hdue : s.timers.countP (fun x => x.alarm == .retryDue t) + s.rung.count (.retryDue t) = 1 :=
    h.due t _ o ht
  have hpos := List.count_pos_iff.mpr ha
  refine ⟨h.nodup, h.fresh, h.others, fun u st i hu => ?_, fun x hx u hxu => ?_,
    fun u st o' hu => ?_, fun u y hu => ?_, fun u hu => h.rung u (List.mem_of_mem_erase hu)⟩
  · rcases update_eq_some hu with ⟨_, hy⟩ | ⟨_, hu⟩
    · cases hy
    · exact h.kept u st i hu
  · obtain ⟨hrep, hown⟩ := h.own x hx u hxu
    have hne : u ≠ t := by
      rintro rfl
      have : 0 < s.timers.countP (fun x => x.alarm == .retryDue u) :=
        List.countP_pos_iff.mpr ⟨x, hx, by simp [hxu]⟩
      omega
    exact ⟨hrep, (update_of_ne hne _ _).trans hown⟩
  · show s.timers.countP _ + (s.rung.erase _).count _ = _
    rcases update_eq_some hu with ⟨rfl, hy⟩ | ⟨hne, hu⟩
    · cases hy
      rw [List.count_erase_self, if_neg Status.noConfusion]
      omega
    · rw [List.count_erase_of_ne (by simp [hne]), ← h.due u st o' hu]
      rfl
  · rcases update_eq_some hu with ⟨rfl, _⟩ | ⟨_, hu⟩
    · exact h.known u _ ht
    · exact h.known u y hu

end Clocks

end TaskPool
