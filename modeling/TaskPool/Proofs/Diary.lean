import TaskPool.Proofs.Clocks

/-!
# Timers and what they are for

A `Diary` is what the records of a pool call for, side by side with the timers that are armed and
the alarms that went off and were not handled yet.

* `Want`             the timer that is kept for an alarm, and how long after the call for it the
                     alarm is due
* `Diary.Slot`       an alarm that is called for is pending once, and due at its time; one that is
                     not called for has no timer, and if it is still to be handled it comes too late
* `Diary.Right`      every alarm has its slot, and the timers that are kept are not mixed up
* `Right.arm`, `unarmed`, `drop`, `consume`, `ring`, `hear`   the changes that keep a diary right

Why alarms are past: an alarm that comes too late must not be taken for one that is called for
afterwards, so what is called for anew must never have been called for before, as far as alarms that
are still to be handled go.
-/

namespace TaskPool

open Function

/-- what the records say of an alarm that they call for -/
structure Want where
  /-- the timer that was armed for it, if one could be -/
  kept : Option TimerId
  delay : Duration

structure Diary where
  timers : List Timer
  /-- alarms that were not handled yet -/
  rung : List Alarm
  /-- the next timer number -/
  next : TimerId
  /-- when a timer goes off -/
  due : TimerId → Nat
  clock : Nat
  /-- when an alarm came to be called for -/
  since : Alarm → Nat
  want : Alarm → Option Want
  /-- it was called for once, and it will not be again while it waits to be handled -/
  past : Alarm → Prop
  /-- the timer of the autoscaler -/
  ticks : Option TimerId

namespace Diary

def armed (s : Diary) (a : Alarm) : List Timer := s.timers.filter fun x => x.alarm == a

inductive Slot (s : Diary) (a : Alarm) : Option Want → Prop where
  | armed (i : TimerId) (d : Duration) (ha : s.armed a = [⟨i, a, false⟩]) (hr : a ∉ s.rung)
      (hd : s.due i = s.since a + d.nanos) : Slot s a (some ⟨some i, d⟩)
  | rung (i : TimerId) (d : Duration) (ha : s.armed a = []) (hr : s.rung.count a = 1)
      (hd : s.since a + d.nanos ≤ s.clock) : Slot s a (some ⟨some i, d⟩)
  | unarmed (d : Duration) (ha : s.armed a = []) (hr : a ∉ s.rung) : Slot s a (some ⟨none, d⟩)
  | idle (ha : s.armed a = []) (hp : a ∈ s.rung → s.past a) : Slot s a none

structure Right (s : Diary) : Prop where
  nodup : (s.timers.map Timer.id).Nodup
  fresh : ∀ x ∈ s.timers, x.id < s.next
  ticks : ∀ i, s.ticks = some i → i < s.next ∧
    ∀ x ∈ s.timers, x.id = i → x.alarm = .autoscaleTick
  kept : ∀ a i d, s.want a = some ⟨some i, d⟩ → i < s.next ∧
    ∀ x ∈ s.timers, x.id = i → x.alarm = a
  slot : ∀ a, a ≠ .autoscaleTick → s.Slot a (s.want a)
  unwanted : s.want .autoscaleTick = none

variable {s : Diary}

theorem mem_armed {a : Alarm} {x : Timer} : x ∈ s.armed a ↔ x ∈ s.timers ∧ x.alarm = a := by
  simp [armed, List.mem_filter]

theorem armed_eq_nil {a : Alarm} : s.armed a = [] ↔ ∀ x ∈ s.timers, x.alarm ≠ a := by
  simp [armed, List.filter_eq_nil_iff]

/-- an alarm keeps its timers when others are taken away -/
theorem armed_filter {a : Alarm} {p : Timer → Bool}
    (h : ∀ x ∈ s.timers, x.alarm = a → p x = true) :
    ((s.timers.filter p).filter fun x => x.alarm == a) = s.armed a := by
  unfold armed
  rw [List.filter_filter]
  refine List.filter_congr fun x hx => ?_
  by_cases hxa : x.alarm = a
  · rw [h x hx hxa, Bool.and_true]
  · rw [beq_eq_false_iff_ne.mpr hxa, Bool.false_and]

/-! ## what a slot says -/

theorem Slot.none_armed {a : Alarm} (h : s.Slot a none) : s.armed a = [] := by
  cases h
  assumption

/-- what is about other alarms leaves a slot as it is -/
theorem Slot.frame {s' : Diary} {a : Alarm} {w : Option Want} (h : s.Slot a w)
    (ha : s'.armed a = s.armed a) (hr : s'.rung.count a = s.rung.count a)
    (hd : ∀ i d, w = some ⟨some i, d⟩ → s'.due i = s.due i)
    (hs : ∀ x, w = some x → s'.since a = s.since a) (hc : s.clock ≤ s'.clock)
    (hp : a ∈ s.rung → s.past a → s'.past a) : s'.Slot a w := by
  have hmem : a ∈ s'.rung ↔ a ∈ s.rung := by
    rw [← List.count_pos_iff, ← List.count_pos_iff, hr]
  cases h with
  | armed i d hone hno hdue =>
    refine .armed i d (ha.trans hone) (fun hm => hno (hmem.mp hm)) ?_
    rw [hd i d rfl, hs _ rfl, hdue]
  | rung i d hnil hcount hdue =>
    refine .rung i d (ha.trans hnil) (hr.trans hcount) ?_
    rw [hs _ rfl]
    exact Nat.le_trans hdue hc
  | unarmed d hnil hno => exact .unarmed d (ha.trans hnil) fun hm => hno (hmem.mp hm)
  | idle hnil hpast => exact .idle (ha.trans hnil) fun hm => hp (hmem.mp hm) (hpast (hmem.mp hm))

/-- a timer stands for an alarm that is called for -/
theorem Right.of_mem (h : s.Right) {x : Timer} (hx : x ∈ s.timers) (ha : x.alarm ≠ .autoscaleTick) :
    ∃ d, s.want x.alarm = some ⟨some x.id, d⟩ ∧ x.repeats = false ∧ x.alarm ∉ s.rung ∧
      s.armed x.alarm = [x] ∧ s.due x.id = s.since x.alarm + d.nanos := by
  have hmem : x ∈ s.armed x.alarm := mem_armed.mpr ⟨hx, rfl⟩
  have hslot := h.slot x.alarm ha
  generalize hw : s.want x.alarm = w at hslot
  cases hslot with
  | armed i d hone hr hd =>
    have hxe : x = ⟨i, x.alarm, false⟩ := by
      rw [hone] at hmem
      exact List.mem_singleton.mp hmem
    have hi : x.id = i := congrArg Timer.id hxe
    have hrep : x.repeats = false := congrArg Timer.repeats hxe
    rw [← hxe] at hone
    rw [hi]
    exact ⟨d, rfl, hrep, hr, hone, hd⟩
  | rung _ _ hnone | unarmed _ hnone | idle hnone =>
    rw [hnone] at hmem
    cases hmem

/-! ## changes of what is called for -/

/-- some alarms are called for no longer, and their timers are taken back -/
theorem Right.drop (h : s.Right) (is : List TimerId) {want : Alarm → Option Want}
    {past : Alarm → Prop} {ticks : Option TimerId}
    (hwant : ∀ a, want a = s.want a ∨
      (want a = none ∧ (∀ x ∈ s.armed a, x.id ∈ is) ∧ (a ∈ s.rung → past a)))
    (hids : ∀ i ∈ is, ∀ x ∈ s.timers, x.id = i → x.alarm = .autoscaleTick ∨ want x.alarm = none)
    (hpast : ∀ a ∈ s.rung, s.past a → past a) (hticks : ∀ i, ticks = some i → s.ticks = some i) :
    Right { s with
      timers := Clocks.without s.timers is
      want := want
      past := past
      ticks := ticks } where
  nodup := h.nodup.sublist (List.filter_sublist.map Timer.id)
  fresh := fun x hx => h.fresh x (Clocks.mem_without.mp hx).1
  ticks := fun i hi =>
    ⟨(h.ticks i (hticks i hi)).1,
      fun x hx => (h.ticks i (hticks i hi)).2 x (Clocks.mem_without.mp hx).1⟩
  kept := by
    intro a i d ha
    have ha' : want a = some ⟨some i, d⟩ := ha
    rcases hwant a with hw | ⟨hw, _⟩
    · rw [hw] at ha'
      have hk := h.kept a i d ha'
      exact ⟨hk.1, fun x hx => hk.2 x (Clocks.mem_without.mp hx).1⟩
    · rw [hw] at ha'
      cases ha'
  slot := by
    intro a hna
    set s' : Diary := { s with
      timers := Clocks.without s.timers is
      want := want
      past := past
      ticks := ticks }
    have hkeep : want a ≠ none → s'.armed a = s.armed a := by
      refine fun hsome => armed_filter fun x hx hxa => ?_
      have hnot : x.id ∉ is := by
        intro hin
        rcases hids x.id hin x hx rfl with ht | hn
        · exact hna (hxa ▸ ht)
        · exact hsome (hxa ▸ hn)
      simp [hnot]
    show s'.Slot a (want a)
    rcases hwant a with hw | ⟨hw, hgone, hlate⟩
    · have hslot := h.slot a hna
      rw [hw] at hkeep ⊢
      refine hslot.frame ?_ rfl (fun _ _ _ => rfl) (fun _ _ => rfl) (Nat.le_refl _) (hpast a)
      cases hsa : s.want a with
      | some x => exact hkeep (by simp [hsa])
      | none =>
        rw [hsa] at hslot
        rw [hslot.none_armed]
        exact armed_eq_nil.mpr fun x hx =>
          armed_eq_nil.mp hslot.none_armed x (Clocks.mem_without.mp hx).1
    · rw [hw]
      refine .idle (armed_eq_nil.mpr fun x hx hxa => ?_) hlate
      obtain ⟨hx, hnot⟩ := Clocks.mem_without.mp hx
      exact hnot (hgone x (mem_armed.mpr ⟨hx, hxa⟩))
  unwanted := by
    show want .autoscaleTick = none
    rcases hwant .autoscaleTick with hw | ⟨hw, _⟩
    · exact hw.trans h.unwanted
    · exact hw

/-- no alarm is called for that was not, or the other way round -/
theorem Right.same (h : s.Right) {want : Alarm → Option Want} {past : Alarm → Prop}
    (hwant : ∀ a, want a = s.want a) (hpast : ∀ a ∈ s.rung, s.past a → past a) :
    Right { s with
      want := want
      past := past } where
  nodup := h.nodup
  fresh := h.fresh
  ticks := h.ticks
  kept := fun a i d ha => h.kept a i d ((hwant a).symm.trans ha)
  slot := by
    intro a hna
    show Slot _ a (want a)
    rw [hwant a]
    exact (h.slot a hna).frame rfl rfl (fun _ _ _ => rfl) (fun _ _ => rfl) (Nat.le_refl _) (hpast a)
  unwanted := (hwant _).trans h.unwanted

/-- a timer of a new number changes no slot but that of its alarm -/
theorem Right.slot_arm (h : s.Right) {a b : Alarm} (hb : b ≠ .autoscaleTick) (hab : b ≠ a)
    (repeats : Bool) (time : Nat) {want : Alarm → Option Want} {ticks : Option TimerId} :
    Slot { s with
      timers := s.timers ++ [⟨s.next, a, repeats⟩]
      next := s.next + 1
      due := update s.due s.next time
      want := want
      ticks := ticks } b (s.want b) := by
  set s' : Diary := { s with
    timers := s.timers ++ [⟨s.next, a, repeats⟩]
    next := s.next + 1
    due := update s.due s.next time
    want := want
    ticks := ticks }
  have harmed : s'.armed b = s.armed b := by
    show (s.timers ++ [_]).filter _ = s.timers.filter _
    rw [List.filter_append]
    have hnot : (a == b) = false := by simp [Ne.symm hab]
    simp [hnot]
  refine (h.slot b hb).frame harmed rfl (fun i d hw => ?_) (fun _ _ => rfl) (Nat.le_refl _)
    fun _ hp => hp
  exact update_of_ne (Nat.ne_of_lt (h.kept b i d hw).1) _ _

section
variable (h : s.Right) (a : Alarm) (repeats : Bool)
include h

theorem Right.nodup_arm :
    ((s.timers ++ [(⟨s.next, a, repeats⟩ : Timer)]).map Timer.id).Nodup := by
  rw [List.map_append]
  refine List.nodup_append.mpr ⟨h.nodup, by simp, fun i hi j hj hij => ?_⟩
  obtain ⟨x, hx, rfl⟩ := List.mem_map.mp hi
  rw [List.mem_singleton.mp hj] at hij
  exact Nat.ne_of_lt (h.fresh x hx) hij

theorem Right.fresh_arm : ∀ x ∈ s.timers ++ [⟨s.next, a, repeats⟩], x.id < s.next + 1 := by
  intro x hx
  rcases List.mem_append.mp hx with hx | hx
  · exact Nat.lt_succ_of_lt (h.fresh x hx)
  · rw [List.mem_singleton.mp hx]
    exact Nat.lt_succ_self s.next

omit h in
/-- the timers of an older number are as before -/
theorem mem_older {x : Timer} (hx : x ∈ s.timers ++ [⟨s.next, a, repeats⟩]) {i : TimerId}
    (hi : i < s.next) (hxi : x.id = i) : x ∈ s.timers := by
  rcases List.mem_append.mp hx with hx | hx
  · exact hx
  · rw [List.mem_singleton.mp hx] at hxi
    exact absurd hxi (Nat.ne_of_gt hi)

theorem Right.kept_arm {b : Alarm} {i : TimerId} {d : Duration}
    (hb : s.want b = some ⟨some i, d⟩) :
    i < s.next + 1 ∧ ∀ x ∈ s.timers ++ [⟨s.next, a, repeats⟩], x.id = i → x.alarm = b := by
  obtain ⟨hlt, hk⟩ := h.kept b i d hb
  exact ⟨Nat.lt_succ_of_lt hlt, fun x hx hxi => hk x (mem_older a repeats hx hlt hxi) hxi⟩

end

section
variable (h : s.Right) {a : Alarm} (ha : a ≠ .autoscaleTick) (hnone : s.want a = none)
  (hnew : ¬ s.past a) (d : Duration)
include h ha hnone hnew

/-- an alarm comes to be called for, and a timer is armed for it -/
theorem Right.arm (hsince : s.since a = s.clock) :
    Right { s with
      timers := s.timers ++ [⟨s.next, a, false⟩]
      next := s.next + 1
      due := update s.due s.next (s.clock + d.nanos)
      want := update s.want a (some ⟨some s.next, d⟩) } where
  nodup := h.nodup_arm a false
  fresh := h.fresh_arm a false
  ticks := fun i hi =>
    ⟨Nat.lt_succ_of_lt (h.ticks i hi).1,
      fun x hx hxi => (h.ticks i hi).2 x (mem_older a false hx (h.ticks i hi).1 hxi) hxi⟩
  kept := by
    intro b i d' hb
    rcases update_eq_some hb with ⟨rfl, hv⟩ | ⟨_, hb⟩
    · cases hv
      refine ⟨Nat.lt_succ_self s.next, fun x hx hxi => ?_⟩
      rcases List.mem_append.mp hx with hx | hx
      · exact absurd hxi (Nat.ne_of_lt (h.fresh x hx))
      · rw [List.mem_singleton.mp hx]
    · exact h.kept_arm a false hb
  slot := by
    intro b hb
    by_cases hba : b = a
    · subst hba
      have hslot := h.slot b hb
      rw [hnone] at hslot
      cases hslot with
      | idle hempty hp =>
        show Slot _ b (update s.want b _ b)
        rw [update_self]
        refine .armed s.next d ?_ (fun hr => hnew (hp hr)) ?_
        · show (s.timers ++ [_]).filter _ = _
          rw [List.filter_append, show s.timers.filter _ = [] from hempty]
          simp
        · show update s.due s.next _ s.next = s.since b + d.nanos
          rw [update_self, hsince]
    · show Slot _ b (update s.want a _ b)
      rw [update_of_ne hba]
      exact h.slot_arm hb hba false _
  unwanted := (update_of_ne (Ne.symm ha) _ _).trans h.unwanted

/-- an alarm comes to be called for, and no timer can be armed for it -/
theorem Right.unarmed :
    Right { s with want := update s.want a (some ⟨none, d⟩) } where
  nodup := h.nodup
  fresh := h.fresh
  ticks := h.ticks
  kept := by
    intro b i d' hb
    rcases update_eq_some hb with ⟨_, hv⟩ | ⟨_, hb⟩
    · cases hv
    · exact h.kept b i d' hb
  slot := by
    intro b hb
    show Slot _ b (update s.want a _ b)
    by_cases hba : b = a
    · subst hba
      have hslot := h.slot b hb
      rw [hnone] at hslot
      rw [update_self]
      cases hslot with
      | idle hempty hp => exact .unarmed d hempty fun hr => hnew (hp hr)
    · rw [update_of_ne hba]
      exact (h.slot b hb).frame rfl rfl (fun _ _ _ => rfl) (fun _ _ => rfl) (Nat.le_refl _)
        fun _ hp => hp
  unwanted := (update_of_ne (Ne.symm ha) _ _).trans h.unwanted

end

/-- an alarm comes to be called for, and a timer is armed for it if that can be done -/
theorem Right.begin (h : s.Right) {a : Alarm} (ha : a ≠ .autoscaleTick) (hnone : s.want a = none)
    (hnew : ¬ s.past a) (d : Duration) (hsince : s.since a = s.clock) (attached : Bool) :
    Right { s with
      timers := if attached then s.timers ++ [⟨s.next, a, false⟩] else s.timers
      next := if attached then s.next + 1 else s.next
      due := if attached then update s.due s.next (s.clock + d.nanos) else s.due
      want := update s.want a (some ⟨if attached then some s.next else none, d⟩) } := by
  cases attached with
  | true => exact h.arm ha hnone hnew d hsince
  | false => exact h.unarmed ha hnone hnew d

/-- the autoscaler gets a timer -/
theorem Right.tick (h : s.Right) (time : Nat) :
    Right { s with
      timers := s.timers ++ [⟨s.next, .autoscaleTick, true⟩]
      next := s.next + 1
      due := update s.due s.next time
      ticks := some s.next } where
  nodup := h.nodup_arm _ true
  fresh := h.fresh_arm _ true
  ticks := by
    intro i hi
    cases hi
    refine ⟨Nat.lt_succ_self s.next, fun x hx hxi => ?_⟩
    rcases List.mem_append.mp hx with hx | hx
    · exact absurd hxi (Nat.ne_of_lt (h.fresh x hx))
    · rw [List.mem_singleton.mp hx]
  kept := fun b i d hb => h.kept_arm _ true hb
  slot := fun b hb => h.slot_arm hb hb true time
  unwanted := h.unwanted

/-! ## alarms -/

/-- a timer goes off -/
theorem Right.ring (h : s.Right) {x : Timer} (hx : x ∈ s.timers) (hdue : s.due x.id ≤ s.clock)
    (time : Nat) :
    Right { s with
      timers := if x.repeats then s.timers else s.timers.filter fun y => y.id != x.id
      rung := s.rung ++ [x.alarm]
      due := if x.repeats then update s.due x.id time else s.due } := by
  have hsub : ∀ y ∈ (if x.repeats then s.timers else s.timers.filter fun y => y.id != x.id),
      y ∈ s.timers := by
    intro y hy
    split at hy
    · exact hy
    · exact (List.mem_filter.mp hy).1
  refine ⟨?_, fun y hy => h.fresh y (hsub y hy),
    fun i hi => ⟨(h.ticks i hi).1, fun y hy => (h.ticks i hi).2 y (hsub y hy)⟩,
    fun b i d hb => ⟨(h.kept b i d hb).1, fun y hy => (h.kept b i d hb).2 y (hsub y hy)⟩, ?_,
    h.unwanted⟩
  · show (List.map Timer.id (if _ then _ else _)).Nodup
    split
    · exact h.nodup
    · exact h.nodup.sublist (List.filter_sublist.map Timer.id)
  intro b hb
  set s' : Diary := { s with
    timers := if x.repeats then s.timers else s.timers.filter fun y => y.id != x.id
    rung := s.rung ++ [x.alarm]
    due := if x.repeats then update s.due x.id time else s.due }
  by_cases hbx : b = x.alarm
  · subst hbx
    obtain ⟨d, hw, hrep, hr, hone, hd⟩ := h.of_mem hx hb
    show s'.Slot x.alarm (s.want x.alarm)
    rw [hw]
    refine .rung x.id d (armed_eq_nil.mpr fun y hy hya => ?_) ?_ ?_
    · have hyr : y ∈ s.timers.filter fun y => y.id != x.id := by
        have hy' : y ∈ (if x.repeats then s.timers else s.timers.filter fun y => y.id != x.id) := hy
        rwa [hrep, if_neg Bool.false_ne_true] at hy'
      obtain ⟨hy, hne⟩ := List.mem_filter.mp hyr
      have hyx : y ∈ s.armed x.alarm := mem_armed.mpr ⟨hy, hya⟩
      rw [hone] at hyx
      rw [List.mem_singleton.mp hyx] at hne
      simp at hne
    · show (s.rung ++ [x.alarm]).count x.alarm = 1
      rw [List.count_append, List.count_eq_zero.mpr hr, List.count_singleton_self]
    · show s.since x.alarm + d.nanos ≤ s.clock
      rw [← hd]
      exact hdue
  · -- what is kept for another alarm is not the timer that goes off
    have hother : ∀ i d, s.want b = some ⟨some i, d⟩ → i ≠ x.id := by
      intro i d hw hi
      exact hbx ((h.kept b i d hw).2 x hx hi.symm).symm
    refine (h.slot b hb).frame ?_ ?_ (fun i d hw => ?_) (fun _ _ => rfl) (Nat.le_refl _)
      fun _ hp => hp
    · show List.filter _ (if x.repeats then s.timers else s.timers.filter _) = s.armed b
      split
      · rfl
      · refine armed_filter fun y hy hyb => ?_
        obtain ⟨d, hw, _⟩ := h.of_mem hy (hyb ▸ hb)
        exact bne_iff_ne.mpr (hother y.id d (hyb ▸ hw))
    · show (s.rung ++ [x.alarm]).count b = _
      rw [List.count_append, List.count_singleton, if_neg (by simp [Ne.symm hbx]), Nat.add_zero]
    · show (if x.repeats then update s.due x.id time else s.due) i = _
      split
      · exact update_of_ne (hother i d hw) _ _
      · rfl

/-- an alarm is handled that nothing calls for any more -/
theorem Right.hear (h : s.Right) {a : Alarm} (ha : s.want a = none) :
    Right { s with rung := s.rung.erase a } where
  nodup := h.nodup
  fresh := h.fresh
  ticks := h.ticks
  kept := h.kept
  slot := by
    intro b hb
    have hslot := h.slot b hb
    show Slot _ b (s.want b)
    by_cases hba : b = a
    · subst hba
      rw [ha] at hslot ⊢
      cases hslot with
      | idle hn hp => exact .idle hn fun hr => hp (List.mem_of_mem_erase hr)
    · exact hslot.frame rfl (List.count_erase_of_ne hba) (fun _ _ _ => rfl) (fun _ _ => rfl)
        (Nat.le_refl _) fun _ hp => hp
  unwanted := h.unwanted

/-- an alarm is handled that was called for, and then is no longer -/
theorem Right.consume (h : s.Right) {a : Alarm} (ha : a ≠ .autoscaleTick) (hr : a ∈ s.rung)
    {x : Want} (hx : s.want a = some x) :
    Right { s with
      rung := s.rung.erase a
      want := update s.want a none } := by
  obtain ⟨hempty, hcount⟩ : s.armed a = [] ∧ s.rung.count a = 1 := by
    have hslot := h.slot a ha
    rw [hx] at hslot
    cases hslot with
    | armed _ _ _ hno | unarmed _ _ hno => exact absurd hr hno
    | rung i d hn hc => exact ⟨hn, hc⟩
  have hlast : a ∉ s.rung.erase a := by
    rw [← List.count_eq_zero, List.count_erase_self, hcount]
  refine ⟨h.nodup, h.fresh, h.ticks, fun b i d hb => ?_, fun b hb => ?_, ?_⟩
  · rcases update_eq_some hb with ⟨_, hv⟩ | ⟨_, hb⟩
    · cases hv
    · exact h.kept b i d hb
  · show Slot _ b (update s.want a none b)
    by_cases hba : b = a
    · subst hba
      rw [update_self]
      exact .idle hempty fun hm => absurd hm hlast
    · rw [update_of_ne hba]
      exact (h.slot b hb).frame rfl (List.count_erase_of_ne hba) (fun _ _ _ => rfl)
        (fun _ _ => rfl) (Nat.le_refl _) fun _ hp => hp
  · exact (update_of_ne (Ne.symm ha) _ _).trans h.unwanted

/-- time passes, and only what is called for now has been called for since some time -/
theorem Right.pass (h : s.Right) {clock : Nat} (hc : s.clock ≤ clock) {since : Alarm → Nat}
    (hs : ∀ a x, s.want a = some x → since a = s.since a) :
    Right { s with
      clock := clock
      since := since } where
  nodup := h.nodup
  fresh := h.fresh
  ticks := h.ticks
  kept := h.kept
  slot := by
    intro a ha
    exact (h.slot a ha).frame rfl rfl (fun _ _ _ => rfl) (hs a) hc fun _ hp => hp
  unwanted := h.unwanted

end Diary

end TaskPool
