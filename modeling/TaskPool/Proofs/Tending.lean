import TaskPool.Proofs.Chore
import TaskPool.Proofs.Wanting

/-!
# The timers are those that the records call for

Within a step the outbox is as good as done: `Tends` compares the records of the pool with the
timers as they will be once its effects so far are carried out.

* `Tends.quiet`, `forget`   what changes nothing that timers are for, and what ends it
* `Tends.dispose`, `retire`   a worker goes, and a worker is told to go
* `Chores.tends`            chores keep the diary right

Why the diary at the beginning of the step is kept: what is called for in a step must not have been
called for when the step began, or its time would be counted from the wrong moment.
-/

namespace TaskPool

open Function Relation

namespace Pool

/-! ## within a step -/

/-- the diary within a step; `s` is the diary at its beginning -/
def diary (p : Pool) (s : Diary) (taken : List TaskId) : Diary where
  timers := wind s.timers p.outbox
  rung := s.rung
  next := p.nextTimer
  due := appoint s.clock s.due p.outbox
  clock := s.clock
  since := s.since
  want := p.want?
  past := p.Past taken
  ticks := p.autoscaleTimer

/-- `q` goes on from `p` without a timer being armed -/
theorem diary_armless {p q : Pool} {s : Diary} {taken : List TaskId} {es : List Effect}
    (ho : q.outbox = p.outbox ++ es) (ha : ∀ e ∈ es, e.Armless) (hn : q.nextTimer = p.nextTimer) :
    q.diary s taken = { p.diary s taken with
      timers := Clocks.without (p.diary s taken).timers (disarmed es)
      want := q.want?
      past := q.Past taken
      ticks := q.autoscaleTimer } := by
  unfold diary
  rw [ho, wind_append, wind_armless ha, appoint_append, appoint_armless ha, hn]

/-- `q` goes on from `p`; timers are taken back, and then one is armed if that can be done -/
theorem diary_begin {p q : Pool} {s : Diary} {taken : List TaskId} (es fs : List Effect)
    {d : Duration} {a : Alarm} (attached : Bool)
    (ho : q.outbox
      = p.outbox ++ (es ++ ((if attached then [.arm p.nextTimer d a] else []) ++ fs)))
    (he : ∀ e ∈ es, e.Armless) (hf : ∀ e ∈ fs, e.Armless) (hd : disarmed fs = [])
    (hn : q.nextTimer = if attached then p.nextTimer + 1 else p.nextTimer) :
    q.diary s taken = { p.diary s taken with
      timers := if attached
        then Clocks.without (p.diary s taken).timers (disarmed es) ++ [⟨p.nextTimer, a, false⟩]
        else Clocks.without (p.diary s taken).timers (disarmed es)
      next := if attached then p.nextTimer + 1 else p.nextTimer
      due := if attached then update (p.diary s taken).due p.nextTimer (s.clock + d.nanos)
        else (p.diary s taken).due
      want := q.want?
      past := q.Past taken
      ticks := q.autoscaleTimer } := by
  unfold diary
  rw [ho, hn, wind_append, wind_append, wind_append, wind_armless he, wind_armless hf, hd,
    without_nil, appoint_append, appoint_append, appoint_append, appoint_armless he,
    appoint_armless hf]
  cases attached <;> rfl

structure Tends (m : Moment) (msg : Message) (s : Diary) (taken : List TaskId) (p : Pool) : Prop
    where
  sound : p.roster.Sound
  nodup : p.ledger.ids.Nodup
  tasks : ∀ t k, p.ledger.find? t = some k → t ∈ taken ∧ k.Bare
  /-- whoever is live was not stopping when the step began -/
  entries : ∀ w e, p.roster.find? w = some e → e.status ≠ .stopping →
    e.stopTimer = none ∧ s.want (.stopDeadline w) = none
  older : ∀ w, s.want (.stopDeadline w) ≠ none → w < p.roster.nextId
  right : (p.diary s taken).Right
  unarmed : ∀ a d, p.want? a = some ⟨none, d⟩ →
    (∃ d', s.want a = some ⟨none, d'⟩) ∨ m.attached = false
  origin : ∀ a, p.want? a ≠ none → s.want a ≠ none ∨ msg.Begins a

variable {m : Moment} {msg : Message} {s : Diary} {taken : List TaskId}

theorem bind_of_map {α β γ : Type} {f : α → β} {g g' : α → Option γ}
    (hg : ∀ x y, f x = f y → g x = g' y) {o o' : Option α} (h : o.map f = o'.map f) :
    o.bind g = o'.bind g' := by
  cases o with
  | none =>
    cases o' with
    | none => rfl
    | some y => cases h
  | some x =>
    cases o' with
    | none => cases h
    | some y => exact hg x y (Option.some.inj h)

/-- what is called for from `q` on is what was called for before, or the message gives rise to it -/
theorem Tends.wants {p q : Pool} (h : Tends m msg s taken p)
    (hw : ∀ a w, q.want? a = some w →
      p.want? a = some w ∨ (msg.Begins a ∧ (w.kept = none → m.attached = false))) :
    (∀ a d, q.want? a = some ⟨none, d⟩ → (∃ d', s.want a = some ⟨none, d'⟩) ∨ m.attached = false) ∧
      ∀ a, q.want? a ≠ none → s.want a ≠ none ∨ msg.Begins a := by
  refine ⟨fun a d hx => ?_, fun a hx => ?_⟩
  · rcases hw a _ hx with hp | ⟨_, hatt⟩
    · exact h.unarmed a d hp
    · exact .inr (hatt rfl)
  · obtain ⟨w, hq⟩ := Option.ne_none_iff_exists'.mp hx
    rcases hw a w hq with hp | ⟨hmsg, _⟩
    · exact h.origin a (by rw [hp]; exact Option.some_ne_none w)
    · exact .inr hmsg

/-- nothing is called for that was not before -/
theorem Tends.wants_fewer {p q : Pool} (h : Tends m msg s taken p)
    (hw : ∀ a, q.want? a = p.want? a ∨ q.want? a = none) :
    (∀ a d, q.want? a = some ⟨none, d⟩ → (∃ d', s.want a = some ⟨none, d'⟩) ∨ m.attached = false) ∧
      ∀ a, q.want? a ≠ none → s.want a ≠ none ∨ msg.Begins a := by
  refine h.wants fun a w hq => .inl ?_
  rcases hw a with hp | hn
  · exact hp.symm.trans hq
  · rw [hn] at hq
    cases hq

/-- nothing changes that a timer depends on -/
theorem Tends.quiet {p q : Pool} (h : Tends m msg s taken p) {es : List Effect}
    (ho : q.outbox = p.outbox ++ es) (ha : ∀ e ∈ es, e.Armless) (hd : disarmed es = [])
    (hn : q.nextTimer = p.nextTimer) (ht : q.autoscaleTimer = p.autoscaleTimer)
    (hc : q.config = p.config) (hs : q.roster.Sound) (hid : q.roster.nextId = p.roster.nextId)
    (hids : q.ledger.ids = p.ledger.ids)
    (hl : ∀ t, (q.ledger.find? t).map Task.dial = (p.ledger.find? t).map Task.dial)
    (hr : ∀ w, (q.roster.find? w).map Entry.dial = (p.roster.find? w).map Entry.dial) :
    Tends m msg s taken q := by
  have hwant : ∀ a, q.want? a = p.want? a := fun a =>
    want?_congr a (fun t _ => bind_of_map (fun x y hxy => Task.want?_of_dial hxy a) (hl t))
      fun w _ => by
        rw [hc]
        exact bind_of_map (fun x y hxy => Entry.want?_of_dial hxy _) (hr w)
  have htask : ∀ t k', q.ledger.find? t = some k' →
      ∃ k, p.ledger.find? t = some k ∧ k'.dial = k.dial := by
    intro t k' hk'
    have hmap := hl t
    rw [hk'] at hmap
    obtain ⟨k, hk, hkd⟩ := Option.map_eq_some_iff.mp hmap.symm
    exact ⟨k, hk, hkd.symm⟩
  have hentry : ∀ w e', q.roster.find? w = some e' →
      ∃ e, p.roster.find? w = some e ∧ e'.dial = e.dial := by
    intro w e' he'
    have hmap := hr w
    rw [he'] at hmap
    obtain ⟨e, he, hed⟩ := Option.map_eq_some_iff.mp hmap.symm
    exact ⟨e, he, hed.symm⟩
  obtain ⟨hunarmed, horigin⟩ := h.wants_fewer fun a => .inl (hwant a)
  refine ⟨hs, hids ▸ h.nodup, fun t k' hk' => ?_, fun w e' he' hst => ?_,
    fun w hw => hid ▸ h.older w hw, ?_, hunarmed, horigin⟩
  · obtain ⟨k, hk, hdial⟩ := htask t k' hk'
    simp only [Task.dial, Prod.mk.injEq] at hdial
    obtain ⟨hmem, hbare⟩ := h.tasks t k hk
    refine ⟨hmem, fun h1 h2 => ?_⟩
    rw [hdial.2.2.2.1]
    exact hbare (hdial.1 ▸ h1) (hdial.1 ▸ h2)
  · obtain ⟨e, he, hdial⟩ := hentry w e' he'
    simp only [Entry.dial, Prod.mk.injEq] at hdial
    rw [hdial.2]
    refine h.entries w e he fun hn => hst ?_
    have hb := hdial.1
    rw [hn] at hb
    exact eq_of_beq hb
  · rw [diary_armless ho ha hn, hd, without_nil, ht]
    refine h.right.same hwant fun a _ hp => ?_
    refine Past.mono hp (List.Subset.refl _) (fun t _ k' hk' => ?_) (Nat.le_of_eq hid.symm)
      fun w _ hw => ?_
    · obtain ⟨k, hk, hdial⟩ := htask t k' hk'
      simp only [Task.dial, Prod.mk.injEq] at hdial
      exact ⟨k, hk, by rw [hdial.2.2.1]; exact UInt32.le_refl _⟩
    · cases hq : q.roster.find? w with
      | none => rfl
      | some e' =>
        obtain ⟨e, he, _⟩ := hentry w e' hq
        rw [hw] at he
        cases he

/-- the same where nothing is said of the ledger -/
theorem Tends.reentry {p q : Pool} (h : Tends m msg s taken p) {es : List Effect}
    (ho : q.outbox = p.outbox ++ es) (ha : ∀ e ∈ es, e.Armless) (hd : disarmed es = [])
    (hn : q.nextTimer = p.nextTimer) (ht : q.autoscaleTimer = p.autoscaleTimer)
    (hc : q.config = p.config) (hl : q.ledger = p.ledger) (w : WorkerId) (f : Entry → Entry)
    (hf : ∀ e, (f e).worker = e.worker)
    (hr : q.roster = p.roster.modify w f)
    (hdial : ∀ e, p.roster.find? w = some e → (f e).dial = e.dial) : Tends m msg s taken q := by
  refine h.quiet ho ha hd hn ht hc (hr ▸ h.sound.modify f hf w) (by rw [hr]; rfl)
    (by rw [hl]) (fun t => by rw [hl]) fun x => ?_
  rw [hr, Roster.find?_modify p.roster f hf]
  split
  · rename_i hx
    subst hx
    cases he : p.roster.find? x with
    | none => rfl
    | some e => exact congrArg some (hdial e he)
  · rfl

/-- what is noted of a worker does not bear on its timer -/
theorem Tends.note {p : Pool} (h : Tends m msg s taken p) (w : WorkerId) {f : Entry → Entry}
    (hf : ∀ e, (f e).worker = e.worker)
    (hdial : ∀ e, p.roster.find? w = some e → (f e).dial = e.dial) :
    Tends m msg s taken (p.updateEntry w f) :=
  h.reentry (List.append_nil _).symm (fun e he => by cases he) rfl rfl rfl rfl rfl w f hf rfl hdial

/-- nothing changes but what no timer depends on -/
theorem Tends.silent {p q : Pool} (h : Tends m msg s taken p) {es : List Effect}
    (ho : q.outbox = p.outbox ++ es) (ha : ∀ e ∈ es, e.Armless) (hd : disarmed es = [])
    (hn : q.nextTimer = p.nextTimer) (ht : q.autoscaleTimer = p.autoscaleTimer)
    (hc : q.config = p.config) (hl : q.ledger = p.ledger) (hr : q.roster = p.roster) :
    Tends m msg s taken q :=
  h.quiet ho ha hd hn ht hc (hr ▸ h.sound) (by rw [hr]) (by rw [hl]) (fun t => by rw [hl])
    fun w => by rw [hr]

theorem Tends.hire {p : Pool} (h : Tends m msg s taken p) : Tends m msg s taken (p.hire m) := by
  by_cases ha : m.attached = true
  · rw [hire_of_attached ha]
    have hnone := h.sound.find?_of_le (Nat.le_refl p.roster.nextId)
    set q : Pool := { p with
      roster := p.roster.enrol m.now
      outbox := p.outbox ++ [.hire p.roster.nextId] }
    have hfind : ∀ w, q.roster.find? w
        = if w = p.roster.nextId then some (.new p.roster.nextId p.roster.nextId m.now)
          else p.roster.find? w := p.roster.find?_enrol m.now
    have hwant : ∀ a, q.want? a = p.want? a := fun a =>
      want?_congr a (fun _ _ => rfl) fun w _ => by
        rw [hfind]
        split
        · rename_i hw
          rw [hw, hnone]
          rfl
        · rfl
    obtain ⟨hunarmed, horigin⟩ := h.wants_fewer fun a => .inl (hwant a)
    refine ⟨h.sound.enrol m.now, h.nodup, h.tasks, fun w e he hst => ?_,
      fun w hw => Nat.lt_succ_of_lt (h.older w hw), ?_, hunarmed, horigin⟩
    · rw [hfind] at he
      split at he
      · rename_i hw
        cases he
        refine ⟨rfl, Classical.byContradiction fun hno => ?_⟩
        exact absurd (h.older w hno) (by rw [hw]; exact Nat.lt_irrefl _)
      · exact h.entries w e he hst
    · have ho : q.outbox = p.outbox ++ [.hire p.roster.nextId] := rfl
      rw [diary_armless ho (armless_one trivial) rfl,
        show disarmed [Effect.hire p.roster.nextId] = [] from rfl, without_nil]
      refine h.right.same hwant fun a _ hp => ?_
      refine Past.mono hp (List.Subset.refl _) (fun t _ k' hk' => ⟨k', hk', UInt32.le_refl _⟩)
        (Nat.le_succ _) fun w hlt hw => ?_
      rw [hfind, if_neg (Nat.ne_of_lt hlt)]
      exact hw
  · rw [hire_of_detached (by simpa using ha)]
    exact h

/-! ## what is called for no longer -/

/-- the task of an alarm that was not handled yet was accepted -/
theorem Tends.accepted_of_rung {p : Pool} (h : Tends m msg s taken p) {a : Alarm} {t : TaskId}
    (hat : a.task? = some t) (ha : a ∈ s.rung) : t ∈ taken := by
  cases hk : p.ledger.find? t with
  | some k => exact (h.tasks t k hk).1
  | none =>
    have hna : a ≠ .autoscaleTick := by
      rintro rfl
      cases hat
    have hslot := h.right.slot a hna
    rw [show (p.diary s taken).want a = none from want?_of_unlisted hat hk] at hslot
    cases hslot with
    | idle _ hp =>
      have hpast : p.Past taken a := hp ha
      cases a with
      | taskTimeout | retryDue =>
        cases hat
        exact hpast.1
      | _ => cases hat

theorem past_of_unlisted {p : Pool} {a : Alarm} {t : TaskId} (hat : a.task? = some t)
    (ht : t ∈ taken) (hk : p.ledger.find? t = none) : p.Past taken a := by
  cases a with
  | taskTimeout _ n =>
    cases hat
    refine ⟨ht, fun k hk' => ?_⟩
    rw [hk] at hk'
    cases hk'
  | retryDue =>
    cases hat
    exact ⟨ht, hk⟩
  | _ => cases hat

/-- the armed timers for an alarm about a task are kept with the task -/
theorem Tends.timer_of_armed {p : Pool} (h : Tends m msg s taken p) {a : Alarm} {t : TaskId}
    (hat : a.task? = some t) {x : Timer} (hx : x ∈ (p.diary s taken).armed a) :
    ∃ k, p.ledger.find? t = some k ∧ k.timer = some x.id := by
  obtain ⟨hmem, rfl⟩ := Diary.mem_armed.mp hx
  have hna : x.alarm ≠ .autoscaleTick := by
    intro hn
    rw [hn] at hat
    cases hat
  obtain ⟨d, hw, _⟩ := h.right.of_mem hmem hna
  rw [show (p.diary s taken).want x.alarm = p.want? x.alarm from rfl, want?_task p hat] at hw
  obtain ⟨k, hk, hkw⟩ := Option.bind_eq_some_iff.mp hw
  exact ⟨k, hk, (Task.kept_of_want? hkw).symm⟩

/-- a timer that is kept with a task is for an alarm about the task -/
theorem Tends.alarm_of_kept {p : Pool} (h : Tends m msg s taken p) {t : TaskId} {k : Task}
    (hk : p.ledger.find? t = some k) {x : Timer} (hx : x ∈ (p.diary s taken).timers)
    (hi : k.timer = some x.id) : x.alarm.task? = some t := by
  obtain ⟨a, d, hat, _, hkw⟩ := (h.tasks t k hk).2.want? hi t
  have hw : p.want? a = some ⟨some x.id, d⟩ := by
    rw [want?_task p hat, hk]
    exact hkw
  rw [(h.right.kept a x.id d hw).2 x hx rfl]
  exact hat

/-- the tasks in `gone` are over, and their timers are taken back unless they have gone off -/
theorem Tends.forget {p q : Pool} (h : Tends m msg s taken p) (gone : TaskId → Prop)
    {es : List Effect} (ho : q.outbox = p.outbox ++ es) (ha : ∀ e ∈ es, e.Armless)
    (hn : q.nextTimer = p.nextTimer) (hc : q.config = p.config) (hr : q.roster = p.roster)
    (hids : q.ledger.ids.Sublist p.ledger.ids)
    (hgone : ∀ t, gone t → q.ledger.find? t = none)
    (hstay : ∀ t, ¬ gone t → q.ledger.find? t = p.ledger.find? t)
    (hback : ∀ i ∈ disarmed es, p.autoscaleTimer = some i ∨
      ∃ t k, gone t ∧ p.ledger.find? t = some k ∧ k.timer = some i)
    (hall : ∀ x ∈ (p.diary s taken).timers, ∀ t k, gone t → p.ledger.find? t = some k →
      k.timer = some x.id → x.id ∈ disarmed es)
    (hticks : ∀ i, q.autoscaleTimer = some i → p.autoscaleTimer = some i) :
    Tends m msg s taken q := by
  have hwant (a : Alarm) : q.want? a = p.want? a ∨
      (q.want? a = none ∧ ∃ t, a.task? = some t ∧ gone t) := by
    by_cases hex : ∃ t, a.task? = some t ∧ gone t
    · obtain ⟨t, hat, hg⟩ := hex
      exact .inr ⟨want?_of_unlisted hat (hgone t hg), t, hat, hg⟩
    · refine .inl (want?_congr a (fun t hat => ?_) fun w _ => by rw [hr, hc])
      rw [hstay t fun hg => hex ⟨t, hat, hg⟩]
  have hfind : ∀ t k, q.ledger.find? t = some k → p.ledger.find? t = some k := by
    intro t k hk
    by_cases hg : gone t
    · rw [hgone t hg] at hk
      cases hk
    · exact (hstay t hg).symm.trans hk
  obtain ⟨hunarmed, horigin⟩ := h.wants_fewer fun a => (hwant a).imp_right And.left
  refine ⟨hr ▸ h.sound, h.nodup.sublist hids, fun t k hk => h.tasks t k (hfind t k hk),
    by rw [hr]; exact h.entries, by rw [hr]; exact h.older, ?_, hunarmed, horigin⟩
  rw [diary_armless ho ha hn]
  refine h.right.drop (disarmed es) (fun a => ?_) (fun i hi x hx hxi => ?_) (fun a _ hp => ?_)
    hticks
  · rcases hwant a with hw | ⟨hw, t, hat, hg⟩
    · exact .inl hw
    · refine .inr ⟨hw, fun x hx => ?_, fun hrung => ?_⟩
      · obtain ⟨k, hk, hi⟩ := h.timer_of_armed hat hx
        exact hall x (Diary.mem_armed.mp hx).1 t k hg hk hi
      · exact past_of_unlisted hat (h.accepted_of_rung hat hrung) (hgone t hg)
  · rcases hback i hi with ht | ⟨t, k, hg, hk, hkt⟩
    · exact .inl ((h.right.ticks i ht).2 x hx hxi)
    · exact .inr (want?_of_unlisted (h.alarm_of_kept hk hx (hxi ▸ hkt)) (hgone t hg))
  · exact Past.mono hp (List.Subset.refl _) (fun t _ k hk => ⟨k, hfind t k hk, UInt32.le_refl _⟩)
      (Nat.le_of_eq (by rw [hr])) fun w _ hw => by rw [hr]; exact hw

/-- one task is over, and the timer kept for it is taken back -/
theorem Tends.forgo {p q : Pool} (h : Tends m msg s taken p) {id : TaskId} {k : Task}
    (hk : p.ledger.find? id = some k) {es : List Effect} (ho : q.outbox = p.outbox ++ es)
    (ha : ∀ e ∈ es, e.Armless) (hd : disarmed es = k.timer.toList)
    (hn : q.nextTimer = p.nextTimer) (ht : q.autoscaleTimer = p.autoscaleTimer)
    (hc : q.config = p.config) (hr : q.roster = p.roster) (hl : q.ledger = p.ledger.erase id) :
    Tends m msg s taken q := by
  refine h.forget (· = id) ho ha hn hc hr (by rw [hl, Ledger.ids_erase]; exact List.filter_sublist)
    (fun t ht => ?_) (fun t ht => ?_) (fun i hi => ?_)
    (fun x _ t k' ht hk' hx => ?_) fun i hi => ht ▸ hi
  · rw [hl, Ledger.find?_erase, if_pos ht]
  · rw [hl, Ledger.find?_erase, if_neg ht]
  · rw [hd] at hi
    exact .inr ⟨id, k, rfl, hk, Option.mem_toList.mp hi⟩
  · subst ht
    rw [hk] at hk'
    cases hk'
    rw [hd, hx]
    exact List.mem_singleton_self _

theorem Tends.cancel {p : Pool} (h : Tends m msg s taken p) (id : TaskId) :
    Tends m msg s taken (p.cancel id).2 := by
  have hnone : Tends m msg s taken
      ({ p with queue := p.queue.remove id }.post p.ledger []) :=
    h.silent rfl (fun e he => by cases he) rfl rfl rfl rfl rfl rfl
  unfold Pool.cancel Ledger.cancel
  cases hk : p.ledger.find? id with
  | none => exact hnone
  | some k =>
    by_cases hs : k.status.isTerminal = true
    · simp only [if_pos hs]
      exact hnone
    · simp only [if_neg hs]
      exact h.forgo hk rfl (armless_consequences _) (disarmed_resolve k _) rfl rfl rfl rfl rfl

/-- the attempt that ran out of time is over; its timer has gone off, so none is taken back -/
theorem Tends.expire {p : Pool} (h : Tends m msg s taken p) {id : TaskId} {attempt : UInt32}
    {worker : Option WorkerId} {ledger : Ledger} {consequences : List Consequence}
    (he : p.ledger.timeOut id attempt = some (worker, ledger, consequences))
    (hr : Alarm.taskTimeout id attempt ∈ s.rung) :
    Tends m msg s taken (p.post ledger consequences) := by
  obtain ⟨k, hk, hs, hat, _, rfl, rfl⟩ := Ledger.timeOut_eq_some he
  have hsub : (p.ledger.erase id).ids.Sublist p.ledger.ids := by
    rw [Ledger.ids_erase]
    exact List.filter_sublist
  refine h.forget (· = id) rfl (armless_consequences _) rfl rfl rfl hsub (fun t ht => ?_)
    (fun t ht => ?_) (fun i hi => by cases hi) (fun x hx t k' ht hk' hxi => ?_) fun i hi => hi
  · exact (Ledger.find?_erase ..).trans (if_pos ht)
  · exact (Ledger.find?_erase ..).trans (if_neg ht)
  · subst ht
    rw [hk] at hk'
    cases hk'
    have hw : (p.diary s taken).want (.taskTimeout t attempt)
        = some ⟨some x.id, k.terms.timeout⟩ := by
      show (p.ledger.find? t).bind (Task.want? · (.taskTimeout t attempt)) = _
      rw [hk, ← hxi]
      exact if_pos ⟨hs, hat⟩
    have hxa := (h.right.kept _ _ _ hw).2 x hx rfl
    obtain ⟨_, _, _, hno, _⟩ := h.right.of_mem hx (by rw [hxa]; exact Alarm.noConfusion)
    rw [hxa] at hno
    exact absurd hr hno

/-- only timers of tasks are taken back when all are given up -/
theorem disarmed_drain {l : Ledger} {why : Failure} {i : TimerId}
    (hi : i ∈ disarmed ((l.drain why).2.map Consequence.effect)) :
    ∃ t ∈ l.tasks, t.timer = some i := by
  obtain ⟨e, he, hei⟩ := List.mem_filterMap.mp hi
  obtain ⟨c, hc, rfl⟩ := List.mem_map.mp he
  obtain ⟨t, ht, hct⟩ := List.mem_flatMap.mp hc
  refine ⟨t, ht, ?_⟩
  have hmem : i ∈ disarmed ((t.resolve (.error why)).map Consequence.effect) :=
    List.mem_filterMap.mpr ⟨_, List.mem_map.mpr ⟨c, hct, rfl⟩, hei⟩
  rw [disarmed_resolve] at hmem
  exact Option.mem_toList.mp hmem

theorem Tends.shut {p : Pool} (h : Tends m msg s taken p) : Tends m msg s taken p.shut := by
  have ho : p.shut.outbox = p.outbox ++ (p.autoscaleTimer.toList.map Effect.disarm ++
      (p.ledger.drain .shutdown).2.map Consequence.effect) := List.append_assoc ..
  refine h.forget (fun _ => True) ho (fun e he => ?_) rfl rfl rfl (List.nil_sublist _)
    (fun _ _ => rfl) (fun t ht => absurd trivial ht) (fun i hi => ?_) (fun x _ t k _ hk hx => ?_)
    fun i hi => by cases hi
  · rcases List.mem_append.mp he with he | he
    · obtain ⟨i, _, rfl⟩ := List.mem_map.mp he
      trivial
    · exact armless_consequences _ e he
  · rw [disarmed_append] at hi
    rcases List.mem_append.mp hi with hi | hi
    · obtain ⟨e, he, hei⟩ := List.mem_filterMap.mp hi
      obtain ⟨j, hj, rfl⟩ := List.mem_map.mp he
      cases hei
      exact .inl (Option.mem_toList.mp hj)
    · obtain ⟨t, ht, hti⟩ := disarmed_drain hi
      exact .inr ⟨t.id, t, trivial, Ledger.find?_of_mem h.nodup ht, hti⟩
  · rw [disarmed_append]
    exact List.mem_append_right _ (mem_disarmed_drain .shutdown (Ledger.mem_of_find? hk) hx)

/-! ## workers -/

/-- an alarm that is not for the worker has nothing to do with its entry -/
theorem want?_beside {p q : Pool} {w : WorkerId} {a : Alarm} (ha : a ≠ .stopDeadline w)
    (hl : q.ledger = p.ledger) (hc : q.config = p.config)
    (hr : ∀ x, x ≠ w → q.roster.find? x = p.roster.find? x) : q.want? a = p.want? a := by
  refine want?_congr a (fun t _ => by rw [hl]) fun x hx => ?_
  have hne : x ≠ w := by
    rintro rfl
    exact ha hx
  rw [hr x hne, hc]

/-- the armed timers for the deadline of a worker are kept with its entry -/
theorem Tends.stopTimer_of_armed {p : Pool} (h : Tends m msg s taken p) {w : WorkerId} {e : Entry}
    (he : p.roster.find? w = some e) {x : Timer}
    (hx : x ∈ (p.diary s taken).armed (.stopDeadline w)) : e.stopTimer = some x.id := by
  obtain ⟨hmem, hxa⟩ := Diary.mem_armed.mp hx
  obtain ⟨d, hxw, _⟩ := h.right.of_mem hmem (by rw [hxa]; exact Alarm.noConfusion)
  rw [hxa] at hxw
  obtain ⟨e', he', _, hv⟩ := want?_stopDeadline hxw
  rw [he] at he'
  cases he'
  exact (congrArg Want.kept hv).symm

/-- a timer that is kept with the entry of a worker is for its deadline -/
theorem Tends.alarm_of_stopTimer {p : Pool} (h : Tends m msg s taken p) {w : WorkerId} {e : Entry}
    (he : p.roster.find? w = some e) {x : Timer} (hx : x ∈ (p.diary s taken).timers)
    (hi : e.stopTimer = some x.id) : x.alarm = .stopDeadline w := by
  by_cases hst : e.status = .stopping
  · have hw : (p.diary s taken).want (.stopDeadline w) = some ⟨e.stopTimer, _⟩ :=
      want?_of_stopping he hst
    rw [hi] at hw
    exact (h.right.kept _ _ _ hw).2 x hx rfl
  · rw [(h.entries w e he hst).1] at hi
    cases hi

/-- an entry is dropped, and the timer that ends the wait for its worker is taken back -/
theorem Tends.dispose {p : Pool} (h : Tends m msg s taken p) {w : WorkerId} {e : Entry}
    (he : p.roster.find? w = some e) : Tends m msg s taken ((p.dropEntry w).dispose e) := by
  obtain ⟨stops, replies, hd, hr⟩ := dispose_eq (p.dropEntry w) e
  rw [hd]
  set q : Pool := { p.dropEntry w with
    stops := stops
    outbox := (p.dropEntry w).outbox ++ (farewell e ++ replies) }
  have ho : q.outbox = p.outbox ++ (farewell e ++ replies) := rfl
  have hfind : ∀ x, q.roster.find? x = if x = w then none else p.roster.find? x :=
    Roster.find?_erase p.roster w
  have hself : q.want? (.stopDeadline w) = none := by
    show (q.roster.find? w).bind _ = none
    rw [hfind, if_pos rfl]
    rfl
  have hwant (a : Alarm) : q.want? a = p.want? a ∨ (q.want? a = none ∧ a = .stopDeadline w) := by
    by_cases haw : a = .stopDeadline w
    · exact .inr ⟨haw ▸ hself, haw⟩
    · exact .inl (want?_beside haw rfl rfl fun x hx => (hfind x).trans (if_neg hx))
  have hsome {x : WorkerId} {f : Entry} (hf : q.roster.find? x = some f) :
      p.roster.find? x = some f := by
    rw [hfind] at hf
    split at hf
    · cases hf
    · exact hf
  obtain ⟨hunarmed, horigin⟩ := h.wants_fewer fun a => (hwant a).imp_right And.left
  refine ⟨h.sound.erase w, h.nodup, h.tasks, fun x f hf => h.entries x f (hsome hf), h.older, ?_,
    hunarmed, horigin⟩
  rw [diary_armless ho (armless_farewell e hr) rfl, disarmed_farewell e hr]
  refine h.right.drop _ (fun a => ?_) (fun i hi x hx hxi => ?_) (fun a _ hp => ?_) fun i hi => hi
  · rcases hwant a with hw | ⟨hw, rfl⟩
    · exact .inl hw
    · refine .inr ⟨hw, fun x hx => ?_, fun _ => ⟨h.sound.lt_of_find? he, ?_⟩⟩
      · exact Option.mem_toList.mpr (h.stopTimer_of_armed he hx)
      · exact (hfind w).trans (if_pos rfl)
  · have hi' : e.stopTimer = some x.id := hxi ▸ Option.mem_toList.mp hi
    rw [h.alarm_of_stopTimer he hx hi']
    exact .inr hself
  · refine Past.mono hp (List.Subset.refl _) (fun t _ k hk => ⟨k, hk, UInt32.le_refl _⟩)
      (Nat.le_refl _) fun x _ hx => ?_
    rw [hfind]
    split
    · rfl
    · exact hx

theorem stopTimerOf_eq_none {p : Pool} : stopTimerOf m p = none ↔ m.attached = false := by
  unfold stopTimerOf
  cases m.attached <;> simp

/-- the command to end, if the worker takes any -/
def termination (m : Moment) (w : WorkerId) : List Effect :=
  if m.reaches w then [.tell w .terminate] else []

theorem armless_termination (m : Moment) (w : WorkerId) : ∀ x ∈ termination m w, x.Armless := by
  unfold termination
  split
  · exact armless_one trivial
  · exact fun x hx => (List.not_mem_nil hx).elim

theorem disarmed_termination (m : Moment) (w : WorkerId) : disarmed (termination m w) = [] := by
  unfold termination
  split <;> rfl

/-- a live worker is told to end, and the deadline of its grace is called for -/
theorem Tends.retire {p : Pool} (h : Tends m msg s taken p)
    (hsince : ∀ a, s.want a = none → s.since a = s.clock) (waiter : Option CallId) {w : WorkerId}
    {e : Entry} (he : p.roster.find? w = some e) (hs : e.status ≠ .stopping) :
    Tends m msg s taken (stopWorker m waiter p w) := by
  rw [stopWorker_of_live waiter he hs]
  set f : Entry → Entry := fun e =>
    { e with
      waiters := e.waiters ++ waiter.toList
      status := .stopping
      task := none
      stopTimer := stopTimerOf m p }
  set q : Pool := { p with
    roster := p.roster.modify w f
    nextTimer := if m.attached then p.nextTimer + 1 else p.nextTimer
    outbox := p.outbox ++ retirement m p w }
  have hfind : ∀ x, q.roster.find? x = if x = w then some (f e) else p.roster.find? x :=
    Roster.find?_modify_of_some (f := f) (fun _ => rfl) he
  have hbase := (h.entries w e he hs).2
  have hnew : ¬ p.Past taken (.stopDeadline w) := by
    intro hp
    rw [hp.2] at he
    cases he
  have hself : q.want? (.stopDeadline w) = some ⟨stopTimerOf m p, p.config.stopGrace⟩ :=
    want?_of_stopping ((hfind w).trans (if_pos rfl)) rfl
  have hwant : ∀ a, q.want? a
      = update p.want? (.stopDeadline w) (some ⟨stopTimerOf m p, p.config.stopGrace⟩) a := by
    intro a
    by_cases haw : a = .stopDeadline w
    · rw [haw, update_self, hself]
    · rw [update_of_ne haw]
      exact want?_beside haw rfl rfl fun x hx => (hfind x).trans (if_neg hx)
  have hpast : ∀ a ∈ s.rung, p.Past taken a → q.Past taken a := by
    intro a _ hp
    refine Past.mono hp (List.Subset.refl _) (fun t _ k hk => ⟨k, hk, UInt32.le_refl _⟩)
      (Nat.le_refl _) fun x _ hx => ?_
    rw [hfind]
    split
    · rename_i hxw
      rw [hxw, he] at hx
      cases hx
    · exact hx
  obtain ⟨hunarmed, horigin⟩ := h.wants (q := q) fun a v hx => by
    rw [hwant] at hx
    rcases update_eq_some hx with ⟨rfl, hv⟩ | ⟨_, hx⟩
    · have hv : stopTimerOf m p = v.kept := congrArg Want.kept (Option.some.inj hv)
      exact .inr ⟨trivial, fun hkept => stopTimerOf_eq_none.mp (hv.trans hkept)⟩
    · exact .inl hx
  refine ⟨h.sound.modify f (fun _ => rfl) w, h.nodup, h.tasks, fun x e' he' hst => ?_, h.older, ?_,
    hunarmed, horigin⟩
  · rw [hfind] at he'
    split at he'
    · cases he'
      exact absurd rfl hst
    · exact h.entries x e' he' hst
  · have hright := h.right.begin (a := .stopDeadline w) Alarm.noConfusion (want?_of_live he hs) hnew
      p.config.stopGrace (hsince _ hbase) m.attached
    have ho : q.outbox = p.outbox ++ ([] ++ ((if m.attached then
        [.arm p.nextTimer p.config.stopGrace (.stopDeadline w)] else []) ++ termination m w)) := rfl
    rw [diary_begin [] _ m.attached ho (fun x hx => by cases hx) (armless_termination m w)
      (disarmed_termination m w) rfl, show disarmed [] = [] from rfl, without_nil]
    exact hright.same hwant hpast

theorem Tends.armTicks {p : Pool} (h : Tends m msg s taken p) :
    Tends m msg s taken (p.armTicks m) := by
  unfold Pool.armTicks
  split
  · refine ⟨h.sound, h.nodup, h.tasks, h.entries, h.older, ?_, h.unarmed, h.origin⟩
    have hright := h.right.tick (s.clock + p.config.autoscaleInterval.nanos)
    unfold diary
    rw [wind_append, appoint_append]
    exact hright
  · refine ⟨h.sound, h.nodup, h.tasks, h.entries, h.older, ?_, h.unarmed, h.origin⟩
    have hnone : ∀ i, (none : Option TimerId) = some i → (p.diary s taken).ticks = some i :=
      fun i hi => by cases hi
    have hright := h.right.drop [] (fun a => .inl rfl) (fun i hi => by cases hi)
      (fun a _ hp => hp) hnone
    rw [without_nil] at hright
    exact hright

/-! ## every chore -/

theorem Chore.tends {p q : Pool} (h : Tends m msg s taken p)
    (hsince : ∀ a, s.want a = none → s.since a = s.clock)
    (hrung : ∀ t n, msg = .ring (.taskTimeout t n) → .taskTimeout t n ∈ s.rung)
    (hc : Chore m msg p q) : Tends m msg s taken q := by
  have hplain {e : Effect} {q : Pool} (ho : q.outbox = p.outbox ++ [e]) (ha : e.Armless)
      (hd : e.disarms? = none) (hn : q.nextTimer = p.nextTimer)
      (ht : q.autoscaleTimer = p.autoscaleTimer) (hc : q.config = p.config)
      (hl : q.ledger = p.ledger) (hr : q.roster = p.roster) : Tends m msg s taken q :=
    h.silent ho (armless_one ha) (List.filterMap_cons_none hd) hn ht hc hl hr
  have hnothing {q : Pool} (ho : q.outbox = p.outbox) (hn : q.nextTimer = p.nextTimer)
      (ht : q.autoscaleTimer = p.autoscaleTimer) (hc : q.config = p.config)
      (hl : q.ledger = p.ledger) (hr : q.roster = p.roster) : Tends m msg s taken q :=
    h.silent (ho.trans (List.append_nil _).symm) (fun e he => by cases he) rfl hn ht hc hl hr
  cases hc with
  | reply | ask | unknown | bounce => exact hplain rfl trivial rfl rfl rfl rfl rfl rfl
  | wake caller =>
    obtain ⟨stops, replies, hw, hr⟩ := wake_eq p caller
    rw [hw]
    refine h.silent rfl (fun x hx => ?_) (disarmed_replies hr) rfl rfl rfl rfl rfl
    obtain ⟨c, rfl⟩ := hr x hx
    trivial
  | promise | «open» => exact hnothing rfl rfl rfl rfl rfl rfl
  | note w f hf =>
    refine h.note w hf.worker fun e _ => ?_
    rw [Entry.dial, Entry.dial, hf.status, hf.stopTimer]
  | await w caller => exact h.note w (fun _ => rfl) fun _ _ => rfl
  | ticks => exact h.armTicks
  | dispatch w e affinity t rest task he hi hq ht =>
    refine h.quiet rfl (armless_one trivial) rfl rfl rfl rfl
      (h.sound.modify (fun e => e.setBusy t.task m.now) (fun _ => rfl) w) rfl
      (Ledger.ids_modify p.ledger (fun t => { t with worker := some w }) (fun _ => rfl) t.task)
      (fun x => ?_) fun x => ?_
    · show ((p.ledger.modify t.task fun t => { t with worker := some w }).find? x).map _ = _
      rw [Ledger.find?_modify p.ledger (fun t => { t with worker := some w }) fun _ => rfl]
      split
      · rw [Option.map_map]
        rfl
      · rfl
    · show ((p.roster.modify w fun e => e.setBusy t.task m.now).find? x).map _ = _
      rw [Roster.find?_modify p.roster (fun e => e.setBusy t.task m.now) fun _ => rfl]
      split
      · rename_i hx
        rw [hx, he]
        show some (_, e.stopTimer) = some (e.status == .stopping, e.stopTimer)
        rw [hi]
        rfl
      · rfl
  | retire waiter w e he hst => exact h.retire hsince waiter he hst
  | remove w e he => exact h.dispose he
  | cancel id => exact h.cancel id
  | expire id attempt worker ledger consequences he hm => exact h.expire he (hrung _ _ hm)
  | shut => exact h.shut
  | hire => exact h.hire

theorem Chores.tends {p q : Pool} (h : Tends m msg s taken p)
    (hsince : ∀ a, s.want a = none → s.since a = s.clock)
    (hrung : ∀ t n, msg = .ring (.taskTimeout t n) → .taskTimeout t n ∈ s.rung)
    (hc : Chores m msg p q) : Tends m msg s taken q := by
  induction hc with
  | refl => exact h
  | tail _ hc ih => exact hc.tends ih hsince hrung

end Pool

end TaskPool
