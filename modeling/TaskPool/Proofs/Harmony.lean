import TaskPool.Proofs.Bench
import TaskPool.Roster
import Mathlib.Data.List.Perm.Basic
import Mathlib.Logic.Function.Basic

/-!
# The pool and its workers in step

A `Scene` is what the records of a pool say, side by side with the benches they are about:
what the pool believes of each worker (`post`) and of each task (`sight`), and which tasks wait.

* `Fits`       a bench is at a station that agrees with what the pool believes of its worker
* `Listed`     what the pool believes of a task is borne out by the bench it was handed to
* `Harmony`    all of that, everywhere
* `Harmony.bench`, `dispatch`, `hire`, `retire`, ...   the changes that keep the harmony
* `Hears`      what the first report of a bench can be, and what it means

Why stale benches are harmless: once a worker is asked to stop, or its entry is gone, all that its
bench still names are tasks that are over, and identifiers are not used again.
-/

namespace TaskPool

open Function

/-- what is believed of a worker -/
abbrev Post := WorkerStatus × Option TaskId

/-- what is believed of a task, with the worker it was handed to -/
abbrev Sight := Status × Option WorkerId

structure Scene where
  post : WorkerId → Option Post
  sight : TaskId → Option Sight
  /-- the tasks that have a ticket -/
  waits : List TaskId
  /-- the next worker number -/
  next : WorkerId
  bench : WorkerId → Option Bench
  /-- the tasks accepted so far -/
  taken : List TaskId

namespace Scene

/-- all that the bench names is over -/
def Stale (sight : TaskId → Option Sight) (taken : List TaskId) (b : Bench) : Prop :=
  ∀ t, b.Names t → t ∈ taken ∧ sight t = none

inductive Fits (sight : TaskId → Option Sight) (taken : List TaskId) (w : WorkerId) (b : Bench) :
    Option Post → Prop where
  | gone (h : Stale sight taken b) : Fits sight taken w b none
  | stopping (h : Stale sight taken b) : Fits sight taken w b (some (.stopping, none))
  | starting (hs : b.Serves) (h : b.Fresh) : Fits sight taken w b (some (.starting, none))
  | idle (hs : b.Serves) (h : b.Resting) : Fits sight taken w b (some (.idle, none))
  | pending (t : TaskId) (hs : b.Serves) (hk : t ∈ taken) (h : b.Pending t)
      (ht : sight t = none ∨ sight t = some (.queued, some w)) :
      Fits sight taken w b (some (.busy, some t))
  | acked (t : TaskId) (hs : b.Serves) (hk : t ∈ taken) (h : b.Acked t)
      (ht : sight t = none ∨ sight t = some (.running, some w)) :
      Fits sight taken w b (some (.busy, some t))
  | spent (t : TaskId) (hs : b.Serves) (hk : t ∈ taken) (h : b.Spent) :
      Fits sight taken w b (some (.busy, some t))

inductive Listed (post : WorkerId → Option Post) (bench : WorkerId → Option Bench) (t : TaskId) :
    Sight → Prop where
  | waiting : Listed post bench t (.queued, none)
  | handed (w : WorkerId) (b : Bench) (hp : post w = some (.busy, some t))
      (hb : bench w = some b) (h : b.Pending t) : Listed post bench t (.queued, some w)
  | running (w : WorkerId) (b : Bench) (hp : post w = some (.busy, some t))
      (hb : bench w = some b) (h : b.Acked t) : Listed post bench t (.running, some w)
  | retrying (w : Option WorkerId) : Listed post bench t (.retrying, w)

structure Harmony (s : Scene) : Prop where
  fresh : ∀ w, s.next ≤ w → s.post w = none ∧ s.bench w = none
  seated : ∀ w x, s.post w = some x → ∃ b, s.bench w = some b
  fits : ∀ w b, s.bench w = some b → Fits s.sight s.taken w b (s.post w)
  listed : ∀ t x, s.sight t = some x → t ∈ s.taken ∧ Listed s.post s.bench t x
  nodup : s.waits.Nodup
  waits : ∀ t, t ∈ s.waits ↔ s.sight t = some (.queued, none)

/-! ## frames -/

/-- what may become of the sight of a task without a worker `w` minding -/
def Minds (sight sight' : TaskId → Option Sight) (w : WorkerId) (t : TaskId) : Prop :=
  sight' t = sight t ∨ sight' t = none ∨
    (sight t ≠ none ∧ sight t ≠ some (.queued, some w) ∧ sight t ≠ some (.running, some w))

theorem Stale.frame {sight sight' : TaskId → Option Sight} {taken : List TaskId} {b : Bench}
    {w : WorkerId} (h : Stale sight taken b) (hm : ∀ t ∈ taken, Minds sight sight' w t) :
    Stale sight' taken b := by
  intro t ht
  obtain ⟨hk, hs⟩ := h t ht
  refine ⟨hk, ?_⟩
  rcases hm t hk with hm | hm | ⟨hm, _⟩
  · exact hm.trans hs
  · exact hm
  · exact absurd hs hm

theorem Fits.frame {sight sight' : TaskId → Option Sight} {taken : List TaskId} {b : Bench}
    {w : WorkerId} {x : Option Post} (h : Fits sight taken w b x)
    (hm : ∀ t ∈ taken, Minds sight sight' w t) : Fits sight' taken w b x := by
  cases h with
  | gone h => exact .gone (h.frame hm)
  | stopping h => exact .stopping (h.frame hm)
  | starting hs h => exact .starting hs h
  | idle hs h => exact .idle hs h
  | pending t hs hk h ht =>
    refine .pending t hs hk h ?_
    rcases hm t hk with hm | hm | ⟨h0, hq, _⟩
    · rwa [hm]
    · exact .inl hm
    · rcases ht with ht | ht
      · exact absurd ht h0
      · exact absurd ht hq
  | acked t hs hk h ht =>
    refine .acked t hs hk h ?_
    rcases hm t hk with hm | hm | ⟨h0, _, hr⟩
    · rwa [hm]
    · exact .inl hm
    · rcases ht with ht | ht
      · exact absurd ht h0
      · exact absurd ht hr
  | spent t hs hk h => exact .spent t hs hk h

/-- where only one task changes, the others are no matter -/
theorem minds_update {sight : TaskId → Option Sight} {w : WorkerId} {t : TaskId}
    {y : Option Sight} (h : sight t ≠ none ∧ sight t ≠ some (.queued, some w) ∧
      sight t ≠ some (.running, some w)) (x : TaskId) : Minds sight (update sight t y) w x := by
  by_cases hx : x = t
  · subst hx
    exact .inr (.inr h)
  · exact .inl (update_of_ne hx y sight)

theorem Fits.taken {sight : TaskId → Option Sight} {taken taken' : List TaskId} {b : Bench}
    {w : WorkerId} {x : Option Post} (h : Fits sight taken w b x) (hk : taken ⊆ taken') :
    Fits sight taken' w b x := by
  cases h with
  | gone h => exact .gone fun t ht => ⟨hk (h t ht).1, (h t ht).2⟩
  | stopping h => exact .stopping fun t ht => ⟨hk (h t ht).1, (h t ht).2⟩
  | starting hs h => exact .starting hs h
  | idle hs h => exact .idle hs h
  | pending t hs ht h hx => exact .pending t hs (hk ht) h hx
  | acked t hs ht h hx => exact .acked t hs (hk ht) h hx
  | spent t hs ht h => exact .spent t hs (hk ht) h

/-- the worker of a live entry is served -/
theorem Fits.serves {sight : TaskId → Option Sight} {taken : List TaskId} {b : Bench}
    {w : WorkerId} {st : WorkerStatus} {o : Option TaskId}
    (h : Fits sight taken w b (some (st, o))) (hst : st ≠ .stopping) : b.Serves := by
  cases h with
  | stopping => exact absurd rfl hst
  | starting hs | idle hs | pending _ hs | acked _ hs | spent _ hs => exact hs

/-- a task that was not handed to a worker does not mind what happens to it -/
theorem Listed.elsewhere {post : WorkerId → Option Post} {bench : WorkerId → Option Bench}
    {t : TaskId} {y : Sight} (h : Listed post bench t y) {w : WorkerId}
    (hq : y ≠ (.queued, some w)) (hr : y ≠ (.running, some w)) (x : Option Post)
    (b : Option Bench) : Listed (update post w x) (update bench w b) t y := by
  cases h with
  | waiting => exact .waiting
  | handed w' b' hp hb h =>
    have hne : w' ≠ w := by
      rintro rfl
      exact hq rfl
    exact .handed w' b' (by rwa [update_of_ne hne]) (by rwa [update_of_ne hne]) h
  | running w' b' hp hb h =>
    have hne : w' ≠ w := by
      rintro rfl
      exact hr rfl
    exact .running w' b' (by rwa [update_of_ne hne]) (by rwa [update_of_ne hne]) h
  | retrying => exact .retrying _

/-- no task is at this worker -/
def Free (s : Scene) (w : WorkerId) : Prop :=
  ∀ t, s.sight t ≠ some (.queued, some w) ∧ s.sight t ≠ some (.running, some w)

theorem Harmony.handed {s : Scene} (h : s.Harmony) {t : TaskId} {w : WorkerId}
    (ht : s.sight t = some (.queued, some w)) :
    s.post w = some (.busy, some t) ∧ ∃ b, s.bench w = some b ∧ b.Pending t := by
  cases (h.listed t _ ht).2 with
  | handed _ b hp hb hb' => exact ⟨hp, b, hb, hb'⟩

theorem Harmony.running {s : Scene} (h : s.Harmony) {t : TaskId} {w : WorkerId}
    (ht : s.sight t = some (.running, some w)) :
    s.post w = some (.busy, some t) ∧ ∃ b, s.bench w = some b ∧ b.Acked t := by
  cases (h.listed t _ ht).2 with
  | running _ b hp hb hb' => exact ⟨hp, b, hb, hb'⟩

/-- only at a busy worker there is a task, the one it is busy with -/
theorem Harmony.free {s : Scene} (h : s.Harmony) {w : WorkerId}
    (hp : ∀ t, s.post w = some (.busy, some t) → s.sight t = none) : s.Free w := by
  intro t
  constructor
  · intro ht
    rw [hp t (h.handed ht).1] at ht
    cases ht
  · intro ht
    rw [hp t (h.running ht).1] at ht
    cases ht

theorem Harmony.lt_next {s : Scene} (h : s.Harmony) {w : WorkerId} {b : Bench}
    (hb : s.bench w = some b) : w < s.next := by
  refine Nat.lt_of_not_le fun hle => ?_
  rw [(h.fresh w hle).2] at hb
  cases hb

/-- one worker and one task change; the others must not mind, and the task must be listed right -/
theorem Harmony.change {s : Scene} (h : s.Harmony) {w : WorkerId} (hlt : w < s.next)
    {x : Option Post} {b : Bench} {sight : TaskId → Option Sight} {waits : List TaskId}
    (hfit : Fits sight s.taken w b x)
    (hm : ∀ w', w' ≠ w → ∀ t ∈ s.taken, Minds s.sight sight w' t)
    (hl : ∀ t y, sight t = some y →
      t ∈ s.taken ∧ Listed (update s.post w x) (update s.bench w (some b)) t y)
    (hd : waits.Nodup) (hw : ∀ t, t ∈ waits ↔ sight t = some (.queued, none)) :
    Harmony { s with
      post := update s.post w x
      sight := sight
      waits := waits
      bench := update s.bench w (some b) } where
  fresh := by
    intro w' hle
    have hne : w' ≠ w := fun hw => Nat.not_le.mpr hlt (hw ▸ hle)
    show update s.post w x w' = none ∧ update s.bench w (some b) w' = none
    rw [update_of_ne hne, update_of_ne hne]
    exact h.fresh w' hle
  seated := by
    intro w' y hy
    show ∃ b', update s.bench w (some b) w' = some b'
    by_cases hne : w' = w
    · rw [hne, update_self]
      exact ⟨b, rfl⟩
    · have hy' : update s.post w x w' = some y := hy
      rw [update_of_ne hne] at hy' ⊢
      exact h.seated w' y hy'
  fits := by
    intro w' b' hb'
    show Fits sight s.taken w' b' (update s.post w x w')
    have hb'' : update s.bench w (some b) w' = some b' := hb'
    by_cases hne : w' = w
    · rw [hne, update_self] at hb''
      cases hb''
      rw [hne, update_self]
      exact hfit
    · rw [update_of_ne hne] at hb'' ⊢
      exact (h.fits w' b' hb'').frame (hm w' hne)
  listed := hl
  nodup := hd
  waits := hw

/-- the same where no task changes -/
theorem Harmony.repost {s : Scene} (h : s.Harmony) {w : WorkerId} (hlt : w < s.next)
    {x : Option Post} {b : Bench} (hfit : Fits s.sight s.taken w b x)
    (hfree : s.Free w) :
    Harmony { s with
      post := update s.post w x
      bench := update s.bench w (some b) } := by
  refine h.change hlt hfit (fun _ _ _ _ => .inl rfl) (fun t y hy => ?_) h.nodup h.waits
  obtain ⟨hk, hlist⟩ := h.listed t y hy
  refine ⟨hk, hlist.elsewhere ?_ ?_ x (some b)⟩
  · rintro rfl
    exact (hfree t).1 hy
  · rintro rfl
    exact (hfree t).2 hy

/-! ## what benches do by themselves -/

/-- a bench may do what leaves its station as it is -/
theorem Harmony.bench {s : Scene} (h : s.Harmony) {w : WorkerId} {b b' : Bench}
    (hb : s.bench w = some b) (hlive : b.Serves → Bench.Shift b b' ∧ b'.Serves)
    (hn : ∀ t, b'.Names t → b.Names t) :
    Harmony { s with bench := update s.bench w (some b') } := by
  have hstale (hst : Stale s.sight s.taken b) : Stale s.sight s.taken b' :=
    fun t ht => hst t (hn t ht)
  have hfit : Fits s.sight s.taken w b' (s.post w) := by
    have hfit := h.fits w b hb
    generalize s.post w = x at hfit
    cases hfit with
    | gone hst => exact .gone (hstale hst)
    | stopping hst => exact .stopping (hstale hst)
    | starting hs hf => exact .starting (hlive hs).2 (hf.shift (hlive hs).1)
    | idle hs hr => exact .idle (hlive hs).2 (hr.shift (hlive hs).1)
    | pending t hs hk hp ht => exact .pending t (hlive hs).2 hk (hp.shift hs (hlive hs).1) ht
    | acked t hs hk ha ht => exact .acked t (hlive hs).2 hk (ha.shift hs (hlive hs).1) ht
    | spent t hs hk hp => exact .spent t (hlive hs).2 hk (hp.shift (hlive hs).1)
  have hlist : ∀ t y, s.sight t = some y → t ∈ s.taken ∧
      Listed (update s.post w (s.post w)) (update s.bench w (some b')) t y := by
    intro t y hy
    obtain ⟨hk, hl⟩ := h.listed t y hy
    refine ⟨hk, ?_⟩
    rw [update_eq_self]
    cases hl with
    | waiting => exact .waiting
    | handed w' b0 hp hb0 h0 =>
      by_cases hne : w' = w
      · subst hne
        rw [hb] at hb0
        cases hb0
        have hs : b.Serves := by
          have hfit := h.fits w' b hb
          rw [hp] at hfit
          exact hfit.serves WorkerStatus.noConfusion
        exact .handed w' b' hp (update_self ..) (h0.shift hs (hlive hs).1)
      · exact .handed w' b0 hp (by rwa [update_of_ne hne]) h0
    | running w' b0 hp hb0 h0 =>
      by_cases hne : w' = w
      · subst hne
        rw [hb] at hb0
        cases hb0
        have hs : b.Serves := by
          have hfit := h.fits w' b hb
          rw [hp] at hfit
          exact hfit.serves WorkerStatus.noConfusion
        exact .running w' b' hp (update_self ..) (h0.shift hs (hlive hs).1)
      · exact .running w' b0 hp (by rwa [update_of_ne hne]) h0
    | retrying => exact .retrying _
  have hc := h.change (h.lt_next hb) hfit (fun _ _ _ _ => .inl rfl) hlist h.nodup h.waits
  rw [update_eq_self] at hc
  exact hc

theorem Harmony.turn {s : Scene} (h : s.Harmony) {w : WorkerId} {b b' : Bench}
    (hb : s.bench w = some b) (ht : Bench.Turn b b') :
    Harmony { s with bench := update s.bench w (some b') } :=
  h.bench hb ht.shift fun _ => ht.names

/-- a request for metrics disturbs nobody -/
theorem Harmony.ask {s : Scene} (h : s.Harmony) {w : WorkerId} {b : Bench}
    (hb : s.bench w = some b) :
    Harmony { s with bench := update s.bench w (some (b.tell .reportMetrics)) } := by
  refine h.bench hb (fun hs => ⟨b.shift_tell, hs.tell _⟩) fun t ht => ?_
  rcases Bench.names_tell ht with ht | ht
  · exact ht
  · cases ht

/-! ## what the pool does -/

/-- a waiting task is handed to an idle worker -/
theorem Harmony.dispatch {s : Scene} (h : s.Harmony) {w : WorkerId} {b : Bench} {t : TaskId}
    {rest : List TaskId} (kind : Kind) (payload : Json) (hp : s.post w = some (.idle, none))
    (hb : s.bench w = some b) (hw : s.waits.Perm (t :: rest)) :
    Harmony { s with
      post := update s.post w (some (.busy, some t))
      sight := update s.sight t (some (.queued, some w))
      waits := rest
      bench := update s.bench w (some (b.tell (.task t kind payload))) } := by
  have hnd : (t :: rest).Nodup := hw.nodup_iff.mp h.nodup
  have ht : s.sight t = some (.queued, none) :=
    (h.waits t).mp (hw.mem_iff.mpr (List.mem_cons_self ..))
  obtain ⟨hk, _⟩ := h.listed t _ ht
  have hfree : s.Free w := h.free fun x hx => by rw [hp] at hx; cases hx
  have hfit := h.fits w b hb
  rw [hp] at hfit
  cases hfit with
  | idle hs hrest =>
    have hpend : (b.tell (.task t kind payload)).Pending t := .inl (hrest.tell hs t kind payload)
    refine h.change (h.lt_next hb) ?_ ?_ ?_ (List.nodup_cons.mp hnd).2 ?_
    · exact .pending t (hs.tell _) hk hpend (.inr (update_self ..))
    · intro w' _ x _
      exact minds_update ⟨by simp [ht], by simp [ht], by simp [ht]⟩ x
    · intro x y hy
      by_cases hx : x = t
      · subst hx
        rw [update_self] at hy
        cases hy
        exact ⟨hk, .handed w _ (update_self ..) (update_self ..) hpend⟩
      · rw [update_of_ne hx] at hy
        obtain ⟨hkx, hl⟩ := h.listed x y hy
        refine ⟨hkx, hl.elsewhere ?_ ?_ _ _⟩
        · rintro rfl
          exact (hfree x).1 hy
        · rintro rfl
          exact (hfree x).2 hy
    · intro x
      by_cases hx : x = t
      · subst hx
        rw [update_self]
        simp [(List.nodup_cons.mp hnd).1]
      · rw [update_of_ne hx, ← h.waits x, hw.mem_iff, List.mem_cons]
        simp [hx]

/-- a worker is started under the next number -/
theorem Harmony.hire {s : Scene} (h : s.Harmony) (now : Nat) :
    Harmony { s with
      post := update s.post s.next (some (.starting, none))
      next := s.next + 1
      bench := update s.bench s.next (some (.new s.next now)) } where
  fresh := by
    intro w hle
    have hlt : s.next < w := hle
    show update s.post s.next _ w = none ∧ update s.bench s.next _ w = none
    rw [update_of_ne (Nat.ne_of_gt hlt), update_of_ne (Nat.ne_of_gt hlt)]
    exact h.fresh w (Nat.le_of_lt hlt)
  seated := by
    intro w x hx
    have hx' : update s.post s.next (some (WorkerStatus.starting, none)) w = some x := hx
    show ∃ b, update s.bench s.next (some (Bench.new s.next now)) w = some b
    by_cases hne : w = s.next
    · rw [hne, update_self]
      exact ⟨_, rfl⟩
    · rw [update_of_ne hne] at hx' ⊢
      exact h.seated w x hx'
  fits := by
    intro w b hb
    have hb' : update s.bench s.next (some (Bench.new s.next now)) w = some b := hb
    show Fits s.sight s.taken w b (update s.post s.next (some (WorkerStatus.starting, none)) w)
    by_cases hne : w = s.next
    · rw [hne, update_self] at hb'
      cases hb'
      rw [hne, update_self]
      exact .starting ⟨rfl, rfl, Bool.noConfusion⟩ ⟨rfl, .inl ⟨rfl, rfl⟩⟩
    · rw [update_of_ne hne] at hb' ⊢
      exact h.fits w b hb'
  listed := by
    intro t y hy
    obtain ⟨hk, hl⟩ := h.listed t y hy
    have hnone : s.post s.next = none := (h.fresh s.next (Nat.le_refl _)).1
    have hfree : s.Free s.next := h.free fun x hx => by rw [hnone] at hx; cases hx
    refine ⟨hk, hl.elsewhere ?_ ?_ _ _⟩
    · rintro rfl
      exact (hfree t).1 hy
    · rintro rfl
      exact (hfree t).2 hy
  nodup := h.nodup
  waits := h.waits

/-- a worker that nobody waits for is asked to stop -/
theorem Harmony.retire {s : Scene} (h : s.Harmony) {w : WorkerId} {b : Bench} (b' : Bench) {x : Post}
    (hp : s.post w = some x) (hb : s.bench w = some b)
    (hx : x.1 = .idle ∨ ∀ t, x.2 = some t → s.sight t = none)
    (hn : ∀ t, b'.Names t → b.Names t) :
    Harmony { s with
      post := update s.post w (some (.stopping, none))
      bench := update s.bench w (some b') } := by
  have hover : ∀ t, s.post w = some (.busy, some t) → s.sight t = none := by
    intro t ht
    rw [hp] at ht
    cases ht
    rcases hx with hx | hx
    · cases hx
    · exact hx t rfl
  refine h.repost (h.lt_next hb) (.stopping fun t ht => ?_) (h.free hover)
  have hfit := h.fits w b hb
  rw [hp] at hfit
  have hname := hn t ht
  rw [hp] at hover
  cases hfit with
  | stopping hst => exact hst t hname
  | starting _ hf => exact absurd hname hf.names
  | idle _ hr => exact absurd hname hr.names
  | pending t' _ hk hpend _ =>
    rw [hpend.names hname]
    exact ⟨hk, hover t' rfl⟩
  | acked t' _ hk hack _ =>
    rw [hack.names hname]
    exact ⟨hk, hover t' rfl⟩
  | spent _ _ _ hsp => exact absurd hname hsp.names

/-- the entry of a worker that was asked to stop is dropped -/
theorem Harmony.remove {s : Scene} (h : s.Harmony) {w : WorkerId} {b : Bench} (b' : Bench)
    (hp : s.post w = some (.stopping, none)) (hb : s.bench w = some b)
    (hn : ∀ t, b'.Names t → b.Names t) :
    Harmony { s with
      post := update s.post w none
      bench := update s.bench w (some b') } := by
  have hfree : s.Free w := h.free fun t ht => by rw [hp] at ht; cases ht
  refine h.repost (h.lt_next hb) (.gone fun t ht => ?_) hfree
  have hfit := h.fits w b hb
  rw [hp] at hfit
  cases hfit with
  | stopping hst => exact hst t (hn t ht)

/-- some tasks are over -/
theorem Harmony.forget {s : Scene} (h : s.Harmony) {sight : TaskId → Option Sight}
    {waits : List TaskId} (hs : ∀ t, sight t = s.sight t ∨ sight t = none) (hd : waits.Nodup)
    (hw : ∀ t, t ∈ waits ↔ sight t = some (.queued, none)) :
    Harmony { s with
      sight := sight
      waits := waits } where
  fresh := h.fresh
  seated := h.seated
  fits := by
    intro w b hb
    refine (h.fits w b hb).frame fun t _ => ?_
    rcases hs t with ht | ht
    · exact .inl ht
    · exact .inr (.inl ht)
  listed := by
    intro t y hy
    rcases hs t with ht | ht
    · exact h.listed t y (ht.symm.trans hy)
    · have hy' : sight t = some y := hy
      rw [ht] at hy'
      cases hy'
  nodup := hd
  waits := hw

/-- one more task waits -/
theorem Harmony.waits_push {s : Scene} (h : s.Harmony) {t : TaskId} {waits : List TaskId}
    (ht : t ∉ s.waits) (hw : waits.Perm (t :: s.waits)) : waits.Nodup ∧
      ∀ x, x ∈ waits ↔ update s.sight t (some (.queued, none)) x = some (.queued, none) := by
  refine ⟨hw.nodup_iff.mpr (List.nodup_cons.mpr ⟨ht, h.nodup⟩), fun x => ?_⟩
  rw [hw.mem_iff, List.mem_cons]
  by_cases hx : x = t
  · subst hx
    rw [update_self]
    simp
  · rw [update_of_ne hx, ← h.waits x]
    simp [hx]

/-- a task is taken in -/
theorem Harmony.accept {s : Scene} (h : s.Harmony) {t : TaskId} {waits : List TaskId}
    (ht : t ∉ s.taken) (hw : waits.Perm (t :: s.waits)) :
    Harmony { s with
      sight := update s.sight t (some (.queued, none))
      waits := waits
      taken := s.taken ++ [t] } := by
  have hnew : s.sight t = none := by
    cases hs : s.sight t with
    | none => rfl
    | some y => exact absurd (h.listed t y hs).1 ht
  have hout : t ∉ s.waits := fun hm => by
    rw [(h.waits t).mp hm] at hnew
    cases hnew
  refine ⟨h.fresh, h.seated, fun w b hb => ?_, fun x y hy => ?_, ?_, fun x => ?_⟩
  · have hfit : Fits (update s.sight t (some (.queued, none))) s.taken w b (s.post w) :=
      (h.fits w b hb).frame fun x hx => .inl (update_of_ne (ne_of_mem_of_not_mem hx ht) _ _)
    exact hfit.taken (List.subset_append_left _ _)
  · have hy' : update s.sight t (some (Status.queued, none)) x = some y := hy
    by_cases hx : x = t
    · subst hx
      rw [update_self] at hy'
      cases hy'
      exact ⟨List.mem_append_right _ (List.mem_singleton_self _), .waiting⟩
    · rw [update_of_ne hx] at hy'
      obtain ⟨hk, hl⟩ := h.listed x y hy'
      exact ⟨List.mem_append_left _ hk, hl⟩
  · exact (h.waits_push hout hw).1
  · exact (h.waits_push hout hw).2 x

/-- a task that was to be tried again waits again -/
theorem Harmony.requeue {s : Scene} (h : s.Harmony) {t : TaskId} {o : Option WorkerId}
    {waits : List TaskId} (ht : s.sight t = some (.retrying, o))
    (hw : waits.Perm (t :: s.waits)) :
    Harmony { s with
      sight := update s.sight t (some (.queued, none))
      waits := waits } := by
  have hout : t ∉ s.waits := fun hm => by
    rw [(h.waits t).mp hm] at ht
    cases ht
  refine ⟨h.fresh, h.seated, fun w b hb => ?_, fun x y hy => ?_, ?_, fun x => ?_⟩
  · refine (h.fits w b hb).frame fun x _ => ?_
    exact minds_update ⟨by simp [ht], by simp [ht], by simp [ht]⟩ x
  · have hy' : update s.sight t (some (Status.queued, none)) x = some y := hy
    by_cases hx : x = t
    · subst hx
      rw [update_self] at hy'
      cases hy'
      exact ⟨(h.listed x _ ht).1, .waiting⟩
    · rw [update_of_ne hx] at hy'
      exact h.listed x y hy'
  · exact (h.waits_push hout hw).1
  · exact (h.waits_push hout hw).2 x

/-! ## what the pool hears -/

/-- the first report of a bench, apart from metrics, and what it means; `b` is the bench without
it -/
inductive Hears (s : Scene) (w : WorkerId) (b : Bench) : Event → Prop where
  | stale (e : Event) (hp : s.post w = none ∨ s.post w = some (.stopping, none))
      (h : ∀ t, e.task? = some t → s.sight t = none) : Hears s w b e
  | ready (hp : s.post w = some (.starting, none)) (hs : b.Serves) (h : b.Resting) :
      Hears s w b .ready
  | busy (t : TaskId) (hp : s.post w = some (.busy, some t)) (hs : b.Serves) (hk : t ∈ s.taken)
      (h : b.Acked t) (ht : s.sight t = none ∨ s.sight t = some (.queued, some w)) :
      Hears s w b (.busy t)
  | result (t : TaskId) (v : Json) (hp : s.post w = some (.busy, some t)) (hs : b.Serves)
      (hk : t ∈ s.taken) (h : b.Spent)
      (ht : s.sight t = none ∨ s.sight t = some (.running, some w)) : Hears s w b (.result t v)
  | error (t : TaskId) (detail : String) (hp : s.post w = some (.busy, some t)) (hs : b.Serves)
      (hk : t ∈ s.taken) (h : b.Spent)
      (ht : s.sight t = none ∨ s.sight t = some (.running, some w)) :
      Hears s w b (.error t detail)
  | idle (t : TaskId) (hp : s.post w = some (.busy, some t)) (hs : b.Serves) (h : b.Resting)
      (hfree : s.Free w) : Hears s w b .idle
  | fatal (t : TaskId) (detail : String) (hp : s.post w = some (.busy, some t))
      (hk : t ∈ s.taken) (h : ∀ x, ¬ b.Names x)
      (ht : s.sight t = none ∨ s.sight t = some (.running, some w)) : Hears s w b (.fatal detail)

theorem Harmony.hears {s : Scene} (h : s.Harmony) {w : WorkerId} {b : Bench} {e : Event}
    {rest : List Event} (hb : s.bench w = some b) (ho : b.outgoing = e :: rest)
    (he : e.isNews = true) : s.Hears w (b.pop rest) e := by
  have hnews := Bench.news_pop ho he
  have hstale (hst : Stale s.sight s.taken b) : ∀ t, e.task? = some t → s.sight t = none := by
    intro t ht
    refine (hst t (.inr (.inr ⟨e, ?_, ht⟩))).2
    rw [ho]
    exact List.mem_cons_self ..
  have hfit := h.fits w b hb
  generalize hp : s.post w = x at hfit
  cases hfit with
  | gone hst => exact .stale e (.inl hp) (hstale hst)
  | stopping hst => exact .stale e (.inr hp) (hstale hst)
  | starting hs hf =>
    obtain ⟨hord, ⟨_, hn⟩ | ⟨hph, hn⟩⟩ := hf
    · rw [hn] at hnews
      cases hnews
    · obtain ⟨hev, hrest⟩ := List.cons.inj (hn.symm.trans hnews)
      subst hev
      exact .ready hp (hs.pop rest) ⟨hph, hord, hrest.symm⟩
  | idle hs hr =>
    rw [hr.news] at hnews
    cases hnews
  | pending t hs hk hpend ht =>
    rcases hpend with hh | hu
    · rw [hh.news] at hnews
      cases hnews
    · obtain ⟨es, hn, hr⟩ := hu.rest
      obtain ⟨hev, hrest⟩ := List.cons.inj (hn.symm.trans hnews)
      subst hev
      refine .busy t hp (hs.pop rest) hk ⟨hu.orders, ?_⟩ ht
      rw [← hrest]
      exact hr
  | acked t hs hk hack ht =>
    obtain ⟨hord, hr⟩ := hack
    rw [hnews] at hr
    generalize hph : b.worker.phase = phase at hr
    generalize b.reported = reported at hr
    generalize hes : e :: (b.pop rest).news = es at hr
    cases hr with
    | running | dying => cases hes
    | value v =>
      obtain ⟨hev, hrest⟩ := List.cons.inj hes
      subst hev
      exact .result t v hp (hs.pop rest) hk ⟨hph, hord, hrest⟩ ht
    | error detail =>
      obtain ⟨hev, hrest⟩ := List.cons.inj hes
      subst hev
      exact .error t detail hp (hs.pop rest) hk ⟨hph, hord, hrest⟩ ht
    | dead detail =>
      obtain ⟨hev, hrest⟩ := List.cons.inj hes
      subst hev
      refine .fatal t detail hp hk (fun y hy => ?_) ht
      have hph' : (b.pop rest).worker.phase = .ended (.panicked detail) := hph
      have hord' : (b.pop rest).orders = [] := hord
      rw [Bench.names_iff, hph', hord', hrest] at hy
      simp [Phase.task?, Event.task?] at hy
  | spent t hs hk hsp =>
    obtain ⟨hev, hrest⟩ := List.cons.inj (hsp.news.symm.trans hnews)
    subst hev
    refine .idle t hp (hs.pop rest) ⟨hsp.phase, hsp.orders, hrest.symm⟩ fun y => ⟨?_, ?_⟩
    · intro hy
      obtain ⟨hpy, b', hb', hpend⟩ := h.handed hy
      rw [hp] at hpy
      cases hpy
      rw [hb] at hb'
      cases hb'
      rcases hpend with hh | hu
      · have := hh.news.symm.trans hsp.news
        cases this
      · obtain ⟨es, hn, _⟩ := hu.rest
        have := hn.symm.trans hsp.news
        cases this
    · intro hy
      obtain ⟨hpy, b', hb', hack⟩ := h.running hy
      rw [hb] at hb'
      cases hb'
      have hr := hack.rest
      rw [hsp.phase, hsp.news] at hr
      cases hr

/-! ## what the pool does about it -/

theorem Harmony.pop_stale {s : Scene} (h : s.Harmony) {w : WorkerId} {b b' : Bench}
    (hb : s.bench w = some b) (hp : s.post w = none ∨ s.post w = some (.stopping, none))
    (hn : ∀ t, b'.Names t → b.Names t) :
    Harmony { s with bench := update s.bench w (some b') } := by
  have hfree : s.Free w := h.free fun t ht => by
    rcases hp with hp | hp <;> rw [hp] at ht <;> cases ht
  have hfit := h.fits w b hb
  have hfit' : Fits s.sight s.taken w b' (s.post w) := by
    rcases hp with hp | hp
    · rw [hp] at hfit ⊢
      cases hfit with
      | gone hst => exact .gone fun t ht => hst t (hn t ht)
    · rw [hp] at hfit ⊢
      cases hfit with
      | stopping hst => exact .stopping fun t ht => hst t (hn t ht)
  have hc := h.repost (h.lt_next hb) hfit' hfree
  rw [update_eq_self] at hc
  exact hc

/-- a worker is ready, or idle again -/
theorem Harmony.rest {s : Scene} (h : s.Harmony) {w : WorkerId} {b b' : Bench}
    (hb : s.bench w = some b) (hs : b'.Serves) (hr : b'.Resting) (hfree : s.Free w) :
    Harmony { s with
      post := update s.post w (some (.idle, none))
      bench := update s.bench w (some b') } :=
  h.repost (h.lt_next hb) (.idle hs hr) hfree

/-- what is heard of the task at a worker: nothing else is at that worker, and no other worker
has that task -/
theorem Harmony.change_task {s : Scene} (h : s.Harmony) {w : WorkerId} {b b' : Bench} {t : TaskId}
    {x : Option Post} {y : Option Sight} (hb : s.bench w = some b)
    (hp : s.post w = some (.busy, some t)) (hk : t ∈ s.taken)
    (ht : s.sight t = some (.queued, some w) ∨ s.sight t = some (.running, some w))
    (hy : y ≠ some (.queued, none))
    (hfit : Fits (update s.sight t y) s.taken w b' x)
    (hl : ∀ z, y = some z → Listed (update s.post w x) (update s.bench w (some b')) t z) :
    Harmony { s with
      post := update s.post w x
      sight := update s.sight t y
      bench := update s.bench w (some b') } := by
  refine h.change (h.lt_next hb) hfit ?_ ?_ h.nodup fun z => ?_
  · intro w' hne z _
    refine minds_update ⟨?_, ?_, ?_⟩ z <;> rcases ht with ht | ht <;> rw [ht] <;> simp [Ne.symm hne]
  · intro z u hu
    by_cases hz : z = t
    · subst hz
      rw [update_self] at hu
      exact ⟨hk, hl u hu⟩
    · rw [update_of_ne hz] at hu
      obtain ⟨hkz, hlz⟩ := h.listed z u hu
      refine ⟨hkz, hlz.elsewhere ?_ ?_ _ _⟩
      · rintro rfl
        have := hp.symm.trans (h.handed hu).1
        cases this
        exact hz rfl
      · rintro rfl
        have := hp.symm.trans (h.running hu).1
        cases this
        exact hz rfl
  · by_cases hz : z = t
    · subst hz
      rw [update_self, h.waits z]
      rcases ht with ht | ht <;> rw [ht] <;> simp [hy]
    · rw [update_of_ne hz]
      exact h.waits z

/-- the pool learns that an attempt was begun -/
theorem Harmony.begin {s : Scene} (h : s.Harmony) {w : WorkerId} {b b' : Bench} {t : TaskId}
    (hb : s.bench w = some b) (hp : s.post w = some (.busy, some t)) (hs : b'.Serves)
    (hk : t ∈ s.taken) (ha : b'.Acked t) (ht : s.sight t = some (.queued, some w)) :
    Harmony { s with
      post := update s.post w (some (.busy, some t))
      sight := update s.sight t (some (.running, some w))
      bench := update s.bench w (some b') } := by
  refine h.change_task hb hp hk (.inl ht) (by simp) ?_ fun z hz => ?_
  · exact .acked t hs hk ha (.inr (update_self ..))
  · cases hz
    exact .running w b' (update_self ..) (update_self ..) ha

/-- the pool learns how an attempt ended: the task is over, or to be tried again -/
theorem Harmony.tell {s : Scene} (h : s.Harmony) {w : WorkerId} {b b' : Bench} {t : TaskId}
    {y : Option Sight} (hb : s.bench w = some b) (hp : s.post w = some (.busy, some t))
    (hs : b'.Serves) (hk : t ∈ s.taken) (hsp : b'.Spent)
    (ht : s.sight t = some (.running, some w)) (hy : ∀ z, y = some z → z.1 = .retrying) :
    Harmony { s with
      post := update s.post w (some (.busy, some t))
      sight := update s.sight t y
      bench := update s.bench w (some b') } := by
  refine h.change_task hb hp hk (.inr ht) ?_ (.spent t hs hk hsp) fun z hz => ?_
  · intro hq
    have := hy _ hq
    cases this
  · obtain ⟨st, o⟩ := z
    have hst : st = .retrying := hy _ hz
    rw [hst]
    exact .retrying o

/-- a worker has crashed, and its task is over or to be tried again -/
theorem Harmony.crash {s : Scene} (h : s.Harmony) {w : WorkerId} {b b' : Bench} {t : TaskId}
    {y : Option Sight} (hb : s.bench w = some b) (hp : s.post w = some (.busy, some t))
    (hk : t ∈ s.taken) (hn : ∀ x, ¬ b'.Names x) (ht : s.sight t = some (.running, some w))
    (hy : ∀ z, y = some z → z.1 = .retrying) :
    Harmony { s with
      post := update s.post w none
      sight := update s.sight t y
      bench := update s.bench w (some b') } := by
  refine h.change_task hb hp hk (.inr ht) ?_ (.gone fun x hx => absurd hx (hn x)) fun z hz => ?_
  · intro hq
    have := hy _ hq
    cases this
  · obtain ⟨st, o⟩ := z
    have hst : st = .retrying := hy _ hz
    rw [hst]
    exact .retrying o

/-- news of a task that is over: only the bench moves on -/
theorem Harmony.move_on {s : Scene} (h : s.Harmony) {w : WorkerId} {b b' : Bench} {t : TaskId}
    (hb : s.bench w = some b) (hp : s.post w = some (.busy, some t)) (ht : s.sight t = none)
    {x : Option Post} (hfit : Fits s.sight s.taken w b' x) :
    Harmony { s with
      post := update s.post w x
      bench := update s.bench w (some b') } := by
  refine h.repost (h.lt_next hb) hfit (h.free fun z hz => ?_)
  rw [hp] at hz
  cases hz
  exact ht

end Scene

end TaskPool
