import TaskPool.Proofs.Transcript

/-!
# A worker from its start on

* `Stint`           a worker behind its two channels, with every command that it was sent and the
                    requests for metrics that it has answered, each by its place among the commands
* `Stint.Runs`      what is done to a worker and by it: commands come at any time, the handle may be
                    let go, an abort may be asked for, and handlers end as they like
* `Runs.stands`     at every moment the worker stands at a place of its list
* `Heard`           which commands it has taken out of the channel, and what became of the requests
                    among them
* `Runs.unasked`    without the requests the same is done and reported
* `Runs.sequential` all of it: a worker is a processor of one command after the other

Why requests are answered in order: a request is never put off, so it is answered when it comes out
of the channel, and the channel keeps the order.
-/

namespace TaskPool

/-! ## places among commands -/

def Command.isEnd : Command → Bool
  | .terminate => true
  | _ => false

/-- the commands before the first `terminate` -/
def upToEnd (cs : List Command) : List Command := cs.takeWhile fun c => !c.isEnd

/-- the places of the requests for metrics -/
def asks (cs : List Command) : List Nat :=
  (cs.zipIdx.filter fun x => !x.1.isOrder).map Prod.snd

theorem asks_append_order {c : Command} (hc : c.isOrder = true) (cs : List Command) :
    asks (cs ++ [c]) = asks cs := by
  simp [asks, List.zipIdx_append, hc]

theorem asks_append_request (cs : List Command) :
    asks (cs ++ [.reportMetrics]) = asks cs ++ [cs.length] := by
  simp [asks, List.zipIdx_append, Command.isOrder]

theorem asks_mono {xs ys : List Command} (h : xs <+: ys) : asks xs <+: asks ys := by
  obtain ⟨more, rfl⟩ := h
  unfold asks
  rw [List.zipIdx_append, List.filter_append, List.map_append]
  exact List.prefix_append ..

/-- commands among which is a `terminate` reach up to the first one -/
theorem upToEnd_of_mem {taken rest : List Command} (h : .terminate ∈ taken) :
    upToEnd (taken ++ rest) <+: taken := by
  induction taken with
  | nil => cases h
  | cons c taken ih =>
    cases c with
    | terminate => exact List.nil_prefix
    | task id kind payload =>
      have hmem : .terminate ∈ taken := by simpa using h
      exact (List.prefix_cons_inj _).mpr (ih hmem)
    | reportMetrics =>
      have hmem : .terminate ∈ taken := by simpa using h
      exact (List.prefix_cons_inj _).mpr (ih hmem)

/-! ## what can be done -/

/-- a worker behind its channels, and what was sent to it -/
structure Stint where
  bench : Bench
  sent : List Command
  /-- the requests for metrics that were answered, by their places in `sent` -/
  answered : List Nat

namespace Stint

inductive Action where
  | send (c : Command)
  /-- the handle is let go -/
  | drop
  /-- an abort is asked for -/
  | kill
  | act (a : Bench.Act)

def new (id : WorkerId) (now : Nat) : Stint := ⟨.new id now, [], []⟩

/-- a command arrives, unless the worker cannot be reached -/
def send (s : Stint) (c : Command) : Stint :=
  if s.bench.worker.isReachable then
    { s with
      bench := s.bench.tell c
      sent := s.sent ++ [c] }
  else s

/-- the place of the command that comes out of the channel next -/
def place (s : Stint) : Nat := s.sent.length - s.bench.worker.inbox.length

inductive Does (s : Stint) : Action → Stint → Prop where
  | send (c : Command) : Does s (.send c) (s.send c)
  | drop : Does s .drop
      { s with bench := { s.bench with worker := s.bench.worker.detach } }
  | kill : Does s .kill { s with bench := { s.bench with doomed := true } }
  | act (a : Bench.Act) (b : Bench) (h : s.bench.Acts a b) : Does s (.act a)
      { s with
        bench := b
        answered := if a.observes then s.answered ++ [s.place] else s.answered }

/-- `as` is what was done from the start on -/
inductive Runs (id : WorkerId) (now : Nat) : List Action → Stint → Prop where
  | new : Runs id now [] (.new id now)
  | does {as : List Action} {a : Action} {s s' : Stint} (h : Runs id now as s) (ha : s.Does a s') :
      Runs id now (as ++ [a]) s'

variable {id : WorkerId} {now : Nat} {as as' : List Action} {a a' : Action} {s s' r r' : Stint}

/-! ## one task after the other -/

theorem Does.stands (ha : s.Does a s') (h : s.bench.Stands s.sent) :
    s'.bench.Stands s'.sent := by
  cases ha with
  | send c =>
    unfold Stint.send
    split
    · rename_i hreach
      exact h.tell c hreach
    · exact h
  | drop => exact h.leave (fun _ => rfl) fun hd => hd
  | kill => exact h.leave (fun ha => ha) fun _ => rfl
  | act a b hact => exact h.turn hact.turn

/-- at every moment the worker stands at a place of its list -/
theorem Runs.stands (h : Runs id now as s) : s.bench.Stands s.sent := by
  induction h with
  | new => exact .unstarted rfl rfl ⟨[], rfl, rfl⟩ rfl
  | does _ ha ih => exact ha.stands ih

/-! ## requests for metrics -/

/-- what came out of the channel, and what became of the requests among it -/
structure Heard (s : Stint) (taken : List Command) : Prop where
  sent : taken <+: s.sent
  left : s.bench.worker.hasEnded = false → s.sent = taken ++ s.bench.worker.inbox
  answered : s.answered = asks taken
  replies : (s.bench.outgoing.filter fun e => !e.isNews).length = s.answered.length
  deferred : ∀ c ∈ s.bench.worker.deferred, c.isOrder = true ∧ c ∈ taken
  stopped : s.bench.worker.phase = .ended .stopped → upToEnd s.sent <+: taken

variable {taken : List Command}

theorem Heard.place_eq (h : s.Heard taken) (hgo : s.bench.worker.hasEnded = false) :
    s.place = taken.length := by
  rw [place, h.left hgo, List.length_append, Nat.add_sub_cancel]

/-- what a worker does with the commands `more` that it takes out of the channel -/
theorem Heard.next (h : s.Heard taken) (hgo : s.bench.worker.hasEnded = false)
    {more left : List Command} (hi : s.bench.worker.inbox = more ++ left) {w : Worker}
    (hw : w.hasEnded = false → w.inbox = left)
    (hd : ∀ c ∈ w.deferred, c ∈ s.bench.worker.deferred ∨ c.isOrder = true ∧ c ∈ more)
    {es : List Event} {answered : List Nat} (ha : answered = asks (taken ++ more))
    (hes : s.answered.length + (es.filter fun e => !e.isNews).length = answered.length)
    (hs : w.phase = .ended .stopped → upToEnd s.sent <+: taken ++ more) (doomed reported : Bool) :
    Heard ⟨⟨w, s.bench.outgoing ++ es, doomed, reported⟩, s.sent, answered⟩ (taken ++ more) := by
  have hsent : s.sent = taken ++ more ++ left := by
    rw [h.left hgo, hi, List.append_assoc]
  refine ⟨⟨left, hsent.symm⟩, fun hgo' => ?_, ha, ?_, fun c hc => ?_, hs⟩
  · show s.sent = taken ++ more ++ w.inbox
    rw [hw hgo', hsent]
  · show ((s.bench.outgoing ++ es).filter _).length = answered.length
    rw [List.filter_append, List.length_append, h.replies, hes]
  · rcases hd c hc with hc | ⟨horder, hc⟩
    · obtain ⟨horder, hmem⟩ := h.deferred c hc
      exact ⟨horder, List.mem_append_left _ hmem⟩
    · exact ⟨horder, List.mem_append_right _ hc⟩

/-- a worker that takes nothing out of the channel -/
theorem Heard.rest (h : s.Heard taken) (hgo : s.bench.worker.hasEnded = false) {w : Worker}
    (hw : w.hasEnded = false → w.inbox = s.bench.worker.inbox)
    (hd : ∀ c ∈ w.deferred, c ∈ s.bench.worker.deferred) {es : List Event}
    (hes : es.filter (fun e => !e.isNews) = [])
    (hs : w.phase = .ended .stopped → upToEnd s.sent <+: taken) (doomed reported : Bool) :
    Heard ⟨⟨w, s.bench.outgoing ++ es, doomed, reported⟩, s.sent, s.answered⟩ taken := by
  have hnext : Heard ⟨⟨w, s.bench.outgoing ++ es, doomed, reported⟩, s.sent, s.answered⟩
      (taken ++ []) := by
    refine h.next hgo rfl hw (fun c hc => .inl (hd c hc)) ?_ ?_ ?_ doomed reported
    · rw [List.append_nil]
      exact h.answered
    · rw [hes]
      rfl
    · rw [List.append_nil]
      exact hs
  rwa [List.append_nil] at hnext

theorem not_ended {w : Worker} (hgo : w.hasEnded = false) (how : Ending) :
    w.phase ≠ .ended how := by
  intro hp
  rw [Worker.hasEnded, hp] at hgo
  cases hgo

/-- what was put off is no request, so a request that is dealt with comes out of the channel -/
theorem Heard.asked (h : s.Heard taken) {clock memory : Nat} {r : Worker × List Event}
    (ha : s.bench.worker.asked) (hs : s.bench.worker.step clock memory = some r) :
    s.bench.worker.hasEnded = false ∧ ∃ left, s.bench.worker.inbox = .reportMetrics :: left ∧
      r = Worker.reportMetrics { s.bench.worker with inbox := left } clock memory := by
  unfold Worker.asked Worker.upcoming at ha
  cases hp : s.bench.worker.phase with
  | waiting =>
    rw [hp] at ha
    refine ⟨by rw [Worker.hasEnded, hp], ?_⟩
    cases Worker.draws hp hs with
    | deferred c rest hd =>
      rw [hd] at ha
      cases ha
      have horder := (h.deferred .reportMetrics (by rw [hd]; exact List.mem_cons_self ..)).1
      cases horder
    | inbox c rest hd hi =>
      rw [hd, hi] at ha
      cases ha
      exact ⟨rest, hi, rfl⟩
    | closed hd hi =>
      rw [hd, hi] at ha
      cases ha
  | running t =>
    rw [hp] at ha
    refine ⟨by rw [Worker.hasEnded, hp], ?_⟩
    cases Worker.step_cases hs with
    | overhear t' c rest hp' hi =>
      rw [hi] at ha
      cases ha
      exact ⟨rest, hi, rfl⟩
    | ready hp' | obey _ _ hp' | close hp' =>
      rw [hp] at hp'
      cases hp'
  | unstarted | ended =>
    rw [hp] at ha
    cases ha

/-- **a request that comes out of the channel is answered at once** -/
theorem Heard.answer (h : s.Heard taken) {clock memory : Nat} {r : Worker × List Event}
    (ha : s.bench.worker.asked) (hs : s.bench.worker.step clock memory = some r) :
    Heard ⟨⟨r.1, s.bench.outgoing ++ r.2, s.bench.doomed, s.bench.reported⟩, s.sent,
      s.answered ++ [s.place]⟩ (taken ++ [.reportMetrics]) := by
  obtain ⟨hgo, left, hi, rfl⟩ := h.asked ha hs
  refine h.next (w := (Worker.reportMetrics { s.bench.worker with inbox := left } clock memory).1)
    hgo hi (fun _ => rfl) (fun c hc => .inl hc) ?_ ?_ ?_ _ _
  · rw [asks_append_request, h.answered, h.place_eq hgo]
  · rw [List.length_append]
    rfl
  · exact fun hp => absurd hp (not_ended hgo .stopped)

/-- what a worker does with an order that it takes, whether it was put off or not -/
theorem Heard.obey (h : s.Heard taken) (hgo : s.bench.worker.hasEnded = false) {c : Command}
    (hc : c.isOrder = true) {v : Worker} {more : List Command}
    (hmore : asks (taken ++ more) = asks taken) (hi : s.bench.worker.inbox = more ++ v.inbox)
    (hd : ∀ x ∈ v.deferred, x ∈ s.bench.worker.deferred) (hmem : c ∈ taken ++ more)
    (clock memory : Nat) :
    Heard ⟨⟨(v.obey clock memory c).1, s.bench.outgoing ++ (v.obey clock memory c).2,
      s.bench.doomed, s.bench.reported⟩, s.sent, s.answered⟩ (taken ++ more) := by
  have hanswered : s.answered = asks (taken ++ more) := h.answered.trans hmore.symm
  cases c with
  | task id kind payload =>
    refine h.next (w := (v.obey clock memory (.task id kind payload)).1) hgo hi (fun _ => rfl)
      (fun x hx => .inl (hd x hx)) hanswered ?_ ?_ _ _
    · rfl
    · intro hp'
      cases hp'
  | terminate =>
    refine h.next hgo hi (fun hw => ?_) (fun x hx => ?_) hanswered rfl (fun _ => ?_) _ _
    · cases hw
    · cases hx
    · -- what is still in the channel comes after this `terminate`
      rw [h.left hgo, hi, ← List.append_assoc]
      exact upToEnd_of_mem hmem
  | reportMetrics => cases hc

/-- the next command is an order, unless the worker is asked for metrics -/
theorem isOrder_of_upcoming {w : Worker} (ha : ¬ w.asked) {c : Command}
    (hc : w.upcoming = some c) : c.isOrder = true := by
  cases c with
  | reportMetrics => exact absurd hc ha
  | task | terminate => rfl

/-- a waiting worker takes an order that was put off, or one from the channel, or it stops -/
theorem Heard.draw (h : s.Heard taken) (hp : s.bench.worker.phase = .waiting)
    (ha : ¬ s.bench.worker.asked) {clock memory : Nat} {r : Worker × List Event}
    (hr : s.bench.worker.Draws clock memory r) :
    ∃ taken', Heard ⟨⟨r.1, s.bench.outgoing ++ r.2, s.bench.doomed, s.bench.reported⟩, s.sent,
      s.answered⟩ taken' := by
  have hgo : s.bench.worker.hasEnded = false := by rw [Worker.hasEnded, hp]
  cases hr with
  | deferred c rest hd =>
    obtain ⟨hc, hmem⟩ := h.deferred c (by rw [hd]; exact List.mem_cons_self ..)
    have hrest : ∀ x ∈ rest, x ∈ s.bench.worker.deferred := by
      intro x hx
      rw [hd]
      exact List.mem_cons_of_mem c hx
    -- this order came out of the channel when it was put off
    exact ⟨taken ++ [], h.obey (v := { s.bench.worker with deferred := rest }) hgo hc
      (by rw [List.append_nil]) rfl hrest (List.mem_append_left _ hmem) clock memory⟩
  | inbox c rest hd hi =>
    have hc : c.isOrder = true := by
      refine isOrder_of_upcoming ha ?_
      rw [Worker.upcoming, hp, hd, hi]
      rfl
    exact ⟨taken ++ [c], h.obey (v := { s.bench.worker with inbox := rest }) hgo hc
      (asks_append_order hc taken) hi (fun x hx => hx)
      (List.mem_append_right _ (List.mem_singleton_self c)) clock memory⟩
  | closed hd hi =>
    refine ⟨taken, h.rest hgo (fun hw => ?_) (fun c hc => ?_) rfl (fun _ => ?_) _ _⟩
    · cases hw
    · cases hc
    · rw [h.left hgo, hi, List.append_nil]
      exact List.takeWhile_prefix _

/-- an order that comes while a handler runs is put off -/
theorem Heard.overhear (h : s.Heard taken) (hgo : s.bench.worker.hasEnded = false) {c : Command}
    (hc : c.isOrder = true) {rest : List Command} (hi : s.bench.worker.inbox = c :: rest)
    (clock memory : Nat) :
    Heard ⟨⟨({ s.bench.worker with inbox := rest }.overhear clock memory c).1,
      s.bench.outgoing ++ ({ s.bench.worker with inbox := rest }.overhear clock memory c).2,
      s.bench.doomed, s.bench.reported⟩, s.sent, s.answered⟩ (taken ++ [c]) := by
  have hlater : Heard ⟨⟨{ s.bench.worker with
      inbox := rest
      deferred := s.bench.worker.deferred ++ [c] }, s.bench.outgoing ++ [], s.bench.doomed,
      s.bench.reported⟩, s.sent, s.answered⟩ (taken ++ [c]) := by
    refine h.next hgo hi (fun _ => rfl) (fun x hx => ?_)
      (h.answered.trans (asks_append_order hc taken).symm) rfl (fun hp => ?_) _ _
    · refine (List.mem_append.mp hx).imp_right fun hx => ?_
      rw [List.mem_singleton.mp hx]
      exact ⟨hc, List.mem_singleton_self c⟩
    · exact absurd hp (not_ended hgo .stopped)
  cases c with
  | task | terminate => exact hlater
  | reportMetrics => cases hc

/-- **every step but an answer** leaves the answers as they are -/
theorem Heard.step (h : s.Heard taken) {clock memory : Nat} {r : Worker × List Event}
    (ha : ¬ s.bench.worker.asked) (hs : s.bench.worker.step clock memory = some r) :
    ∃ taken', Heard ⟨⟨r.1, s.bench.outgoing ++ r.2, s.bench.doomed, s.bench.reported⟩, s.sent,
      s.answered⟩ taken' := by
  cases hp : s.bench.worker.phase with
  | unstarted =>
    have hgo : s.bench.worker.hasEnded = false := by rw [Worker.hasEnded, hp]
    cases Worker.step_cases hs with
    | ready =>
      refine ⟨taken, h.rest (w := { s.bench.worker with phase := .waiting }) hgo (fun _ => rfl)
        (fun c hc => hc) ?_ ?_ _ _⟩
      · rfl
      · intro hp'
        cases hp'
    | obey _ _ hp' | close hp' | overhear _ _ _ hp' =>
      rw [hp] at hp'
      cases hp'
  | waiting => exact h.draw hp ha (Worker.draws hp hs)
  | running t =>
    have hgo : s.bench.worker.hasEnded = false := by rw [Worker.hasEnded, hp]
    cases Worker.step_cases hs with
    | overhear t' c rest hp' hi =>
      have hc : c.isOrder = true := by
        refine isOrder_of_upcoming ha ?_
        rw [Worker.upcoming, hp, hi]
        rfl
      exact ⟨taken ++ [c], h.overhear hgo hc hi clock memory⟩
    | ready hp' | obey _ _ hp' | close hp' =>
      rw [hp] at hp'
      cases hp'
  | ended how =>
    rw [Worker.step_of_ended hp] at hs
    cases hs

theorem Heard.finish (h : s.Heard taken) {r : Worker × List Event} (hc : s.bench.worker.Close r) :
    Heard ⟨⟨r.1, s.bench.outgoing ++ r.2, s.bench.doomed, s.bench.reported⟩, s.sent, s.answered⟩
      taken := by
  have halive {t : TaskId} (hp : s.bench.worker.phase = .running t) :
      s.bench.worker.hasEnded = false := by
    rw [Worker.hasEnded, hp]
  cases hc with
  | skipped =>
    rw [List.append_nil]
    exact ⟨h.sent, h.left, h.answered, h.replies, h.deferred, h.stopped⟩
  | value t v w hp hw hd hi | error t detail w hp hw hd hi =>
    refine h.rest (halive hp) (fun _ => hi) (fun c hc => hd ▸ hc) ?_ ?_ _ _
    · rfl
    · intro hp'
      rw [hw] at hp'
      cases hp'
  | panic t detail hp =>
    refine h.rest (halive hp) ?_ ?_ ?_ ?_ _ _
    · intro hw
      cases hw
    · intro c hc
      cases hc
    · rfl
    · intro hp'
      cases hp'

theorem Heard.abort (h : s.Heard taken) :
    Heard ⟨{ s.bench with worker := s.bench.worker.abort }, s.sent, s.answered⟩ taken := by
  unfold Worker.abort
  split
  · exact ⟨h.sent, h.left, h.answered, h.replies, h.deferred, h.stopped⟩
  · refine ⟨h.sent, ?_, h.answered, h.replies, ?_, ?_⟩
    · intro hw
      cases hw
    · intro c hc
      cases hc
    · intro hp
      cases hp

theorem Heard.watch (h : s.Heard taken) (how : Ending) :
    Heard ⟨{ s.bench with
      reported := true
      outgoing := s.bench.outgoing ++ how.events }, s.sent, s.answered⟩ taken := by
  have hnone : how.events.filter (fun e => !e.isNews) = [] := by cases how <;> rfl
  refine ⟨h.sent, h.left, h.answered, ?_, h.deferred, h.stopped⟩
  show ((s.bench.outgoing ++ how.events).filter _).length = _
  rw [List.filter_append, hnone, List.append_nil]
  exact h.replies

theorem Heard.act (h : s.Heard taken) {a : Bench.Act} {b : Bench} (ha : s.bench.Acts a b) :
    ∃ taken', Heard ⟨b, s.sent, if a.observes then s.answered ++ [s.place] else s.answered⟩
      taken' := by
  cases ha with
  | answer clock memory r hasked hs => exact ⟨_, h.answer hasked hs⟩
  | step clock memory r hasked hs => exact h.step hasked hs
  | finish clock how => exact ⟨taken, h.finish (s.bench.worker.finish_cases clock how)⟩
  | abort => exact ⟨taken, h.abort⟩
  | watch how => exact ⟨taken, h.watch how⟩

theorem Heard.send (h : s.Heard taken) (c : Command) : (s.send c).Heard taken := by
  unfold Stint.send
  split
  · rename_i hreach
    have hgo : s.bench.worker.hasEnded = false := by
      rw [Worker.isReachable, Bool.and_eq_true] at hreach
      simpa using hreach.1
    rw [Bench.tell, if_pos hreach]
    refine ⟨h.sent.trans (List.prefix_append ..), fun _ => ?_, h.answered, h.replies, h.deferred,
      fun hp => absurd hp (not_ended hgo .stopped)⟩
    show s.sent ++ [c] = taken ++ (s.bench.worker.inbox ++ [c])
    rw [h.left hgo, List.append_assoc]
  · exact h

theorem Does.heard (ha : s.Does a s') (h : ∃ taken, s.Heard taken) : ∃ taken, s'.Heard taken := by
  obtain ⟨taken, h⟩ := h
  cases ha with
  | send c => exact ⟨taken, h.send c⟩
  | drop | kill => exact ⟨taken, h.sent, h.left, h.answered, h.replies, h.deferred, h.stopped⟩
  | act a b hact => exact h.act hact

theorem Runs.heard (h : Runs id now as s) : ∃ taken, s.Heard taken := by
  induction h with
  | new =>
    refine ⟨[], List.nil_prefix, fun _ => rfl, rfl, rfl, ?_, ?_⟩
    · intro c hc
      cases hc
    · intro hp
      cases hp
  | does _ ha ih => exact ha.heard ih

/-- the worker can do nothing by itself before a handler ends or a command comes -/
def Settled (s : Stint) : Prop := ∀ clock memory, s.bench.worker.step clock memory = none

/-- the worker goes on, or it came to its end by itself -/
def Unhurt (s : Stint) : Prop := ∀ how, s.bench.worker.phase = .ended how → how = .stopped

/-- a worker that is settled has taken every command up to the first `terminate` -/
theorem Heard.settled (h : s.Heard taken) (hs : s.Settled) (hu : s.Unhurt) :
    upToEnd s.sent <+: taken := by
  have hempty (hgo : s.bench.worker.hasEnded = false) (hi : s.bench.worker.inbox = []) :
      upToEnd s.sent <+: taken := by
    rw [h.left hgo, hi, List.append_nil]
    exact List.takeWhile_prefix _
  have hnone := hs 0 0
  unfold Worker.step at hnone
  cases hp : s.bench.worker.phase with
  | unstarted =>
    rw [hp] at hnone
    cases hnone
  | waiting =>
    rw [hp] at hnone
    have hgo : s.bench.worker.hasEnded = false := by rw [Worker.hasEnded, hp]
    dsimp only at hnone
    split at hnone
    · cases hnone
    · cases hnone
    · rename_i hi
      exact hempty hgo hi
  | running t =>
    rw [hp] at hnone
    have hgo : s.bench.worker.hasEnded = false := by rw [Worker.hasEnded, hp]
    dsimp only at hnone
    split at hnone
    · cases hnone
    · rename_i hi
      exact hempty hgo hi
  | ended how =>
    obtain rfl := hu how hp
    exact h.stopped hp

/-! ## without requests -/

/-- a request for metrics is sent, or answered -/
def Action.observes : Action → Bool
  | .send c => !c.isOrder
  | .act a => a.observes
  | _ => false

/-- the same action at any other time -/
def Action.blur : Action → Action
  | .act a => .act a.blur
  | a => a

theorem Does.unique (h : s.Does a r) (h' : s.Does a r') : r = r' := by
  cases h with
  | act a b hact =>
    cases h' with
    | act _ b' hact' =>
      obtain rfl := hact.unique hact'
      rfl
  | send | drop | kill =>
    cases h'
    rfl

theorem Runs.unique (h : Runs id now as s) (h' : Runs id now as s') : s = s' := by
  induction h generalizing s' with
  | new =>
    generalize hnil : ([] : List Action) = bs at h'
    cases h' with
    | new => rfl
    | does => exact absurd hnil.symm (List.append_ne_nil_of_right_ne_nil _ (List.cons_ne_nil _ _))
  | @does as a _ _ _ ha ih =>
    generalize has : as ++ [a] = bs at h'
    cases h' with
    | new => exact absurd has (List.append_ne_nil_of_right_ne_nil _ (List.cons_ne_nil _ _))
    | does hr ha' =>
      obtain ⟨rfl, haa⟩ := List.append_inj' has rfl
      cases haa
      obtain rfl := ih hr
      exact ha.unique ha'

/-- `r` is `s` without requests for metrics and their answers -/
structure Shadow (s r : Stint) : Prop where
  bench : s.bench.Shadow r.bench
  sent : r.sent = s.sent.filter Command.isOrder

theorem Shadow.send (h : s.Shadow r) {c : Command} (hc : c.isOrder = true) :
    (s.send c).Shadow (r.send c) := by
  unfold Stint.send
  rw [h.bench.worker.isReachable]
  split
  · refine ⟨h.bench.tell hc, ?_⟩
    show r.sent ++ [c] = (s.sent ++ [c]).filter _
    rw [List.filter_append, h.sent, List.filter_cons_of_pos hc]
    rfl
  · exact h

theorem Shadow.send_left (h : s.Shadow r) {c : Command} (hc : c.isOrder = false) :
    (s.send c).Shadow r := by
  unfold Stint.send
  split
  · refine ⟨h.bench.tell_left hc, ?_⟩
    show r.sent = (s.sent ++ [c]).filter _
    rw [List.filter_append, h.sent, List.filter_cons_of_neg (by simp [hc])]
    exact (List.append_nil _).symm
  · exact h

/-- **what is no request and no answer is done without them, too** -/
theorem Shadow.follow (h : s.Shadow r) (ha : s.Does a s') (ho : a.observes = false)
    (hb : a'.blur = a.blur) : ∃ r', r.Does a' r' ∧ s'.Shadow r' := by
  cases a with
  | send c =>
    cases a' with
    | send =>
      cases hb
      cases ha
      exact ⟨_, .send c, h.send (by simpa [Action.observes] using ho)⟩
    | _ => cases hb
  | drop =>
    cases a' with
    | drop =>
      cases ha
      exact ⟨_, .drop, ⟨h.bench.worker.detach, h.bench.outgoing, h.bench.doomed,
        h.bench.reported⟩, h.sent⟩
    | _ => cases hb
  | kill =>
    cases a' with
    | kill =>
      cases ha
      exact ⟨_, .kill, ⟨h.bench.worker, h.bench.outgoing, rfl, h.bench.reported⟩, h.sent⟩
    | _ => cases hb
  | act x =>
    cases a' with
    | act y =>
      cases ha with
      | act _ b hact =>
        obtain ⟨b', hact', hshadow⟩ := hact.shadow h.bench ho (Action.act.inj hb)
        exact ⟨_, .act y b' hact', hshadow, h.sent⟩
    | _ => cases hb

/-- **requests and answers leave no trace in what is left without them** -/
theorem Shadow.skip (h : s.Shadow r) (ha : s.Does a s') (ho : a.observes = true) :
    s'.Shadow r := by
  cases ha with
  | send c => exact h.send_left (by simpa [Action.observes] using ho)
  | act a b hact => exact ⟨hact.shadow_left h.bench ho, h.sent⟩
  | drop | kill => cases ho

theorem Runs.shadow (h : Runs id now as s)
    (has : as'.map Action.blur = (as.filter fun a => !a.observes).map Action.blur) :
    ∃ r, Runs id now as' r ∧ s.Shadow r := by
  induction h generalizing as' with
  | new =>
    cases List.map_eq_nil_iff.mp has
    exact ⟨_, .new, Bench.shadow_new id now, rfl⟩
  | @does as a s s' _ ha ih =>
    rw [List.filter_append, List.map_append] at has
    cases ho : a.observes with
    | true =>
      rw [List.filter_cons_of_neg (by simp [ho]), List.filter_nil, List.map_nil,
        List.append_nil] at has
      obtain ⟨r, hr, hsr⟩ := ih has
      exact ⟨r, hr, hsr.skip ha ho⟩
    | false =>
      rw [List.filter_cons_of_pos (by simp [ho]), List.filter_nil] at has
      obtain ⟨bs, cs, rfl, hbs, hcs⟩ := List.map_eq_append_iff.mp has
      obtain ⟨a', rfl, ha'⟩ := List.map_eq_singleton_iff.mp hcs
      obtain ⟨r, hr, hsr⟩ := ih hbs
      obtain ⟨r', hdoes, hshadow⟩ := hsr.follow ha ho ha'
      exact ⟨r', hr.does hdoes, hshadow⟩

/-- whoever asks for metrics changes nothing of what is reported else -/
theorem Runs.unasked (h : Runs id now as s)
    (has : as'.map Action.blur = (as.filter fun a => !a.observes).map Action.blur) :
    (∃ r, Runs id now as' r) ∧ ∀ r, Runs id now as' r →
      r.sent = s.sent.filter Command.isOrder ∧ r.bench.outgoing = s.bench.news := by
  obtain ⟨r, hr, hsr⟩ := h.shadow has
  refine ⟨⟨r, hr⟩, fun r' hr' => ?_⟩
  obtain rfl := hr.unique hr'
  exact ⟨hsr.sent, hsr.bench.outgoing⟩

/-! ## all of it -/

/-- **a worker is a processor of one command after the other**: it reports its tasks one after the
other in the order in which they were sent, and how it ended; requests for metrics change nothing of
that, are answered in order, each once, and none that came before the first `terminate` is left when
the worker is settled -/
theorem Runs.sequential (h : Runs id now as s) :
    s.bench.Transcript s.sent ∧
      (∀ as', as'.map Action.blur = (as.filter fun a => !a.observes).map Action.blur →
        (∃ r, Runs id now as' r) ∧ ∀ r, Runs id now as' r →
          r.sent = s.sent.filter Command.isOrder ∧ r.bench.outgoing = s.bench.news) ∧
      s.answered <+: asks s.sent ∧
      (s.bench.outgoing.filter fun e => !e.isNews).length = s.answered.length ∧
      (s.Settled → s.Unhurt → asks (upToEnd s.sent) <+: s.answered) := by
  obtain ⟨taken, hheard⟩ := h.heard
  refine ⟨h.stands.transcript, fun as' has => h.unasked has, ?_, hheard.replies, fun hs hu => ?_⟩
  · rw [hheard.answered]
    exact asks_mono hheard.sent
  · rw [hheard.answered]
    exact asks_mono (hheard.settled hs hu)

/-- a task, a request and an end that come while the worker has time for them or has not, and a task
that comes too late -/
def workedThrough : List Action :=
  [.send (.task ⟨1⟩ .cacheCleanup .null), .act (.step 0 0), .act (.step 1 0), .send .reportMetrics,
    .act (.answer 2 64), .send .terminate, .act (.step 3 0),
    .send (.task ⟨2⟩ .cacheCleanup .null), .act (.step 3 0), .act (.finish 4 (.value .null)),
    .act (.step 5 0), .act .watch]

theorem sequential_workedThrough : ∃ s, Runs 7 0 workedThrough s ∧
    s.bench.news = [.ready, .busy ⟨1⟩, .result ⟨1⟩ .null, .idle, .exited true] ∧
    s.answered = [1] ∧ s.Settled ∧ s.Unhurt ∧ s.bench.Transcript s.sent ∧
    asks (upToEnd s.sent) <+: s.answered := by
  have h0 : Runs 7 0 [] (.new 7 0) := .new
  have h1 := h0.does (.send (.task ⟨1⟩ .cacheCleanup .null))
  have h2 := h1.does (.act _ _ (.step 0 0 _ nofun rfl))
  have h3 := h2.does (.act _ _ (.step 1 0 _ nofun rfl))
  have h4 := (h3.does (.send .reportMetrics)).does (.act _ _ (.answer 2 64 _ rfl rfl))
  have h5 := (h4.does (.send .terminate)).does (.act _ _ (.step 3 0 _ nofun rfl))
  have h6 := (h5.does (.send (.task ⟨2⟩ .cacheCleanup .null))).does
    (.act _ _ (.step 3 0 _ nofun rfl))
  have h7 := h6.does (.act _ _ (.finish 4 (.value .null)))
  have h8 := (h7.does (.act _ _ (.step 5 0 _ nofun rfl))).does (.act _ _ (.watch .stopped rfl rfl))
  obtain ⟨s, h, hp, hn, ha⟩ : ∃ s, Runs 7 0 workedThrough s ∧
      s.bench.worker.phase = .ended .stopped ∧
      s.bench.news = [.ready, .busy ⟨1⟩, .result ⟨1⟩ .null, .idle, .exited true] ∧
      s.answered = [1] := ⟨_, h8, rfl, rfl, rfl⟩
  have hs : s.Settled := fun clock memory => Worker.step_of_ended hp clock memory
  have hu : s.Unhurt := by
    intro how hp'
    rw [hp] at hp'
    cases hp'
    rfl
  obtain ⟨htranscript, -, -, -, hanswered⟩ := h.sequential
  exact ⟨s, h, hn, ha, hs, hu, htranscript, hanswered hs hu⟩

end Stint

end TaskPool
