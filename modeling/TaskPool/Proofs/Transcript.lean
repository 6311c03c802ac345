import TaskPool.Proofs.Shadow

/-!
# A worker takes its tasks one after the other

* `assigned`          the tasks that come before the first `terminate`
* `Block`, `Blocks`   the reports about one task, and about some tasks one after the other
* `Going`, `Ends`     what a worker reports as long as it goes on, and when it has ended
* `Going.begins`      on the way it has reported a beginning of what all the tasks make
* `Bench.Transcript`  that is what a worker has reported that was sent certain commands
* `Bench.Stands`      the place that a worker has come to in the list of its commands
* `Stands.tell`, `Stands.leave`, `Stands.turn`   whatever is done, it stands at such a place

Why the place is well defined: commands that come while a handler runs are put behind those that
were put off before them, so what was put off and what is still to come are together the commands
that are left, in the order in which they were sent.
-/

namespace TaskPool

/-! ## what a worker was sent -/

/-- the tasks that come before the first `terminate` -/
def assigned : List Command → List TaskId
  | [] => []
  | .task id _ _ :: cs => id :: assigned cs
  | .reportMetrics :: cs => assigned cs
  | .terminate :: _ => []

theorem assigned_orders (cs : List Command) :
    assigned (cs.filter Command.isOrder) = assigned cs := by
  induction cs with
  | nil => rfl
  | cons c cs ih =>
    cases c with
    | task id kind payload => exact congrArg (id :: ·) ih
    | reportMetrics => exact ih
    | terminate => rfl

/-- the tasks `done` stand in front of the rest -/
def Splits (cs : List Command) (done : List TaskId) (rest : List Command) : Prop :=
  ∃ taken, cs = taken ++ rest ∧ taken.map Command.task? = done.map some

namespace Splits

variable {cs rest : List Command} {done : List TaskId}

theorem append (h : Splits cs done rest) (more : List Command) :
    Splits (cs ++ more) done (rest ++ more) := by
  obtain ⟨taken, rfl, hdone⟩ := h
  exact ⟨taken, List.append_assoc .., hdone⟩

theorem take {id : TaskId} {kind : Kind} {payload : Json}
    (h : Splits cs done (.task id kind payload :: rest)) : Splits cs (done ++ [id]) rest := by
  obtain ⟨taken, rfl, hdone⟩ := h
  refine ⟨taken ++ [.task id kind payload], by simp, ?_⟩
  rw [List.map_append, hdone, List.map_append]
  rfl

theorem assigned_eq (h : Splits cs done rest) : assigned cs = done ++ assigned rest := by
  obtain ⟨taken, rfl, hdone⟩ := h
  induction taken generalizing done with
  | nil =>
    obtain rfl := List.map_eq_nil_iff.mp hdone.symm
    rfl
  | cons c taken ih =>
    obtain ⟨id, done, rfl, hid, hrest⟩ := List.map_eq_cons_iff.mp hdone.symm
    cases c with
    | task id' kind payload =>
      cases hid
      exact congrArg (id :: ·) (ih hrest.symm)
    | terminate | reportMetrics => cases hid

theorem prefix_assigned (h : Splits cs done rest) : done <+: assigned cs :=
  ⟨assigned rest, h.assigned_eq.symm⟩

end Splits

/-! ## what a worker reports -/

/-- the reports about one task -/
inductive Block (t : TaskId) : List Event → Prop where
  | value (v : Json) : Block t [.busy t, .result t v, .idle]
  | error (detail : String) : Block t [.busy t, .error t detail, .idle]

/-- the reports about some tasks, one task after the other -/
inductive Blocks : List TaskId → List Event → Prop where
  | nil : Blocks [] []
  | snoc {ts : List TaskId} {bs es : List Event} {t : TaskId} (h : Blocks ts bs)
      (he : Block t es) : Blocks (ts ++ [t]) (bs ++ es)

/-- the reports of a worker that has not told its end, when these are the tasks to do -/
inductive Going (tasks : List TaskId) : List Event → Prop where
  | silent : Going tasks []
  | between {done : List TaskId} {bs : List Event} (hd : done <+: tasks) (hb : Blocks done bs) :
      Going tasks (.ready :: bs)
  | within {done : List TaskId} {bs : List Event} {t : TaskId} (hd : done ++ [t] <+: tasks)
      (hb : Blocks done bs) : Going tasks (.ready :: bs ++ [.busy t])

/-- more tasks can always be reported -/
theorem Blocks.extend {done : List TaskId} {bs : List Event} (h : Blocks done bs)
    (more : List TaskId) : ∃ es, Blocks (done ++ more) (bs ++ es) := by
  induction more generalizing done bs with
  | nil => exact ⟨[], by simpa using h⟩
  | cons t more ih =>
    obtain ⟨es, hes⟩ := ih (h.snoc (.value .null : Block t _))
    rw [List.append_assoc, List.append_assoc] at hes
    exact ⟨_, hes⟩

/-- **what is reported on the way is the beginning of a report about all the tasks** -/
theorem Going.begins {tasks : List TaskId} {es : List Event} (h : Going tasks es) :
    ∃ bs, Blocks tasks bs ∧ es <+: .ready :: bs := by
  cases h with
  | silent =>
    obtain ⟨bs, hbs⟩ := Blocks.nil.extend tasks
    exact ⟨bs, hbs, List.nil_prefix⟩
  | between hd hb =>
    obtain ⟨more, rfl⟩ := hd
    obtain ⟨es, hes⟩ := hb.extend more
    exact ⟨_, hes, List.prefix_append (.ready :: _) es⟩
  | @within done bs t hd hb =>
    obtain ⟨more, rfl⟩ := hd
    obtain ⟨es, hes⟩ := (hb.snoc (.value .null : Block t _)).extend more
    refine ⟨_, hes, [.result t .null, .idle] ++ es, ?_⟩
    simp

/-- the reports before the end of a worker, by the way it ended -/
inductive Ends (sent : List Command) (attached doomed : Bool) : Ending → List Event → Prop where
  | stopped {bs : List Event} (hb : Blocks (assigned sent) bs)
      (why : .terminate ∈ sent ∨ attached = false) :
      Ends sent attached doomed .stopped (.ready :: bs)
  | panicked {done : List TaskId} {bs : List Event} {t : TaskId} (detail : String)
      (hd : done ++ [t] <+: assigned sent) (hb : Blocks done bs) :
      Ends sent attached doomed (.panicked detail) (.ready :: bs ++ [.busy t])
  | aborted {es : List Event} (hd : doomed = true) (h : Going (assigned sent) es) :
      Ends sent attached doomed .aborted es

theorem Ends.going {sent : List Command} {attached doomed : Bool} {how : Ending} {es : List Event}
    (h : Ends sent attached doomed how es) : Going (assigned sent) es := by
  cases h with
  | stopped hb why => exact .between (List.prefix_refl _) hb
  | panicked detail hd hb => exact .within hd hb
  | aborted hd h => exact h

namespace Bench

/-- what a worker has reported that was sent these commands, answers to requests for metrics left
aside: one task after the other, and in the end how it ended -/
def Transcript (b : Bench) (sent : List Command) : Prop :=
  (b.reported = false → Going (assigned sent) b.news) ∧
    (b.reported = true → ∃ how es, Ends sent b.worker.attached b.doomed how es ∧
      b.news = es ++ how.events)

/-! ## the place that a worker has come to -/

/-- how far the worker is in what it was sent, and what it has reported of it -/
inductive Stands (b : Bench) (sent : List Command) : Prop where
  | unstarted (hp : b.worker.phase = .unstarted) (hr : b.reported = false)
      (ho : Splits (sent.filter Command.isOrder) [] b.orders) (hn : b.news = [])
  | waiting (done : List TaskId) (bs : List Event) (hp : b.worker.phase = .waiting)
      (hr : b.reported = false) (ho : Splits (sent.filter Command.isOrder) done b.orders)
      (hb : Blocks done bs) (hn : b.news = .ready :: bs)
  | running (done : List TaskId) (bs : List Event) (t : TaskId) (hp : b.worker.phase = .running t)
      (hr : b.reported = false) (ho : Splits (sent.filter Command.isOrder) (done ++ [t]) b.orders)
      (hb : Blocks done bs) (hn : b.news = .ready :: bs ++ [.busy t])
  | ended (how : Ending) (es : List Event) (hp : b.worker.phase = .ended how)
      (he : Ends sent b.worker.attached b.doomed how es)
      (hn : b.news = es ++ if b.reported then how.events else [])

variable {b b' : Bench} {sent : List Command}

/-- the tasks that were done come first among those to do -/
theorem prefix_of_splits {done : List TaskId} {rest : List Command}
    (h : Splits (sent.filter Command.isOrder) done rest) : done <+: assigned sent := by
  rw [← assigned_orders]
  exact h.prefix_assigned

theorem Stands.going (h : b.Stands sent) (hr : b.reported = false) :
    Going (assigned sent) b.news := by
  cases h with
  | unstarted hp _ ho hn =>
    rw [hn]
    exact .silent
  | waiting done bs hp _ ho hb hn =>
    rw [hn]
    exact .between (prefix_of_splits ho) hb
  | running done bs t hp _ ho hb hn =>
    rw [hn]
    exact .within (prefix_of_splits ho) hb
  | ended how es hp he hn =>
    rw [hr, if_neg Bool.false_ne_true, List.append_nil] at hn
    rw [hn]
    exact he.going

/-- the place tells what was reported -/
theorem Stands.transcript (h : b.Stands sent) : b.Transcript sent := by
  refine ⟨h.going, fun hr => ?_⟩
  cases h with
  | unstarted _ hr' | waiting _ _ _ hr' | running _ _ _ _ hr' =>
    rw [hr] at hr'
    cases hr'
  | ended how es hp he hn =>
    rw [hr, if_pos rfl] at hn
    exact ⟨how, es, he, hn⟩

/-! ## what is done to a worker -/

theorem Stands.tell (h : b.Stands sent) (c : Command) (hreach : b.worker.isReachable = true) :
    (b.tell c).Stands (sent ++ [c]) := by
  rw [Bench.tell, if_pos hreach]
  have horders : orders { b with worker := b.worker.send c }
      = b.orders ++ [c].filter Command.isOrder := by
    show (b.worker.deferred ++ (b.worker.inbox ++ [c])).filter _ = _
    rw [← List.append_assoc, List.filter_append]
    rfl
  have hsplit {done : List TaskId} (ho : Splits (sent.filter Command.isOrder) done b.orders) :
      Splits ((sent ++ [c]).filter Command.isOrder) done
        (orders { b with worker := b.worker.send c }) := by
    rw [List.filter_append, horders]
    exact ho.append _
  cases h with
  | unstarted hp hr ho hn => exact .unstarted hp hr (hsplit ho) hn
  | waiting done bs hp hr ho hb hn => exact .waiting done bs hp hr (hsplit ho) hb hn
  | running done bs t hp hr ho hb hn => exact .running done bs t hp hr (hsplit ho) hb hn
  | ended how es hp =>
    rw [Worker.isReachable, Worker.hasEnded, hp] at hreach
    cases hreach

/-- neither the loss of the handle nor a wish to abort changes what was reported -/
theorem Stands.leave (h : b.Stands sent) {attached doomed : Bool}
    (ha : b.worker.attached = false → attached = false) (hd : b.doomed = true → doomed = true) :
    Stands
      { b with
        worker := { b.worker with attached := attached }
        doomed := doomed } sent := by
  cases h with
  | unstarted hp hr ho hn => exact .unstarted hp hr ho hn
  | waiting done bs hp hr ho hb hn => exact .waiting done bs hp hr ho hb hn
  | running done bs t hp hr ho hb hn => exact .running done bs t hp hr ho hb hn
  | ended how es hp he hn =>
    refine .ended how es hp ?_ hn
    cases he with
    | stopped hb why => exact .stopped hb (why.imp_right ha)
    | panicked detail hd' hb => exact .panicked detail hd' hb
    | aborted hd' hg => exact .aborted (hd hd') hg

end Bench

/-! ## a waiting worker -/

/-- a waiting worker takes a command that was put off, or one from the channel, or it sees that none
will come -/
inductive Worker.Draws (w : Worker) (now memory : Nat) : Worker × List Event → Prop where
  | deferred (c : Command) (rest : List Command) (hd : w.deferred = c :: rest) :
      Draws w now memory ({ w with deferred := rest }.obey now memory c)
  | inbox (c : Command) (rest : List Command) (hd : w.deferred = []) (hi : w.inbox = c :: rest) :
      Draws w now memory ({ w with inbox := rest }.obey now memory c)
  | closed (hd : w.deferred = []) (hi : w.inbox = []) (ha : w.attached = false) :
      Draws w now memory (w.endWith .stopped, [])

theorem Worker.draws {w : Worker} {now memory : Nat} {r : Worker × List Event}
    (hp : w.phase = .waiting) (h : w.step now memory = some r) : w.Draws now memory r := by
  unfold step at h
  split at h
  · rename_i hp'
    rw [hp] at hp'
    cases hp'
  · split at h
    · rename_i c rest hd
      cases h
      exact .deferred c rest hd
    · rename_i c rest hd hi
      cases h
      exact .inbox c rest hd hi
    · rename_i hd hi
      split at h
      · cases h
      · rename_i ha
        cases h
        exact .closed hd hi (by simpa using ha)
  · rename_i t hp'
    rw [hp] at hp'
    cases hp'
  · rename_i how hp'
    rw [hp] at hp'
    cases hp'

namespace Bench

variable {b b' : Bench} {sent : List Command}

/-- a worker with nothing left to do before it ends has done all that it was to do -/
theorem blocks_assigned {done : List TaskId} {bs : List Event} {rest : List Command}
    (ho : Splits (sent.filter Command.isOrder) done rest) (hrest : assigned rest = [])
    (hb : Blocks done bs) : Blocks (assigned sent) bs := by
  have hdone : assigned sent = done := by
    rw [← assigned_orders, ho.assigned_eq, hrest, List.append_nil]
  rw [hdone]
  exact hb

/-- a waiting worker does what it is told next -/
theorem stands_obey {done : List TaskId} {bs : List Event} (hr : b.reported = false)
    (ho : Splits (sent.filter Command.isOrder) done b.orders) (hb : Blocks done bs)
    (hn : b.news = .ready :: bs) {c : Command} {v : Worker} (hv : v.phase = .waiting)
    (hc : b.commands = c :: (v.deferred ++ v.inbox)) (now memory : Nat) :
    Stands ⟨(v.obey now memory c).1, b.outgoing ++ (v.obey now memory c).2, b.doomed,
      b.reported⟩ sent := by
  have horders : b.orders = (c :: (v.deferred ++ v.inbox)).filter Command.isOrder := by
    rw [orders, hc]
  rw [horders] at ho
  cases c with
  | task id kind payload =>
    refine .running done bs id rfl hr ho.take hb ((news_append ..).trans ?_)
    rw [hn]
    rfl
  | reportMetrics =>
    refine .waiting done bs hv hr ho hb ((news_append ..).trans ?_)
    rw [hn]
    exact List.append_nil _
  | terminate =>
    have hsent : .terminate ∈ sent := by
      obtain ⟨taken, hsplit, -⟩ := ho
      have hmem : Command.terminate ∈ sent.filter Command.isOrder := by
        rw [hsplit]
        exact List.mem_append_right _ (List.mem_cons_self ..)
      exact (List.mem_filter.mp hmem).1
    refine .ended .stopped (.ready :: bs) rfl (.stopped (blocks_assigned ho rfl hb) (.inl hsent))
      ((news_append ..).trans ?_)
    rw [hn, hr]
    rfl

/-- a command that comes while a handler runs is answered, or left for later -/
theorem stands_overhear {done : List TaskId} {bs : List Event} {t : TaskId}
    (hp : b.worker.phase = .running t) (hr : b.reported = false)
    (ho : Splits (sent.filter Command.isOrder) (done ++ [t]) b.orders) (hb : Blocks done bs)
    (hn : b.news = .ready :: bs ++ [.busy t]) {c : Command} {rest : List Command}
    (hi : b.worker.inbox = c :: rest) (now memory : Nat) :
    Stands ⟨({ b.worker with inbox := rest }.overhear now memory c).1,
      b.outgoing ++ ({ b.worker with inbox := rest }.overhear now memory c).2, b.doomed,
      b.reported⟩ sent := by
  have horders : b.orders = (b.worker.deferred ++ c :: rest).filter Command.isOrder := by
    rw [orders, commands, hi]
  rw [horders] at ho
  have hlater : Stands ⟨{ b.worker with
      inbox := rest
      deferred := b.worker.deferred ++ [c] }, b.outgoing ++ [], b.doomed, b.reported⟩ sent := by
    refine .running done bs t hp hr ?_ hb ((news_append ..).trans ?_)
    · show Splits _ _ (((b.worker.deferred ++ [c]) ++ rest).filter _)
      rw [List.append_assoc]
      exact ho
    · rw [hn]
      exact List.append_nil _
  cases c with
  | task | terminate => exact hlater
  | reportMetrics =>
    refine .running done bs t hp hr ?_ hb ((news_append ..).trans ?_)
    · show Splits _ _ ((b.worker.deferred ++ rest).filter _)
      rw [List.filter_append] at ho ⊢
      exact ho
    · rw [hn]
      exact List.append_nil _

/-- the end of a handler ends the block, or the worker -/
theorem stands_finish {done : List TaskId} {bs : List Event} {t : TaskId}
    (hp : b.worker.phase = .running t) (hr : b.reported = false)
    (ho : Splits (sent.filter Command.isOrder) (done ++ [t]) b.orders) (hb : Blocks done bs)
    (hn : b.news = .ready :: bs ++ [.busy t]) {r : Worker × List Event} (hc : b.worker.Close r) :
    Stands ⟨r.1, b.outgoing ++ r.2, b.doomed, b.reported⟩ sent := by
  have horders {w : Worker} (hd : w.deferred = b.worker.deferred)
      (hi : w.inbox = b.worker.inbox) (es : List Event) :
      Splits (sent.filter Command.isOrder) (done ++ [t])
        (orders ⟨w, es, b.doomed, b.reported⟩) := by
    show Splits _ _ ((w.deferred ++ w.inbox).filter _)
    rw [hd, hi]
    exact ho
  cases hc with
  | skipped => exact .running done bs t hp hr ho hb ((news_append ..).trans (by simp [hn]))
  | value t' v w hp' hw hd hi =>
    rw [hp] at hp'
    cases hp'
    refine .waiting _ _ hw hr (horders hd hi _) (hb.snoc (.value v)) ((news_append ..).trans ?_)
    simp [hn, Event.isNews]
  | error t' detail w hp' hw hd hi =>
    rw [hp] at hp'
    cases hp'
    refine .waiting _ _ hw hr (horders hd hi _) (hb.snoc (.error detail))
      ((news_append ..).trans ?_)
    simp [hn, Event.isNews]
  | panic t' detail hp' =>
    refine .ended (.panicked detail) _ rfl (.panicked detail (prefix_of_splits ho) hb)
      ((news_append ..).trans ?_)
    simp [hn, hr]

theorem Stands.step (h : b.Stands sent) {now memory : Nat} {r : Worker × List Event}
    (hs : b.worker.step now memory = some r) :
    Stands ⟨r.1, b.outgoing ++ r.2, b.doomed, b.reported⟩ sent := by
  cases h with
  | unstarted hp hr ho hn =>
    cases Worker.step_cases hs with
    | ready =>
      refine .waiting [] [] rfl hr ho .nil ((news_append ..).trans ?_)
      rw [hn]
      rfl
    | obey _ _ hp' | close hp' | overhear _ _ _ hp' =>
      rw [hp] at hp'
      cases hp'
  | waiting done bs hp hr ho hb hn =>
    cases Worker.draws hp hs with
    | deferred c rest hd =>
      refine stands_obey (v := { b.worker with deferred := rest }) hr ho hb hn hp ?_ now memory
      rw [commands, hd]
      rfl
    | inbox c rest hd hi =>
      refine stands_obey (v := { b.worker with inbox := rest }) hr ho hb hn hp ?_ now memory
      show _ = c :: (b.worker.deferred ++ rest)
      rw [commands, hd, hi]
      rfl
    | closed hd hi ha =>
      have hnone : assigned b.orders = [] := by
        rw [orders, commands, hd, hi]
        rfl
      refine .ended .stopped (.ready :: bs) rfl (.stopped (blocks_assigned ho hnone hb) (.inr ha))
        ((news_append ..).trans ?_)
      rw [hn, hr]
      rfl
  | running done bs t hp hr ho hb hn =>
    cases Worker.step_cases hs with
    | overhear t' c rest hp' hi => exact stands_overhear hp hr ho hb hn hi now memory
    | ready hp' | obey _ _ hp' | close hp' =>
      rw [hp] at hp'
      cases hp'
  | ended how es hp =>
    rw [Worker.step_of_ended hp] at hs
    cases hs

theorem Stands.finish (h : b.Stands sent) {r : Worker × List Event} (hc : b.worker.Close r) :
    Stands ⟨r.1, b.outgoing ++ r.2, b.doomed, b.reported⟩ sent := by
  have hidle (hp : ∀ t, b.worker.phase ≠ .running t) :
      Stands ⟨r.1, b.outgoing ++ r.2, b.doomed, b.reported⟩ sent := by
    cases hc with
    | skipped =>
      rw [List.append_nil]
      exact h
    | value t _ _ hp' | error t _ _ hp' | panic t _ hp' => exact absurd hp' (hp t)
  cases h with
  | running done bs t hp hr ho hb hn => exact stands_finish hp hr ho hb hn hc
  | unstarted hp | waiting _ _ hp | ended _ _ hp =>
    refine hidle fun t ht => ?_
    rw [hp] at ht
    cases ht

theorem Stands.abort (h : b.Stands sent) (hd : b.doomed = true) :
    Stands { b with worker := b.worker.abort } sent := by
  cases he : b.worker.hasEnded with
  | true =>
    rw [Worker.abort, if_pos he]
    exact h
  | false =>
    have hr : b.reported = false := by
      cases h with
      | unstarted _ hr | waiting _ _ _ hr | running _ _ _ _ hr => exact hr
      | ended _ _ hp =>
        rw [Worker.hasEnded, hp] at he
        cases he
    rw [Worker.abort, if_neg (by rw [he]; exact Bool.false_ne_true)]
    -- an abort cuts off whatever was reported so far, inside a block or between two
    refine .ended .aborted b.news rfl (.aborted hd (h.going hr)) ?_
    show b.news = b.news ++ if b.reported then _ else []
    rw [hr, if_neg Bool.false_ne_true, List.append_nil]

theorem Stands.watch (h : b.Stands sent) {how : Ending} (hp : b.worker.phase = .ended how)
    (hr : b.reported = false) :
    Stands
      { b with
        reported := true
        outgoing := b.outgoing ++ how.events } sent := by
  cases h with
  | ended how' es hp' he hn =>
    rw [hp] at hp'
    cases hp'
    have hnews : how.events.filter Event.isNews = how.events := by cases how <;> rfl
    refine .ended how es hp he ((news_append ..).trans ?_)
    rw [hn, hr, hnews, if_neg Bool.false_ne_true, List.append_nil]
    rfl
  | unstarted hp' | waiting _ _ hp' | running _ _ _ hp' =>
    rw [hp] at hp'
    cases hp'

/-- **every turn leaves the worker at a place of its list** -/
theorem Stands.turn (h : b.Stands sent) (ht : b.Turn b') : b'.Stands sent := by
  cases ht with
  | step now memory r hs => exact h.step hs
  | finish now how => exact h.finish (b.worker.finish_cases now how)
  | abort hd => exact h.abort hd
  | watch how hp hr => exact h.watch hp hr

end Bench

end TaskPool
