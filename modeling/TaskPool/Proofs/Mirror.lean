import TaskPool.Proofs.Seating

/-!
# Workshops that show worlds

* `Workshop.Shows`   a workshop shows what is in the picture of a world: the same pool, benches that
                     carry the seats, and the same messages on their way
* `Shows.turn`, `call`, `ring`, `letGo`   it still does when the same happens on both sides
* `Shows.handle`     so whatever message the pool of the world handles next without a counter that
                     overflows, that of the workshop can handle it too
* `Shows.admits`     and may believe the same of its surroundings

Why `rest`: a pool of a world handles everything that waits in one go, so there are times at which
messages are out of its inbox and not handled yet.
-/

namespace TaskPool

open Function

namespace Workshop

/-- the workshop shows what is in the picture; `rest` are messages that the pool is about to handle,
and `drawn` are the identifiers that submissions have used so far -/
structure Shows (W : Workshop) (x : Picture) (rest : List Message) (drawn : List TaskId) :
    Prop where
  pool : x.pool = some W.pool
  listening : x.listening = true
  held : W.held = true → x.held = true
  next : W.pool.roster.nextId = x.seats.length + 1
  carries : Carries x (rest ++ x.inbox) W.bench W.timers
  rung : (alarmsOf (rest ++ x.inbox)).Perm W.rung
  nodup : (accepted W.history ++ submitted (rest ++ x.inbox)).Nodup
  drawn : ∀ id ∈ accepted W.history ++ submitted (rest ++ x.inbox), id ∈ drawn

theorem shows_new (c : Config) (handlers : HandlerTable) :
    (new c).Shows (World.new handlers (some (.new c))).picture [] [] where
  pool := rfl
  listening := rfl
  held := fun _ => rfl
  next := rfl
  carries := ⟨fun _ _ h => (nomatch h), fun _ h => (nomatch h), fun _ _ => ⟨rfl, rfl⟩,
    fun _ h => (nomatch h)⟩
  rung := .nil
  nodup := .nil
  drawn := fun _ h => (nomatch h)

variable {W : Workshop} {x : Picture} {rest : List Message} {drawn : List TaskId}

/-- the pool takes messages out of its inbox, and has not handled them yet -/
theorem Shows.sort (h : W.Shows x rest drawn) {rest' inbox : List Message}
    (hms : rest' ++ inbox = rest ++ x.inbox) : W.Shows { x with inbox := inbox } rest' drawn := by
  have hc := h.carries
  have hr := h.rung
  have hn := h.nodup
  have hd := h.drawn
  rw [← hms] at hc hr hn hd
  exact ⟨h.pool, h.listening, h.held, h.next,
    ⟨hc.numbered, hc.seated, hc.empty, hc.timers⟩, hr, hn, hd⟩

/-- a bench takes a turn, and what it reports is on its way -/
theorem Shows.turn (h : W.Shows x rest drawn) {s s' : Seat} {es : List Event} {b b' : Bench}
    (hs : s ∈ x.seats) (hid : s'.worker.id = s.worker.id) (hb : W.bench s.worker.id = some b)
    (ht : (s'.bench (reportsOf s.worker.id (rest ++ x.inbox) ++ es)).Twin b') :
    (W.setBench s.worker.id b').Shows
      ((x.change s.worker.id fun _ => s').receive (es.map (.report s.worker.id))) rest drawn := by
  have hms : rest ++ (x.inbox ++ es.map (.report s.worker.id))
      = (rest ++ x.inbox) ++ es.map (.report s.worker.id) := (List.append_assoc ..).symm
  have hc := h.carries.change (rest ++ (x.inbox ++ es.map (.report s.worker.id)))
    (v := s.worker.id) (f := fun _ => s') (g := fun _ => b') (fun _ _ => hid)
    (fun _ _ _ => by
      rw [hms, reportsOf_append, reportsOf_reports, if_pos rfl]
      exact ht)
    (fun u hu => by
      rw [hms, reportsOf_append, reportsOf_reports, if_neg (Ne.symm hu), List.append_nil])
    (fun hn => absurd rfl (hn s hs))
  rw [hb] at hc
  have ha : alarmsOf (rest ++ (x.inbox ++ es.map (.report s.worker.id)))
      = alarmsOf (rest ++ x.inbox) := by
    rw [hms, alarmsOf_append, alarmsOf_reports, List.append_nil]
  have hsub : submitted (rest ++ (x.inbox ++ es.map (.report s.worker.id)))
      = submitted (rest ++ x.inbox) := by
    rw [hms, submitted_append, submitted_reports, List.append_nil]
  refine ⟨h.pool, h.listening, h.held, ?_, ⟨hc.numbered, hc.seated, hc.empty, hc.timers⟩, ?_, ?_,
    ?_⟩
  · rw [show (W.setBench s.worker.id b').pool = W.pool from rfl, h.next]
    exact congrArg (· + 1) (List.length_map _).symm
  · show (alarmsOf (rest ++ (x.inbox ++ _))).Perm W.rung
    rw [ha]
    exact h.rung
  · show (accepted W.history ++ submitted (rest ++ (x.inbox ++ _))).Nodup
    rw [hsub]
    exact h.nodup
  · show ∀ id ∈ accepted W.history ++ submitted (rest ++ (x.inbox ++ _)), id ∈ drawn
    rw [hsub]
    exact h.drawn

/-- calls and alarms are on their way -/
theorem Shows.receive (h : W.Shows x rest drawn) (ns : List Message)
    (hr : ∀ v, reportsOf v ns = []) (hn : (submitted ns).Nodup)
    (hd : ∀ id ∈ submitted ns, id ∉ drawn) :
    ({ W with rung := W.rung ++ alarmsOf ns } : Workshop).Shows (x.receive ns) rest
      (drawn ++ submitted ns) := by
  have hms : rest ++ (x.inbox ++ ns) = (rest ++ x.inbox) ++ ns := (List.append_assoc ..).symm
  have hrep (v : WorkerId) : reportsOf v (rest ++ (x.inbox ++ ns))
      = reportsOf v (rest ++ x.inbox) := by
    rw [hms, reportsOf_append, hr, List.append_nil]
  have hsub : accepted W.history ++ submitted (rest ++ (x.inbox ++ ns))
      = (accepted W.history ++ submitted (rest ++ x.inbox)) ++ submitted ns := by
    rw [hms, submitted_append, List.append_assoc]
  have hc := h.carries
  refine ⟨h.pool, h.listening, h.held, h.next, ⟨hc.numbered, fun s hs => ?_, fun v hv => ?_,
    hc.timers⟩, ?_, ?_, ?_⟩
  · obtain ⟨b, hb, ht⟩ := hc.seated s hs
    refine ⟨b, hb, ?_⟩
    show (s.bench (reportsOf _ (rest ++ (x.inbox ++ ns)))).Twin b
    rw [hrep]
    exact ht
  · show W.bench v = none ∧ reportsOf v (rest ++ (x.inbox ++ ns)) = []
    rw [hrep]
    exact hc.empty v hv
  · show (alarmsOf (rest ++ (x.inbox ++ ns))).Perm (W.rung ++ alarmsOf ns)
    rw [hms, alarmsOf_append]
    exact h.rung.append_right _
  · show (accepted W.history ++ submitted (rest ++ (x.inbox ++ ns))).Nodup
    rw [hsub]
    refine List.nodup_append.mpr ⟨h.nodup, hn, fun id hid y hy hxy => ?_⟩
    exact hd y hy (hxy ▸ h.drawn id hid)
  · show ∀ id ∈ accepted W.history ++ submitted (rest ++ (x.inbox ++ ns)), _
    rw [hsub]
    intro id hid
    rcases List.mem_append.mp hid with hid | hid
    · exact List.mem_append_left _ (h.drawn id hid)
    · exact List.mem_append_right _ hid

/-- a call is on its way; a submission comes with a new identifier -/
theorem Shows.call (h : W.Shows x rest drawn) (caller : CallId) (r : Request)
    (hn : ∀ id ∈ submitted [.call caller r], id ∉ drawn) :
    W.Shows (x.receive [.call caller r]) rest (drawn ++ submitted [.call caller r]) := by
  have hnd : (submitted [.call caller r]).Nodup := by
    cases r with
    | submit id => exact List.pairwise_singleton _ id
    | _ => exact .nil
  have hs := h.receive [.call caller r] (fun _ => rfl) hnd hn
  rw [show alarmsOf [.call caller r] = [] from rfl, List.append_nil] at hs
  exact hs

/-- a timer goes off, and its alarm is on its way -/
theorem Shows.ring (h : W.Shows x rest drawn) (t : Timer) :
    ({ W with
        timers := if t.repeats then W.timers else W.timers.filter fun u => u.id != t.id
        rung := W.rung ++ [t.alarm] } : Workshop).Shows
      ((if t.repeats then x else x.disarm t.id).receive [.ring t.alarm]) rest drawn := by
  have hc := h.carries
  have hs : ({ W with
      timers := if t.repeats then W.timers else W.timers.filter fun u => u.id != t.id } :
        Workshop).Shows (if t.repeats then x else x.disarm t.id) rest drawn := by
    split
    · exact ⟨h.pool, h.listening, h.held, h.next, hc, h.rung, h.nodup, h.drawn⟩
    · have hc' := hc.disarm t.id
      exact ⟨h.pool, h.listening, h.held, h.next,
        ⟨hc'.numbered, hc'.seated, hc'.empty, hc'.timers⟩, h.rung, h.nodup, h.drawn⟩
  have hr := hs.receive [.ring t.alarm] (fun _ => rfl) .nil fun _ hid => (nomatch hid)
  rw [show submitted [.ring t.alarm] = [] from rfl, List.append_nil] at hr
  exact hr

/-- a timer is gone that will never go off -/
theorem Shows.drop (h : W.Shows x rest drawn) (id : TimerId) :
    W.Shows (x.disarm id) rest drawn :=
  ⟨h.pool, h.listening, h.held, h.next,
    ⟨h.carries.numbered, h.carries.seated, h.carries.empty, fun t ht =>
      h.carries.timers t (List.mem_filter.mp ht).1⟩, h.rung, h.nodup, h.drawn⟩

theorem Shows.letGo (h : W.Shows x rest drawn) :
    ({ W with held := false } : Workshop).Shows { x with held := false } rest drawn :=
  ⟨h.pool, h.listening, fun hw => (nomatch hw), h.next,
    ⟨h.carries.numbered, h.carries.seated, h.carries.empty, h.carries.timers⟩, h.rung, h.nodup,
    h.drawn⟩

/-! ## a message is handled -/

theorem accepted_receipt (p : Pool) (msg : Message) :
    (accepted (p.receipt msg)).Sublist (submitted [msg]) := by
  cases msg with
  | call caller r =>
    cases r with
    | submit id =>
      simp only [Pool.receipt]
      split
      · exact .refl [id]
      · exact List.nil_sublist _
    | _ => exact List.nil_sublist _
  | _ => exact List.nil_sublist _

/-- a message was taken, and is no longer on its way -/
theorem Shows.take {msg : Message} (h : W.Shows x (msg :: rest) drawn)
    (bench : WorkerId → Option Bench) (rung : List Alarm)
    (hc : Carries x (rest ++ x.inbox) bench W.timers)
    (hr : (alarmsOf (rest ++ x.inbox)).Perm rung) :
    ({ W with
        bench := bench
        rung := rung } : Workshop).Shows x rest drawn := by
  have hsub : (accepted W.history ++ submitted (rest ++ x.inbox)).Sublist
      (accepted W.history ++ submitted (msg :: rest ++ x.inbox)) :=
    ((List.sublist_cons_self msg _).filterMap Message.submits?).append_left _
  exact ⟨h.pool, h.listening, h.held, h.next, hc, hr, h.nodup.sublist hsub,
    fun id hid => h.drawn id (hsub.subset hid)⟩

theorem Shows.deliver {w : World} {m : Moment} (h : W.Shows w.picture rest drawn) (msg : Message)
    (hover : W.pool.overflows m msg = false) (hs : W.pool.roster.Sound) (ho : W.pool.outbox = [])
    (hp : m.Parted W.bench)
    (hn : (accepted W.history ++ submitted (msg :: rest ++ w.inbox)).Nodup)
    (hd : ∀ id ∈ accepted W.history ++ submitted (msg :: rest ++ w.inbox), id ∈ drawn) :
    (W.deliver m w.nanos msg).Shows (World.deliver m w msg).picture rest drawn ∧
      m.Parted (W.deliver m w.nanos msg).bench := by
  obtain ⟨n, hnext, hhired⟩ := Pool.handle_numbers (m := m) hs msg
  rw [ho, h.next] at hhired
  set q := W.pool.handle m msg with hq
  set w1 : World := { w with pool := some { q with outbox := [] } } with hw1
  have hc := h.carries
  have hc1 : Carries w1.picture (rest ++ w.inbox) W.bench W.timers :=
    ⟨hc.numbered, hc.seated, hc.empty, hc.timers⟩
  obtain ⟨hc', hp', hseq⟩ := hc1.perform q.outbox hp hhired
  have hw : World.deliver m w msg = q.outbox.foldl World.perform w1 := by
    have hpool : w.pool = some W.pool := h.pool
    have hreceive : W.pool.receive m msg = .ok q := Overflowing.checked_eq_ok.mpr ⟨hover, rfl⟩
    unfold World.deliver
    simp only [hpool, hreceive]
    rfl
  have hacc : (accepted (W.history ++ q.outbox) ++ submitted (rest ++ w.inbox)).Sublist
      (accepted W.history ++ submitted (msg :: rest ++ w.inbox)) := by
    have hr := Pool.handle_accepted (m := m) hs ho msg
    rw [accepted_append, hr, List.append_assoc,
      show submitted (msg :: rest ++ w.inbox) = submitted [msg] ++ submitted (rest ++ w.inbox) from
        submitted_append [msg] _]
    exact ((accepted_receipt W.pool msg).append_right _).append_left _
  have hinbox : (World.deliver m w msg).picture.inbox = w.inbox := by
    rw [hw]
    exact hseq.inbox
  refine ⟨⟨?_, ?_, fun hh => ?_, ?_, ?_, ?_, ?_, fun id hid => ?_⟩, hp'⟩
  · rw [hw]
    exact hseq.pool
  · rw [hw]
    exact hseq.listening.trans h.listening
  · rw [hw]
    exact hseq.held.trans (h.held hh)
  · rw [hw, hseq.length]
    show q.roster.nextId = w.picture.seats.length + n + 1
    rw [hnext, h.next]
    exact Nat.add_right_comm _ 1 n
  · rw [hinbox, hw]
    exact hc'
  · rw [hinbox]
    exact h.rung
  · rw [hinbox]
    exact hn.sublist hacc
  · rw [hinbox] at hid
    exact hd id (hacc.subset hid)

/-- the next report of a worker that is on its way is the first that its bench has sent -/
theorem Shows.take_report {v : WorkerId} {e : Event}
    (h : W.Shows x (.report v e :: rest) drawn) :
    ∃ b es, W.bench v = some b ∧ b.outgoing = e :: es ∧
      (W.setBench v (b.pop es)).Shows x rest drawn := by
  have hc := h.carries
  have hrep : reportsOf v (.report v e :: rest ++ x.inbox) = e :: reportsOf v (rest ++ x.inbox) :=
    List.filterMap_cons_some (if_pos rfl)
  have hseat : ∃ s ∈ x.seats, s.worker.id = v := by
    by_contra hno
    have hnil := (hc.empty v fun s hs hid => hno ⟨s, hs, hid⟩).2
    rw [hrep] at hnil
    cases hnil
  obtain ⟨s, hs, rfl⟩ := hseat
  obtain ⟨b, hb, ht⟩ := hc.seated s hs
  refine ⟨b, _, hb, ht.outgoing.symm.trans hrep, ?_⟩
  have hc' := hc.change (rest ++ x.inbox) (v := s.worker.id) (f := id)
    (g := fun b => b.pop (reportsOf s.worker.id (rest ++ x.inbox))) (fun _ h => h)
    (fun _ _ ht => ht.pop _)
    (fun u hu => by
      have hu' : (Message.report s.worker.id e).reports? u = none := if_neg (Ne.symm hu)
      exact (List.filterMap_cons_none hu').symm)
    (fun hn => absurd rfl (hn s hs))
  rw [hb] at hc'
  have hx : x.change s.worker.id id = x := by
    unfold Picture.change
    simp
  rw [hx] at hc'
  exact h.take _ W.rung hc' h.rung

/-- whatever message comes next, the pool of the workshop can handle it too, unless a counter
overflows -/
theorem Shows.handle {c : Config} {w : World} {m : Moment} {msg : Message} (hW : Reachable c W)
    (h : W.Shows w.picture (msg :: rest) drawn) (hm : W.Admits m)
    (hover : W.pool.overflows m msg = false) :
    ∃ W' : Workshop, Reachable c W' ∧ W'.Shows (World.deliver m w msg).picture rest drawn ∧
      W'.Admits m := by
  have ht := hW.inStep.tuned
  cases msg with
  | call caller r =>
    have hs : W.Shows w.picture rest drawn := h.take W.bench W.rung ⟨h.carries.numbered,
      h.carries.seated, h.carries.empty, h.carries.timers⟩ h.rung
    have hdraws : W.Draws r := by
      cases r with
      | submit id =>
        intro hid
        exact (List.nodup_append.mp h.nodup).2.2 id hid id (List.mem_cons_self ..) rfl
      | _ => trivial
    obtain ⟨hs', hp'⟩ := hs.deliver (.call caller r) hover ht.sound ht.outbox hm.gone h.nodup
      h.drawn
    exact ⟨_, hW.step (.call m w.nanos caller r hm hdraws), hs', hm.attached, hp'⟩
  | report v e =>
    obtain ⟨b, es, hb, ho, hs⟩ := h.take_report
    obtain ⟨hs', hp'⟩ := hs.deliver (m := m) (.report v e) hover ht.sound ht.outbox
      (hm.gone_pop hb es) h.nodup h.drawn
    exact ⟨_, hW.step (.report m w.nanos v b e es hm hb ho), hs', hm.attached, hp'⟩
  | ring a =>
    have hr : (a :: alarmsOf (rest ++ w.picture.inbox)).Perm W.rung := h.rung
    have hs := h.take W.bench (W.rung.erase a) ⟨h.carries.numbered, h.carries.seated,
      h.carries.empty, h.carries.timers⟩ (List.cons_perm_iff_perm_erase.mp hr).2
    obtain ⟨hs', hp'⟩ := hs.deliver (m := m) (.ring a) hover ht.sound ht.outbox hm.gone h.nodup
      h.drawn
    exact ⟨_, hW.step (.alarm m w.nanos a hm (List.cons_perm_iff_perm_erase.mp hr).1), hs',
      hm.attached, hp'⟩

/-- what a world knows of the workers that are gone holds for the workshop as well -/
theorem Shows.admits {w : World} (h : W.Shows w.picture rest drawn) : W.Admits w.moment := by
  refine ⟨fun hh => ?_, fun v hv => ?_⟩
  · have hheld : w.held = true := h.held hh
    show w.attached = true
    simp [World.attached, hheld]
  · obtain ⟨s, hs, rfl⟩ := List.mem_map.mp hv
    obtain ⟨hs, hr⟩ := List.mem_filter.mp hs
    obtain ⟨b, hb, ht⟩ := h.carries.seated s.bare (List.mem_map_of_mem hs)
    have hgone : s.worker.isReachable = false := by simpa using hr
    exact ⟨b, hb, ht.unreachable hgone⟩

end Workshop

end TaskPool
