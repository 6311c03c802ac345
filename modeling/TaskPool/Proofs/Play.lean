import TaskPool.Proofs.Agreement
import TaskPool.Proofs.Mirror
import TaskPool.Proofs.Stir

/-!
# Whatever is done with a world, its pool is a pool at work

`World` runs: its actors have their turns in one order, its clock goes from deadline to deadline.
Here every operation on a world is followed by steps of a workshop, so what holds of every reachable
workshop holds of the pool that runs.

* `World.Depicted`        some reachable workshop shows the world, unless its pool is gone
* `Depicted.runPool`, `stir`   what the pool does keeps it so, and what any other actor does
* `World.play`            a world after operations from outside
* `depicted_play`         every such world is depicted
* `vacant_of_idle`        so whoever the pool takes to be idle does wait at its seat
-/

namespace TaskPool

namespace World

/-- some workshop shows the world, unless its pool is gone -/
def Depicted (c : Config) (drawn : List TaskId) (w : World) : Prop :=
  w.pool = none ∨ ∃ W, Workshop.Reachable c W ∧ W.Shows w.picture [] drawn

variable {c : Config} {drawn : List TaskId} {w w' : World}

theorem Depicted.same (h : w.Depicted c drawn) (hw : w'.picture = w.picture) :
    w'.Depicted c drawn := by
  rcases h with h | ⟨W, hW, hs⟩
  · exact .inl ((congrArg Picture.pool hw).trans h)
  · exact .inr ⟨W, hW, hw ▸ hs⟩

/-- whatever the workshop does as well -/
theorem Depicted.follow {drawn' : List TaskId} (h : w.Depicted c drawn) (hp : w'.pool = w.pool)
    (hs : ∀ W, Workshop.Reachable c W → W.Shows w.picture [] drawn →
      ∃ W', Workshop.Reachable c W' ∧ W'.Shows w'.picture [] drawn') : w'.Depicted c drawn' := by
  rcases h with h | ⟨W, hW, hshow⟩
  · exact .inl (hp.trans h)
  · exact .inr (hs W hW hshow)

/-! ## the pool -/

theorem pool_losePool (w : World) (p : Pool) : (w.losePool p).pool = none := by
  have hdetach (es : List Entry) (w : World) :
      (es.foldl (fun w e => w.detach e.seat) w).pool = w.pool := by
    induction es generalizing w with
    | nil => rfl
    | cons e es ih =>
      rw [List.foldl_cons, ih]
      exact congrArg Picture.pool (picture_wake _ _)
  exact hdetach _ _

/-- the messages are handled one after the other, up to the first on which a counter overflows -/
theorem depicted_foldl_deliver {m : Moment} {ms : List Message} {W : Workshop}
    (hW : Workshop.Reachable c W) (h : W.Shows w.picture ms drawn) (hm : W.Admits m) :
    (ms.foldl (deliver m) w).Depicted c drawn := by
  induction ms generalizing w W with
  | nil => exact .inr ⟨W, hW, h⟩
  | cons msg ms ih =>
    cases hover : W.pool.overflows m msg with
    | false =>
      obtain ⟨W', hW', h', hm'⟩ := h.handle hW hm hover
      exact ih hW' h' hm'
    | true =>
      have hpool : w.pool = some W.pool := h.pool
      have hreceive : W.pool.receive m msg = .error .overflow :=
        Overflowing.checked_eq_error.mpr ⟨hover, rfl⟩
      have hlost : (deliver m w msg).pool = none := by
        unfold deliver
        simp only [hpool, hreceive]
        exact pool_losePool w W.pool
      refine .inl ?_
      rw [List.foldl_cons, foldl_deliver_of_none hlost, hlost]

theorem Depicted.runPool (h : w.Depicted c drawn) : w.runPool.Depicted c drawn := by
  rcases h with h | ⟨W, hW, hs⟩
  · have hgone : ({ w with inbox := [] } : World).pool = none := h
    have hrun : w.runPool = { w with inbox := [] } := foldl_deliver_of_none hgone _ _
    rw [hrun]
    exact .inl h
  · have hs' : W.Shows { w with inbox := [] }.picture w.inbox drawn :=
      hs.sort (List.append_nil w.inbox)
    exact depicted_foldl_deliver hW hs' hs.admits

/-! ## the other actors -/

theorem Depicted.turn {i : Nat} {s : Seat} (h : w.Depicted c drawn) (s' : Seat) (es : List Event)
    (hs : w.picture.seats[i]? = some s) (hid : s'.worker.id = s.worker.id)
    (hp : w'.pool = w.pool)
    (hw : w.listening = true → w'.picture
      = ({ w.picture with seats := w.picture.seats.modify i fun _ => s' } : Picture).receive
          (es.map (.report s.worker.id)))
    (ht : ∀ b out, (s.bench out).Twin b → ∃ b', b.Turn b' ∧ (s'.bench (out ++ es)).Twin b') :
    w'.Depicted c drawn := by
  refine h.follow hp fun W hW hshow => ?_
  have hmem : s ∈ w.picture.seats := List.mem_of_getElem? hs
  obtain ⟨b, hb, htw⟩ := hshow.carries.seated s hmem
  obtain ⟨b', hturn, htw'⟩ := ht b _ htw
  refine ⟨_, hW.step (.turn s.worker.id b b' hb hturn), ?_⟩
  have hshow' := hshow.turn hmem hid hb htw'
  rw [hw hshow.listening, hshow.carries.numbered.modify, ← hshow.carries.numbered i s hs]
  exact hshow'

/-- a timer goes off on both sides -/
theorem Depicted.ring {t : PoolTimer} (h : w.Depicted c drawn) (ht : t ∈ w.timers)
    (hp : w'.pool = w.pool) (hw : w.listening = true → w'.picture
      = (if t.repeats then w.picture else w.picture.disarm t.id).receive [.ring t.alarm]) :
    w'.Depicted c drawn := by
  refine h.follow hp fun W hW hs => ?_
  refine ⟨_, hW.step (.ring t.shown (hs.carries.timers _ (List.mem_map_of_mem ht))), ?_⟩
  rw [hw hs.listening]
  exact hs.ring t.shown

/-- a call finds its way to the pool; a submission comes with a new identifier -/
theorem Depicted.ask (h : w.Depicted c drawn) (caller : CallId) (r : Request)
    (hp : w'.pool = w.pool)
    (hw : w.listening = true → w'.picture = w.picture.receive [.call caller r])
    (hn : ∀ id ∈ submitted [.call caller r], id ∉ drawn) :
    w'.Depicted c (drawn ++ submitted [.call caller r]) := by
  refine h.follow hp fun W hW hs => ⟨W, hW, ?_⟩
  rw [hw hs.listening]
  exact hs.call caller r hn

/-- whatever any other actor does at once, the workshop does as well -/
theorem Depicted.stir (h : w.Depicted c drawn) (hs : Stir w w') : w'.Depicted c drawn := by
  cases hs with
  | same hw => exact h.same hw
  | turn i s s' es hs hturn hp _ hw =>
    refine h.turn s' es hs hturn.stays.id hp hw fun b out ht => ?_
    cases hturn with
    | step r hd hr =>
      have he : s.worker.hasEnded = false := by
        cases hp : s.worker.phase with
        | ended how =>
          rw [Worker.step_of_ended hp] at hr
          cases hr
        | _ =>
          unfold Worker.hasEnded
          rw [hp]
      obtain rfl := ht.eq_of_safe hd he
      exact ⟨_, .step w.nanos memory r hr, .same hd⟩
    | finish t how hd hp =>
      have he : s.worker.hasEnded = false := by
        unfold Worker.hasEnded
        rw [hp]
      obtain rfl := ht.eq_of_safe hd he
      exact ⟨_, .finish w.nanos how, .same hd⟩
    | abort hd he =>
      obtain ⟨hdoomed, htwin⟩ := ht.abort hd he
      refine ⟨_, .abort hdoomed, ?_⟩
      rw [List.append_nil]
      exact htwin
    | watch how hp hr =>
      have hp' : b.worker.phase = .ended how := ht.phase.symm.trans hp
      have hr' : b.reported = false := ht.reported.symm.trans hr
      exact ⟨_, .watch how hp' hr', ht.watch how.events⟩
  | ring t ht hp _ hw => exact h.ring ht hp hw
  | drop id hw =>
    refine h.follow (congrArg Picture.pool hw) fun W hW hs => ⟨W, hW, ?_⟩
    rw [hw]
    exact hs.drop id
  | ask caller hp _ hw =>
    have ha := h.ask caller .stats hp hw fun _ hid => (nomatch hid)
    rw [show submitted [.call caller .stats] = [] from rfl, List.append_nil] at ha
    exact ha

theorem Depicted.endPool (h : w.Depicted c drawn) : w.endPool.Depicted c drawn := by
  unfold World.endPool
  split
  · exact h
  · split
    · exact h
    · exact .inl rfl

theorem Depicted.setClock (h : w.Depicted c drawn) (clock : Nat) :
    ({ w with clock := clock } : World).Depicted c drawn :=
  h.follow rfl fun W hW hs => ⟨W, hW, hs.pool, hs.listening, hs.held, hs.next,
    ⟨hs.carries.numbered, hs.carries.seated, hs.carries.empty, hs.carries.timers⟩, hs.rung,
    hs.nodup, hs.drawn⟩

theorem enduring_depicted (c : Config) (drawn : List TaskId) : Enduring (Depicted c drawn) where
  stir _ _ h hs := h.stir hs
  runPool _ h := h.runPool
  endPool _ h := h.endPool
  clock _ clock h := h.setClock clock

/-! ## what comes from outside -/

/-- what can be done with a world from outside -/
inductive Op where
  | call (caller : CallId) (stays : Bool) (r : Request)
  | subscribe (caller : CallId)
  | release (gate : String)
  | advance (ms : Nat)
  | quiesce
  | tick
  | letGo
  /-- what was heard outside is taken out -/
  | listen

def operate (w : World) : Op → World
  | .call caller stays r => w.call caller stays r
  | .subscribe caller => w.subscribe caller
  | .release gate => w.release gate
  | .advance ms => w.advance ms
  | .quiesce => w.quiesce
  | .tick => w.tick
  | .letGo => w.letGo
  | .listen => { w with out := [] }

/-- the world of a pool after so many operations -/
def play (handlers : HandlerTable) (c : Config) (ops : List Op) : World :=
  ops.foldl operate (new handlers (some (.new c)))

/-- the identifiers that an operation uses for a submission -/
def Op.draws : Op → List TaskId
  | .call caller _ r => submitted [.call caller r]
  | _ => []

theorem Depicted.operate (h : w.Depicted c drawn) (o : Op) (hn : ∀ id ∈ o.draws, id ∉ drawn) :
    (w.operate o).Depicted c (drawn ++ o.draws) := by
  have undrawn {w' : World} (h : w'.Depicted c drawn) : w'.Depicted c (drawn ++ []) := by
    rw [List.append_nil]
    exact h
  cases o with
  | call caller stays r =>
    unfold World.operate World.call
    dsimp only
    split
    · have hnew : Depicted c drawn { w with callers := w.callers ++ [⟨caller, stays, none⟩] } :=
        h.same rfl
      exact hnew.ask caller r (kept_post _ _).1 (fun hl => picture_post _ hl _) hn
    · rename_i hp
      have hp' : w.pool = none := by simpa using hp
      exact .inl hp'
  | subscribe caller => exact undrawn (h.same (picture_wake _ _))
  | release gate => exact undrawn (h.same (picture_release w gate))
  | advance ms => exact undrawn ((enduring_depicted c drawn).advance h ms)
  | quiesce => exact undrawn ((enduring_depicted c drawn).quiesce h)
  | tick | listen => exact undrawn (h.same rfl)
  | letGo =>
    exact undrawn (h.follow rfl fun W hW hs => ⟨_, hW.step .letGo, hs.letGo⟩)

/-- **whatever is done with a world, its pool is a pool at work**: some run of a workshop shows what
is in the picture of the world, as long as no two submissions use one identifier -/
theorem depicted_play (handlers : HandlerTable) (c : Config) (ops : List Op)
    (hd : (ops.flatMap Op.draws).Nodup) :
    (play handlers c ops).Depicted c (ops.flatMap Op.draws) := by
  have onward (ops : List Op) (w : World) (drawn : List TaskId) (h : w.Depicted c drawn)
      (hd : (drawn ++ ops.flatMap Op.draws).Nodup) :
      (ops.foldl World.operate w).Depicted c (drawn ++ ops.flatMap Op.draws) := by
    induction ops generalizing w drawn with
    | nil =>
      rw [List.flatMap_nil, List.append_nil]
      exact h
    | cons o ops ih =>
      rw [List.flatMap_cons, ← List.append_assoc] at hd ⊢
      refine ih _ _ (h.operate o fun id hid hmem => ?_) hd
      exact (List.nodup_append.mp (List.nodup_append.mp hd).1).2.2 id hmem id hid rfl
  have hnew : (new handlers (some (.new c))).Depicted c [] :=
    .inr ⟨.new c, .new, Workshop.shows_new c handlers⟩
  exact onward ops _ [] hnew hd

/-- in a world, whoever the pool takes to be idle waits at its seat, and nothing is on its way there
or back but what is about metrics -/
theorem vacant_of_idle {handlers : HandlerTable} {ops : List Op} {p : Pool} {v : WorkerId}
    {e : Entry} (hd : (ops.flatMap Op.draws).Nodup) (hp : (play handlers c ops).pool = some p)
    (he : p.roster.find? v = some e) (hs : e.status = .idle) :
    ∃ s ∈ (play handlers c ops).seats, s.worker.id = v ∧
      (s.bench (reportsOf v (play handlers c ops).inbox)).Vacant := by
  rcases depicted_play handlers c ops hd with h | ⟨W, hW, h⟩
  · rw [hp] at h
    cases h
  · have hpool : some p = some W.pool := hp.symm.trans h.pool
    rw [Option.some.inj hpool] at he
    obtain ⟨b, hb, hfit⟩ := hW.inStep.bench_of_find? he
    rw [hs] at hfit
    have hv : b.Vacant := hfit.vacant
    have hseat : ∃ s ∈ (play handlers c ops).picture.seats, s.worker.id = v := by
      by_contra hno
      have hnone := (h.carries.empty v fun s hmem hid => hno ⟨s, hmem, hid⟩).1
      rw [hb] at hnone
      cases hnone
    obtain ⟨s, hmem, rfl⟩ := hseat
    obtain ⟨s0, h0, rfl⟩ := List.mem_map.mp hmem
    obtain ⟨b', hb', ht⟩ := h.carries.seated _ hmem
    rw [hb] at hb'
    cases hb'
    refine ⟨s0, Array.mem_toList_iff.mp h0, rfl, ?_⟩
    cases ht with
    | same => exact hv
    | lost _ _ _ _ hu =>
      rw [hv.reachable] at hu
      cases hu

end World

end TaskPool
