import TaskPool.Proofs.Observation
import TaskPool.Proofs.Profile
import TaskPool.Proofs.Responses
import TaskPool.Proofs.RoundTrip
import TaskPool.Proofs.Turnstile

/-!
# What a worker prefers is a set

Which kinds of task a worker is to prefer is asked for as a list, which is sorted and rid of its
repetitions for the response.  What is stored is the set of its members, which is sorted again
whenever somebody looks at it.  The two come to the same, whatever happened in between.

* `Kind.mem_distinct`, `Kind.increasing_distinct`
                          the list of the response has the members of the list that was asked for,
                          in increasing order
* `Kind.sorted_eq`        to sort the members of a set gives it too, in whatever order they come
* `Queue.popFor_ofList`   which ticket a worker gets depends on the members alone
* `HttpRequest.route_of_kinds`
                          any list can be asked for
* `Message.Reassigns`     somebody sets or clears what the worker prefers
* `Path.affinity`         nothing else changes it
* `Pool.Prefers p q w ks` what is seen of it by those who set it in `p` and those who look at `q`
* `Reachable.keeps_preference`
                          and this is how it is for as long as it is not set or cleared again

Why the workers in between are no matter: a number is given once, so a worker that is there at the
end was there all the time.
-/

namespace TaskPool

/-! ## lists without repetitions -/

section

variable {α : Type} [DecidableEq α]

theorem eraseReps_loop (a : α) (as acc : List α) :
    List.eraseRepsBy.loop (· == ·) a as acc
      = acc.reverse ++ List.eraseRepsBy.loop (· == ·) a as [] := by
  induction as generalizing a acc with
  | nil => simp [List.eraseRepsBy.loop]
  | cons b bs ih =>
    rw [List.eraseRepsBy.loop, List.eraseRepsBy.loop]
    split
    · exact ih a acc
    · rw [ih b (a :: acc), ih b [a], List.reverse_cons, List.reverse_singleton, List.append_assoc]

theorem eraseReps_cons_cons (a b : α) (bs : List α) :
    (a :: b :: bs).eraseReps
      = if a = b then (b :: bs).eraseReps else a :: (b :: bs).eraseReps := by
  show List.eraseRepsBy.loop (· == ·) a (b :: bs) [] = _
  rw [List.eraseRepsBy.loop]
  by_cases h : a = b
  · rw [if_pos h, h, beq_self_eq_true]
    rfl
  · rw [if_neg h, beq_false_of_ne h]
    exact eraseReps_loop b bs [a]

theorem mem_eraseReps {x : α} {as : List α} : x ∈ as.eraseReps ↔ x ∈ as := by
  induction as with
  | nil => rfl
  | cons a as ih =>
    cases as with
    | nil => rfl
    | cons b bs =>
      rw [eraseReps_cons_cons]
      split
      · rename_i h
        rw [ih, h]
        simp
      · rw [List.mem_cons, ih, ← List.mem_cons]

end

namespace Kind

variable {ks xs ys : List Kind}

/-- in increasing order, and no kind twice -/
def Increasing (ks : List Kind) : Prop := ks.Pairwise fun j k => j.rank < k.rank

theorem Increasing.nodup (h : Increasing ks) : ks.Nodup := by
  apply h.imp
  intro j k hjk heq
  rw [heq] at hjk
  exact Nat.lt_irrefl _ hjk

/-- lists in order are equal when they have the same members, as often -/
theorem eq_of_perm (hx : xs.Pairwise fun j k => j.rank ≤ k.rank)
    (hy : ys.Pairwise fun j k => j.rank ≤ k.rank) (h : xs.Perm ys) : xs = ys := by
  apply h.eq_of_pairwise _ hx hy
  intro j k _ _ hjk hkj
  exact rank_injective (Nat.le_antisymm hjk hkj)

theorem sorted_pairwise (ks : List Kind) : (sorted ks).Pairwise fun j k => j.rank ≤ k.rank := by
  have htrans (i j k : Kind) (hij : decide (i.rank ≤ j.rank) = true)
      (hjk : decide (j.rank ≤ k.rank) = true) : decide (i.rank ≤ k.rank) = true := by
    simp only [decide_eq_true_eq] at hij hjk ⊢
    omega
  have htotal (j k : Kind) : (decide (j.rank ≤ k.rank) || decide (k.rank ≤ j.rank)) = true := by
    simp only [Bool.or_eq_true, decide_eq_true_eq]
    omega
  exact (List.pairwise_mergeSort htrans htotal ks).imp of_decide_eq_true

/-- equal kinds stand side by side in a list in order, and one of each is left -/
theorem increasing_eraseReps (h : ks.Pairwise fun j k => j.rank ≤ k.rank) :
    Increasing ks.eraseReps := by
  induction ks with
  | nil => exact .nil
  | cons j ks ih =>
    cases ks with
    | nil => exact List.pairwise_singleton _ j
    | cons k ks =>
      have htail := ih h.tail
      rw [eraseReps_cons_cons]
      split
      · exact htail
      · rename_i hjk
        apply List.pairwise_cons.mpr ⟨?_, htail⟩
        intro x hx
        have hle : j.rank ≤ k.rank := List.rel_of_pairwise_cons h (List.mem_cons_self ..)
        have hne : j.rank ≠ k.rank := fun he => hjk (rank_injective he)
        have hkx : k.rank ≤ x.rank := by
          rcases List.mem_cons.mp (mem_eraseReps.mp hx) with rfl | hx
          · exact Nat.le_refl _
          · exact List.rel_of_pairwise_cons h.tail hx
        omega

theorem increasing_distinct (ks : List Kind) : Increasing (distinct ks) :=
  increasing_eraseReps (sorted_pairwise ks)

theorem mem_distinct {k : Kind} : k ∈ distinct ks ↔ k ∈ ks := by
  unfold distinct
  rw [mem_eraseReps, (sorted_perm ks).mem_iff]

/-- a set is looked at in the order in which its members happen to come, and then sorted -/
theorem sorted_eq (hx : xs.Nodup) (h : ∀ k, k ∈ xs ↔ k ∈ ks) : sorted xs = distinct ks := by
  apply eq_of_perm (sorted_pairwise xs) ((increasing_distinct ks).imp Nat.le_of_lt)
  apply (sorted_perm xs).trans
  apply (List.perm_ext_iff_of_nodup hx (increasing_distinct ks).nodup).mpr
  intro k
  rw [h, mem_distinct]

/-- there is no other list of these members in increasing order -/
theorem Increasing.eq_distinct (hx : Increasing xs) (h : ∀ k, k ∈ xs ↔ k ∈ ks) :
    xs = distinct ks := by
  rw [← sorted_eq hx.nodup h]
  exact eq_of_perm (hx.imp Nat.le_of_lt) (sorted_pairwise xs) (sorted_perm xs).symm

end Kind

/-- **what is stored and looked at later is what the response says** -/
theorem KindSet.toList_ofList (ks : List Kind) : (ofList ks).toList = Kind.distinct ks := by
  have hnodup : (ofList ks).members.Nodup := List.Nodup.filter _ Kind.all_nodup
  exact Kind.sorted_eq hnodup fun k => mem_ofList

/-! ## who gets which ticket -/

namespace Queue

theorem prefers_ofList (ks : List Kind) :
    prefers (some (.ofList ks)) = fun t : Ticket => decide (t.kind ∈ ks) := by
  funext t
  exact KindSet.contains_ofList ks t.kind

/-- the first ticket of one of the kinds, or else what a worker gets that prefers nothing -/
theorem popFor_ofList (q : Queue) (ks : List Kind) :
    q.popFor (some (.ofList ks))
      = match q.waiting.find? fun t => decide (t.kind ∈ ks) with
        | some t => some (t, ⟨q.waiting.eraseP fun t => decide (t.kind ∈ ks)⟩)
        | none => q.popFor none := by
  have hnobody : takeFirst (prefers none) q.waiting = none := by
    have hnone : q.waiting.find? (prefers none) = none :=
      List.find?_eq_none.mpr fun _ _ => Bool.false_ne_true
    rw [takeFirst_eq, hnone]
    rfl
  unfold popFor
  rw [hnobody, takeFirst_eq, prefers_ofList]
  cases q.waiting.find? fun t => decide (t.kind ∈ ks) <;> rfl

end Queue

/-! ## who asks for which list -/

/-- whoever sends the names of some kinds asks for that list, in any order and with repetitions -/
theorem HttpRequest.route_of_kinds {r : HttpRequest} {w : WorkerId} {ks : List Kind} {n : Nat}
    (ht : Resource.ofTarget? r.target = some (.affinity w)) (hm : r.method = .put)
    (hn : r.length? = some n) (hle : n ≤ Endpoint.affinityLimit) (hj : r.isJson = true)
    (hb : r.body = (kindsJson ks).text) : r.route = .ok (.setAffinity w ks) := by
  have hks := Wire.carried_kinds (d := 126) ks
  have hbody : Endpoint.kindsOfBody r = .ok ks := by
    have htext : (Shape.list .kind).ofText r.body = .ok (kindsJson ks) := by
      rw [hb]
      exact Shape.ofText_of_reads hks.reads
    unfold Endpoint.kindsOfBody HttpRequest.readBody
    simp only [hn, if_neg (Nat.not_lt.mpr hle), hj, htext]
    rw [hks.back]
    rfl
  apply HttpRequest.route_of_ok ht
  · rw [hm]
    exact .tail _ (.head _)
  · rw [hm]
    show (Endpoint.kindsOfBody r).map _ = _
    rw [hbody]
    rfl

/-! ## what changes it -/

/-- somebody sets or clears what the worker prefers -/
def Message.Reassigns (w : WorkerId) : Message → Prop
  | .call _ (.setAffinity v _) | .call _ (.clearAffinity v) => v = w
  | _ => False

namespace Pool

variable {m : Moment} {p : Pool} {msg : Message} {w : WorkerId} {e : Entry}

/-- an entry that comes of an update prefers what it did, if the update is of another kind -/
theorem updateEntry_affinity {v : WorkerId} {f : Entry → Entry}
    (he : (p.updateEntry v f).roster.find? w = some e) (hf : ∀ e, (f e).worker = e.worker)
    (ha : v = w → ∀ e, (f e).affinity = e.affinity) :
    ∃ e', p.roster.find? w = some e' ∧ e.affinity = e'.affinity := by
  rcases Roster.find?_modify_some he hf with ⟨hv, e', he', rfl⟩ | ⟨_, he'⟩
  · exact ⟨e', he', ha hv.symm e'⟩
  · exact ⟨e, he', rfl⟩

theorem jot_affinity (hmsg : ¬ msg.Reassigns w) (he : (p.jot msg).roster.find? w = some e) :
    ∃ e', p.roster.find? w = some e' ∧ e.affinity = e'.affinity := by
  unfold jot at he
  split at he
  · exact updateEntry_affinity he (fun _ => rfl) fun _ _ => rfl
  · exact updateEntry_affinity he (fun _ => rfl) fun _ _ => rfl
  · exact updateEntry_affinity he (fun _ => rfl) fun _ _ => rfl
  · exact updateEntry_affinity he (fun _ => rfl) fun hv => absurd hv hmsg
  · exact updateEntry_affinity he (fun _ => rfl) fun hv => absurd hv hmsg
  · exact ⟨e, he, rfl⟩

/-- a worker that was there before prefers what it did -/
theorem handle_affinity (hs : p.roster.Sound) (hmsg : ¬ msg.Reassigns w)
    (hw : w < p.roster.nextId) (he : (p.handle m msg).roster.find? w = some e) :
    ∃ e', p.roster.find? w = some e' ∧ e.affinity = e'.affinity := by
  have hup := handle_upholds (m := m) hs msg
  rcases hup.profiles w e.profile (Roster.profile_of_find? he) with hold | ⟨hle, _⟩
  · obtain ⟨e1, h1, hsame⟩ := Roster.profile_eq_some hold
    obtain ⟨e', he', ha⟩ := jot_affinity hmsg h1
    have hprofile : e1.affinity = e.affinity := congrArg Profile.affinity hsame
    exact ⟨e', he', hprofile.symm.trans ha⟩
  · rw [jot_nextId] at hle
    exact absurd hw (Nat.not_lt.mpr hle)

end Pool

namespace Workday

variable {c : Config} {D E : Workday} {w : WorkerId}

/-- a step leaves a worker what it prefers, if it leaves the worker -/
theorem Step.affinity {o : Option Message} (hs : D.Step o E) (hD : Reachable c D)
    (ho : ∀ msg ∈ o.toList, ¬ msg.Reassigns w) (hw : w < D.shop.pool.roster.nextId) :
    w < E.shop.pool.roster.nextId ∧ ∀ e, E.shop.pool.roster.find? w = some e →
      ∃ e', D.shop.pool.roster.find? w = some e' ∧ e.affinity = e'.affinity := by
  cases o with
  | none =>
    have hpool : E.shop.pool = D.shop.pool := by cases hs <;> rfl
    rw [hpool]
    exact ⟨hw, fun e he => ⟨e, he, rfl⟩⟩
  | some msg =>
    have hsound := hD.shop.inStep.tuned.sound
    obtain ⟨m, hpool, _, _⟩ := hs.heard
    rw [hpool]
    have hnext := (Pool.handle_upholds (m := m) hsound msg).next
    rw [Pool.jot_nextId] at hnext
    refine ⟨Nat.lt_of_lt_of_le hw hnext, ?_⟩
    intro e he
    exact Pool.handle_affinity hsound (ho msg (List.mem_singleton_self msg)) hw he

theorem Path.affinity {ms : List Message} (hp : D.Path ms E) (hD : Reachable c D)
    (hms : ∀ msg ∈ ms, ¬ msg.Reassigns w) (hw : w < D.shop.pool.roster.nextId) :
    w < E.shop.pool.roster.nextId ∧ ∀ e, E.shop.pool.roster.find? w = some e →
      ∃ e', D.shop.pool.roster.find? w = some e' ∧ e.affinity = e'.affinity := by
  induction hp with
  | refl => exact ⟨hw, fun e he => ⟨e, he, rfl⟩⟩
  | @step E F ms o hp hs ih =>
    obtain ⟨hnext, hback⟩ := ih fun msg hm => hms msg (List.mem_append_left _ hm)
    obtain ⟨hnext', hone⟩ :=
      hs.affinity (hD.path hp) (fun msg hm => hms msg (List.mem_append_right _ hm)) hnext
    refine ⟨hnext', ?_⟩
    intro e he
    obtain ⟨e1, h1, ha⟩ := hone e he
    obtain ⟨e', he', ha'⟩ := hback e1 h1
    exact ⟨e', he', ha.trans ha'⟩

end Workday

/-! ## what is seen of it -/

/-- the response that tells what a worker is to prefer -/
def Endpoint.preferred (w : WorkerId) (ks : List Kind) : HttpResponse :=
  .json 200 (AffinityResponse.mk w (some ks)).json

/-- every request that a route takes for `e` has the response `y`, and no other -/
def Pool.Tells (p : Pool) (e : Endpoint) (y : HttpResponse) : Prop :=
  ∀ (m : Moment) (caller : CallId) (fresh : TaskId) (r : HttpRequest) (x : HttpResponse),
    r.route = .ok e → (r.Gets m p caller fresh x ↔ x = y)

/-- in `p` a worker is to prefer the kinds of a list from now on, and `q` is the pool later -/
structure Pool.Prefers (p q : Pool) (w : WorkerId) (ks : List Kind) : Prop where
  /-- what is shown is the set that was given -/
  increasing : Kind.Increasing (Kind.distinct ks)
  mem_iff : ∀ k, k ∈ Kind.distinct ks ↔ k ∈ ks
  /-- those who ask for it are told so -/
  granted : p.Tells (.setAffinity w ks) (Endpoint.preferred w (Kind.distinct ks))
  /-- those who look at it later are told the same -/
  shown : q.Tells (.getAffinity w) (Endpoint.preferred w (Kind.distinct ks))
  /-- and so are those who look at all workers -/
  listed : q.Tells .listWorkers (.json 200 (.array (q.roster.snapshots.map WorkerSnapshot.json)))
  snapshots : ∀ s ∈ q.roster.snapshots, s.id = w → s.affinity = some (Kind.distinct ks)
  present : ∃ s ∈ q.roster.snapshots, s.id = w
  /-- in whatever order the set is gone through -/
  unordered : ∀ xs : List Kind, xs.Nodup → (∀ k, k ∈ xs ↔ k ∈ ks) →
    Kind.sorted xs = Kind.distinct ks
  /-- the worker gets its tickets by the set -/
  stored : ∀ e, q.roster.find? w = some e → e.affinity = some (.ofList ks)
  first : ∀ queue : Queue, (queue.popFor (some (.ofList ks))).map Prod.fst
    = (queue.waiting.find? fun t => decide (t.kind ∈ ks)).or queue.waiting.head?
  /-- by its members alone -/
  choice : ∀ js, (∀ k, k ∈ js ↔ k ∈ ks) → ∀ queue : Queue,
    queue.popFor (some (.ofList js)) = queue.popFor (some (.ofList ks))
  /-- and an empty one is no preference -/
  nothing : ∀ queue : Queue, queue.popFor (some (.ofList [])) = queue.popFor none

namespace Pool

variable {p q : Pool} {w : WorkerId} {ks : List Kind} {e e' : Entry}

/-- what is stored decides what is seen -/
theorem Prefers.of_stored (hp : p.outbox = []) (hq : q.outbox = []) (hs : q.roster.Sound)
    (he : p.roster.find? w = some e) (he' : q.roster.find? w = some e')
    (ha : e'.affinity = some (.ofList ks)) : p.Prefers q w ks where
  increasing := Kind.increasing_distinct ks
  mem_iff := fun _ => Kind.mem_distinct
  granted := by
    intro m caller fresh r x hr
    have ha : p.answer? m (.setAffinity w (.ofList ks)) = some (.found true) := by
      show some (Answer.found (p.roster.find? w).isSome) = _
      rw [he]
      rfl
    exact HttpRequest.gets_iff hp hr rfl ha rfl
  shown := by
    intro m caller fresh r x hr
    have ha' : q.answer? m (.getAffinity w) = some (.affinity (some (Kind.distinct ks))) := by
      show some (Answer.affinity (((q.roster.find? w).bind Entry.affinity).map KindSet.toList)) = _
      rw [he', Option.bind_some, ha, Option.map_some, KindSet.toList_ofList]
    exact HttpRequest.gets_iff hq hr rfl ha' rfl
  listed := by
    intro m caller fresh r x hr
    exact HttpRequest.gets_iff hq hr rfl rfl rfl
  snapshots := by
    intro s hs' hid
    obtain ⟨x, hx, rfl⟩ := List.mem_map.mp hs'
    have hfind := hs.find?_of_mem hx
    rw [show x.worker = w from hid, he'] at hfind
    cases hfind
    show e'.affinity.map KindSet.toList = _
    rw [ha, Option.map_some, KindSet.toList_ofList]
  present := ⟨e'.snapshot, List.mem_map_of_mem (Roster.mem_of_find? he'),
    Roster.worker_of_find? he'⟩
  unordered := fun _ hnodup hmem => Kind.sorted_eq hnodup hmem
  stored := by
    intro x hx
    rw [he'] at hx
    cases hx
    exact ha
  first := by
    intro queue
    rw [Queue.popFor_fst, Queue.prefers_ofList]
  choice := by
    intro js hjs queue
    rw [KindSet.ofList_congr hjs]
  nothing := by
    intro queue
    have hnone : queue.waiting.find? (fun t => decide (t.kind ∈ ([] : List Kind))) = none :=
      List.find?_eq_none.mpr (by simp)
    rw [Queue.popFor_ofList, hnone]

end Pool

namespace Workday

variable {c : Config} {D E F : Workday} {w : WorkerId} {ks : List Kind}

/-- **what a worker is to prefer is one set, however it is looked at**: for as long as the worker is
there and nobody sets or clears it again, everybody is shown the list that was shown to those who
set it, and the worker gets its tickets by the members of this list -/
theorem Reachable.keeps_preference (h : Reachable c D) {caller : CallId} {ms : List Message}
    (hw : w ∈ D.shop.pool.roster.ids)
    (hset : D.Step (some (.call caller (.setAffinity w (.ofList ks)))) E) (hp : E.Path ms F)
    (hms : ∀ msg ∈ ms, ¬ msg.Reassigns w) (hthere : w ∈ F.shop.pool.roster.ids) :
    D.shop.pool.Prefers F.shop.pool w ks := by
  have hE := h.step hset
  have hin := (hE.path hp).shop.inStep
  obtain ⟨e, hmem, rfl⟩ := List.mem_map.mp hw
  obtain ⟨e', hmem', hid⟩ := List.mem_map.mp hthere
  have he := h.shop.inStep.tuned.sound.find?_of_mem hmem
  have he' := hin.tuned.sound.find?_of_mem hmem'
  rw [hid] at he'
  obtain ⟨m, hpool, _, _⟩ := hset.heard
  have hroster : E.shop.pool.roster
      = D.shop.pool.roster.modify e.worker fun x => { x with affinity := some (.ofList ks) } := by
    rw [hpool]
    rfl
  have hlt : e.worker < E.shop.pool.roster.nextId := by
    rw [hroster]
    exact h.shop.inStep.tuned.sound.lt_of_find? he
  obtain ⟨e1, h1, ha⟩ := (hp.affinity hE hms hlt).2 e' he'
  have hstored : e1.affinity = some (.ofList ks) := by
    rw [hroster] at h1
    rcases Roster.find?_modify_some h1 fun _ => rfl with ⟨_, e0, _, rfl⟩ | ⟨hne, _⟩
    · rfl
    · exact absurd rfl hne
  exact .of_stored h.shop.inStep.tuned.outbox hin.tuned.outbox hin.tuned.sound he he'
    (ha.trans hstored)

open Workshop (calmMoment announced working oneChance)

/-- out of order, and one of them twice -/
def chosen : List Kind := [.cacheCleanup, .depositProcessing, .cacheCleanup]

def choosing : HttpRequest where
  method := .put
  target := "/workers/1/affinity"
  headers := [("content-length", "54")]
  body := "[\"cache-cleanup\",\"deposit-processing\",\"cache-cleanup\"]"

/-- a pool of one worker -/
def opened : Workday :=
  (new Chronicle.single).hear (new Chronicle.single).shop calmMoment (.call 0 .start)

def choosy : Workday :=
  opened.hear opened.shop calmMoment (.call 1 (.setAffinity 1 (.ofList chosen)))

/-- the worker is handed a task, asked for metrics and told to stop, and all the while both kinds
are shown, each once -/
theorem keeps_chosen : ∃ F ms, Reachable Chronicle.single opened ∧
    opened.Step (some (.call 1 (.setAffinity 1 (.ofList chosen)))) choosy ∧ choosy.Path ms F ∧
    told ⟨7⟩ F.shop.history = [1] ∧
    (F.shop.pool.roster.find? 1).map Entry.status = some .stopping ∧
    opened.shop.pool.Prefers F.shop.pool 1 chosen ∧ choosing.route = .ok (.setAffinity 1 chosen) ∧
    Kind.distinct chosen = [.depositProcessing, .cacheCleanup] := by
  have hopened : Reachable Chronicle.single opened := Reachable.new.step
    (.hear calmMoment (.call 0 .start) _ (trusts_calmMoment (new Chronicle.single))
      (.call 0 .start trivial) (by decide))
  have hset : opened.Step (some (.call 1 (.setAffinity 1 (.ofList chosen)))) choosy :=
    .hear calmMoment _ _ (trusts_calmMoment opened) (.call 1 _ trivial) (by decide)
  have hannounced := Path.refl.step (D := choosy) (.turn 1 (.new 1 0) announced rfl
    (.step 0 0 (announced.worker, [.ready]) rfl))
  have hstaffed := hannounced.step (.hear calmMoment (.report 1 .ready) _ (trusts_calmMoment _)
    (.report 1 announced .ready [] rfl rfl) (by decide))
  have hhanded := hstaffed.step
    (.hear calmMoment (.call 2 (.submit ⟨7⟩ .cacheCleanup .null oneChance)) _
      (trusts_calmMoment _) (.call 2 _ List.not_mem_nil) (by decide))
  have hbegun := hhanded.step
    (.turn 1 ((announced.pop []).tell (.task ⟨7⟩ .cacheCleanup .null)) working rfl
      (.step 0 0 (working.worker, [.busy ⟨7⟩]) rfl))
  have hbusy := hbegun.step (.hear calmMoment (.report 1 (.busy ⟨7⟩)) _ (trusts_calmMoment _)
    (.report 1 _ (.busy ⟨7⟩) _ rfl rfl) (by decide))
  have hasked := hbusy.step (.hear calmMoment (.call 3 (.requestMetrics (some 1))) _
    (trusts_calmMoment _) (.call 3 _ trivial) (by decide))
  have hanswered := hasked.step (.turn 1 _ _ rfl (.step 3 9 _ rfl))
  have hglimpsed := hanswered.step (.hear calmMoment (.report 1 (.metrics glimpse)) _
    (trusts_calmMoment _) (.report 1 _ (.metrics glimpse) _ rfl rfl) (by decide))
  have hstopped := hglimpsed.step (.hear calmMoment (.call 4 .stop) _ (trusts_calmMoment _)
    (.call 4 _ trivial) (by decide))
  have hkept := hopened.keeps_preference (by decide) hset hstopped
    (by simp [Message.Reassigns]) (by decide)
  have hroute : choosing.route = .ok (.setAffinity 1 chosen) :=
    HttpRequest.route_of_kinds rfl rfl (by decide +kernel : choosing.length? = some 54)
      (by decide) (by decide +kernel) rfl
  have hchosen : Kind.Increasing [.depositProcessing, .cacheCleanup] := by
    unfold Kind.Increasing
    decide
  have hmem (k : Kind) : k ∈ [.depositProcessing, .cacheCleanup] ↔ k ∈ chosen := by
    cases k <;> decide
  exact ⟨_, _, hopened, hset, hstopped, rfl, rfl, hkept, hroute, (hchosen.eq_distinct hmem).symm⟩

end Workday

end TaskPool
