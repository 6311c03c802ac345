import TaskPool.Ledger
import TaskPool.Roster

/-!
# Looking up by a key

The ledger and the roster are lists that are read by a key: the task's identifier, the worker's
number.  This file says what a look-up finds after each change.

* `find?_map_key`, `find?_filter_key`   a change at one key, a removal of one key
* `Ledger.find?_modify`, `Ledger.find?_erase`, `Ledger.find?_insert`
* `Roster.find?_modify`, `Roster.find?_erase`, `Roster.find?_insert`
* `Ledger.ids`                          the tasks in flight by their identifiers
* `Ledger.complete_eq_some` and its like   when an operation applies, and what it answers then
* `Roster.Sound`                        every number occurs once, and none is yet to be given
* `Roster.Sound.split`                  the entry of a worker, with the others around it
-/

namespace TaskPool

section
variable {α κ : Type} [DecidableEq κ] (key : α → κ)

theorem find?_map_key (xs : List α) (f : α → α) (hf : ∀ x, key (f x) = key x) (a b : κ) :
    (xs.map fun x => if key x = a then f x else x).find? (fun x => key x == b)
      = if b = a then (xs.find? fun x => key x == b).map f else xs.find? fun x => key x == b := by
  induction xs with
  | nil => simp
  | cons x xs ih =>
    rw [List.map_cons, List.find?_cons, List.find?_cons, ih]
    have hk : key (if key x = a then f x else x) = key x := by
      split
      · exact hf x
      · rfl
    rw [hk]
    by_cases hb : key x = b
    · by_cases ha : b = a <;> simp [hb, ha]
    · have hb' : (key x == b) = false := by simp [hb]
      rw [hb']

theorem find?_map_key_of_some {xs : List α} {f : α → α} (hf : ∀ x, key (f x) = key x) {a : κ}
    {x : α} (hx : (xs.find? fun y => key y == a) = some x) (b : κ) :
    (xs.map fun y => if key y = a then f y else y).find? (fun y => key y == b)
      = if b = a then some (f x) else xs.find? fun y => key y == b := by
  rw [find?_map_key key xs f hf]
  split
  · rename_i hb
    rw [hb, hx]
    rfl
  · rfl

theorem find?_filter_key (xs : List α) (a b : κ) :
    (xs.filter fun x => key x != a).find? (fun x => key x == b)
      = if b = a then none else xs.find? fun x => key x == b := by
  induction xs with
  | nil => simp
  | cons x xs ih =>
    by_cases ha : key x = a
    · rw [List.filter_cons_of_neg (by simp [ha]), ih]
      by_cases hb : b = a
      · rw [if_pos hb, if_pos hb]
      · have hx : (key x == b) = false := by
          simp only [beq_eq_false_iff_ne]
          exact fun h => hb (h ▸ ha)
        rw [if_neg hb, if_neg hb, List.find?_cons, hx]
    · rw [List.filter_cons_of_pos (by simp [ha]), List.find?_cons, List.find?_cons, ih]
      by_cases hx : key x = b
      · have hb : b ≠ a := fun h => ha (hx.trans h)
        simp [hx, hb]
      · have hx' : (key x == b) = false := by simp [hx]
        rw [hx']

theorem map_key_map (xs : List α) (f : α → α) (hf : ∀ x, key (f x) = key x) (a : κ) :
    (xs.map fun x => if key x = a then f x else x).map key = xs.map key := by
  rw [List.map_map]
  apply List.map_congr_left
  intro x _
  show key (if key x = a then f x else x) = key x
  split
  · exact hf x
  · rfl

theorem map_key_filter (xs : List α) (a : κ) :
    (xs.filter fun x => key x != a).map key = (xs.map key).filter (· != a) := by
  rw [List.filter_map]
  rfl

theorem find?_key_eq_none {xs : List α} {b : κ} :
    (xs.find? fun x => key x == b) = none ↔ b ∉ xs.map key := by
  simp [List.find?_eq_none]

theorem find?_key_of_mem {xs : List α} (hd : (xs.map key).Nodup) {x : α} (hx : x ∈ xs) :
    (xs.find? fun y => key y == key x) = some x := by
  induction xs with
  | nil => cases hx
  | cons y ys ih =>
    rw [List.map_cons, List.nodup_cons] at hd
    rw [List.find?_cons]
    rcases List.mem_cons.mp hx with rfl | hx
    · simp
    · have hy : key y ≠ key x := fun h => hd.1 (h ▸ List.mem_map_of_mem hx)
      have hy' : (key y == key x) = false := by simp [hy]
      rw [hy']
      exact ih hd.2 hx

end

/-! ## the ledger -/

namespace Ledger

def ids (l : Ledger) : List TaskId := l.tasks.map Task.id

theorem id_of_find? {l : Ledger} {id : TaskId} {t : Task} (h : l.find? id = some t) :
    t.id = id := by
  have := List.find?_some h
  simpa using this

theorem mem_of_find? {l : Ledger} {id : TaskId} {t : Task} (h : l.find? id = some t) :
    t ∈ l.tasks := List.mem_of_find?_eq_some h

theorem mem_ids {l : Ledger} {id : TaskId} {t : Task} (h : l.find? id = some t) : id ∈ l.ids := by
  rw [← id_of_find? h]
  exact List.mem_map_of_mem (mem_of_find? h)

theorem find?_of_mem {l : Ledger} (hd : l.ids.Nodup) {t : Task} (ht : t ∈ l.tasks) :
    l.find? t.id = some t := find?_key_of_mem Task.id hd ht

theorem find?_eq_none {l : Ledger} {id : TaskId} : l.find? id = none ↔ id ∉ l.ids :=
  find?_key_eq_none Task.id

theorem contains_iff {l : Ledger} {id : TaskId} : l.contains id = true ↔ id ∈ l.ids := by
  simp [contains, ids]

theorem find?_modify (l : Ledger) (f : Task → Task) (hf : ∀ t, (f t).id = t.id) (a b : TaskId) :
    (l.modify a f).find? b = if b = a then (l.find? b).map f else l.find? b :=
  find?_map_key Task.id l.tasks f hf a b

theorem find?_modify_of_some {l : Ledger} {f : Task → Task} (hf : ∀ t, (f t).id = t.id) {a : TaskId}
    {t : Task} (ht : l.find? a = some t) (b : TaskId) :
    (l.modify a f).find? b = if b = a then some (f t) else l.find? b :=
  find?_map_key_of_some Task.id hf ht b

theorem modify_modify (l : Ledger) (f g : Task → Task) (hf : ∀ t, (f t).id = t.id) (a : TaskId) :
    (l.modify a f).modify a g = l.modify a fun t => g (f t) := by
  unfold modify
  rw [List.map_map]
  congr 1
  apply List.map_congr_left
  intro t _
  show (if (if t.id = a then f t else t).id = a then g (if t.id = a then f t else t)
    else if t.id = a then f t else t) = if t.id = a then g (f t) else t
  by_cases ht : t.id = a
  · rw [if_pos ht, if_pos ((hf t).trans ht), if_pos ht]
  · rw [if_neg ht, if_neg ht, if_neg ht]

theorem find?_erase (l : Ledger) (a b : TaskId) :
    (l.erase a).find? b = if b = a then none else l.find? b :=
  find?_filter_key Task.id l.tasks a b

theorem find?_insert (l : Ledger) {t : Task} (ht : l.find? t.id = none) (b : TaskId) :
    (l.insert t).find? b = if b = t.id then some t else l.find? b := by
  show (l.tasks ++ [t]).find? (fun x => x.id == b) = _
  rw [List.find?_append]
  by_cases hb : b = t.id
  · subst hb
    rw [if_pos rfl]
    show (l.find? t.id).or _ = _
    rw [ht]
    simp
  · have hb' : (t.id == b) = false := by simp [Ne.symm hb]
    rw [if_neg hb, List.find?_cons, hb', List.find?_nil, Option.or_none]
    rfl

theorem ids_modify (l : Ledger) (f : Task → Task) (hf : ∀ t, (f t).id = t.id) (a : TaskId) :
    (l.modify a f).ids = l.ids := map_key_map Task.id l.tasks f hf a

theorem ids_erase (l : Ledger) (a : TaskId) : (l.erase a).ids = l.ids.filter (· != a) :=
  map_key_filter Task.id l.tasks a

theorem ids_insert (l : Ledger) (t : Task) : (l.insert t).ids = l.ids ++ [t.id] := by
  simp [ids, insert]

theorem complete_eq_some {l ledger : Ledger} {id : TaskId} {v : Json} {cs : List Consequence}
    (h : l.complete id v = some (ledger, cs)) :
    ∃ t, l.find? id = some t ∧ t.status ≠ .retrying ∧ ledger = l.erase id ∧
      cs = t.resolve (.ok v) := by
  unfold complete at h
  split at h
  · cases h
  · rename_i t ht
    split at h
    · cases h
    · rename_i hs
      cases h
      exact ⟨t, ht, hs, rfl, rfl⟩

theorem timeOut_eq_some {l ledger : Ledger} {id : TaskId} {attempt : UInt32}
    {worker : Option WorkerId} {cs : List Consequence}
    (h : l.timeOut id attempt = some (worker, ledger, cs)) :
    ∃ t, l.find? id = some t ∧ t.status = .running ∧ t.attempt = attempt ∧ worker = t.worker ∧
      ledger = l.erase id ∧ cs = [.deliver t.id (.error (.timeout t.terms.timeout))] := by
  unfold timeOut at h
  split at h
  · cases h
  · rename_i t ht
    split at h
    · rename_i hs
      cases h
      exact ⟨t, ht, hs.1, hs.2, rfl, rfl, rfl⟩
    · cases h

/-- a task that waits for its first attempt again -/
def reset (t : Task) : Task :=
  { t with
    status := .queued
    started := none
    completed := none
    worker := none
    result := none
    error := none
    timer := none }

theorem resetForRetry_eq_some {l ledger : Ledger} {id : TaskId} {ticket : Ticket}
    (h : l.resetForRetry id = some (ticket, ledger)) :
    ∃ t, l.find? id = some t ∧ t.status = .retrying ∧ ticket = t.ticket ∧
      ledger = l.modify id reset := by
  unfold resetForRetry at h
  split at h
  · cases h
  · rename_i t ht
    split at h
    · rename_i hs
      cases h
      exact ⟨t, ht, hs, rfl, rfl⟩
    · cases h

theorem resetForRetry_eq_none {l : Ledger} {id : TaskId} (h : l.resetForRetry id = none) :
    ∀ t, l.find? id = some t → t.status ≠ .retrying := by
  intro t ht hs
  unfold resetForRetry at h
  rw [ht] at h
  simp [hs] at h

end Ledger

/-! ## the roster -/

namespace Roster

theorem worker_of_find? {r : Roster} {w : WorkerId} {e : Entry} (h : r.find? w = some e) :
    e.worker = w := by
  have := List.find?_some h
  simpa using this

theorem mem_of_find? {r : Roster} {w : WorkerId} {e : Entry} (h : r.find? w = some e) :
    e ∈ r.entries := List.mem_of_find?_eq_some h

theorem mem_ids {r : Roster} {w : WorkerId} {e : Entry} (h : r.find? w = some e) : w ∈ r.ids := by
  rw [← worker_of_find? h]
  exact List.mem_map_of_mem (mem_of_find? h)

theorem find?_eq_none {r : Roster} {w : WorkerId} : r.find? w = none ↔ w ∉ r.ids :=
  find?_key_eq_none Entry.worker

theorem find?_modify (r : Roster) (f : Entry → Entry) (hf : ∀ e, (f e).worker = e.worker)
    (a b : WorkerId) :
    (r.modify a f).find? b = if b = a then (r.find? b).map f else r.find? b :=
  find?_map_key Entry.worker r.entries f hf a b

theorem find?_modify_of_some {r : Roster} {f : Entry → Entry} (hf : ∀ e, (f e).worker = e.worker)
    {a : WorkerId} {e : Entry} (he : r.find? a = some e) (b : WorkerId) :
    (r.modify a f).find? b = if b = a then some (f e) else r.find? b :=
  find?_map_key_of_some Entry.worker hf he b

theorem find?_modify_some {r : Roster} {f : Entry → Entry} {a b : WorkerId} {e : Entry}
    (h : (r.modify a f).find? b = some e) (hf : ∀ e, (f e).worker = e.worker) :
    (b = a ∧ ∃ x, r.find? b = some x ∧ e = f x) ∨ (b ≠ a ∧ r.find? b = some e) := by
  rw [find?_modify r f hf] at h
  by_cases hb : b = a
  · rw [if_pos hb] at h
    obtain ⟨x, hx, rfl⟩ := Option.map_eq_some_iff.mp h
    exact .inl ⟨hb, x, hx, rfl⟩
  · rw [if_neg hb] at h
    exact .inr ⟨hb, h⟩

theorem find?_erase (r : Roster) (a b : WorkerId) :
    (r.erase a).find? b = if b = a then none else r.find? b :=
  find?_filter_key Entry.worker r.entries a b

/-- wherever the entry gets its place, no other entry of its worker stands before it -/
theorem find?_insert (r : Roster) (e : Entry) (w : WorkerId) :
    (r.insert e).find? w = if w = e.worker then some e else r.find? w := by
  have hskip {x : Entry} (hx : x.worker ≠ w) (xs : List Entry) :
      (x :: xs).find? (fun y => y.worker == w) = xs.find? fun y => y.worker == w :=
    List.find?_cons_of_neg (by simp [hx])
  show (place e r.entries).find? (fun x => x.worker == w)
    = if w = e.worker then some e else r.entries.find? fun x => x.worker == w
  induction r.entries with
  | nil =>
    by_cases hw : w = e.worker
    · simp [place, hw]
    · simp [place, hw, Ne.symm hw]
  | cons x xs ih =>
    rw [place]
    by_cases hw : w = e.worker
    · subst hw
      rw [if_pos rfl] at ih ⊢
      split
      · simp
      · split
        · simp
        · rename_i hne
          rw [hskip (Ne.symm hne), ih]
    · have hother : e.worker ≠ w := Ne.symm hw
      rw [if_neg hw] at ih ⊢
      split
      · exact hskip hother _
      · split
        · rename_i heq
          rw [hskip hother, hskip (heq ▸ hother)]
        · rw [List.find?_cons, List.find?_cons, ih]

theorem ids_modify (r : Roster) (f : Entry → Entry) (hf : ∀ e, (f e).worker = e.worker)
    (a : WorkerId) : (r.modify a f).ids = r.ids := map_key_map Entry.worker r.entries f hf a

theorem ids_erase (r : Roster) (a : WorkerId) : (r.erase a).ids = r.ids.filter (· != a) :=
  map_key_filter Entry.worker r.entries a

theorem map_eq_self {f : Entry → Entry} {es : List Entry} (h : ∀ e ∈ es, f e = e) :
    es.map f = es := (List.map_congr_left h).trans (List.map_id es)

theorem modify_of_absent {r : Roster} {a : WorkerId} (ha : r.find? a = none)
    (f : Entry → Entry) : r.modify a f = r := by
  have hout := find?_eq_none.mp ha
  have hkeep : r.entries.map (fun e => if e.worker = a then f e else e) = r.entries := by
    apply map_eq_self
    intro e he
    apply if_neg
    intro hea
    exact hout (hea ▸ List.mem_map_of_mem he)
  show (⟨r.nextId, _⟩ : Roster) = r
  rw [hkeep]

theorem modify_modify (r : Roster) (a : WorkerId) (f g : Entry → Entry)
    (hf : ∀ e, (f e).worker = e.worker) :
    (r.modify a f).modify a g = r.modify a fun e => g (f e) := by
  unfold modify
  rw [List.map_map]
  congr 1
  apply List.map_congr_left
  intro e _
  by_cases he : e.worker = a
  · simp [Function.comp, he, hf]
  · simp [Function.comp, he]

/-- above every number in use, the place of an entry is the end -/
theorem place_eq_append {e : Entry} {xs : List Entry} (h : ∀ x ∈ xs, x.worker < e.worker) :
    place e xs = xs ++ [e] := by
  induction xs with
  | nil => rfl
  | cons x xs ih =>
    have hx := h x (List.mem_cons_self ..)
    rw [place, if_neg (Nat.lt_asymm hx), if_neg (Nat.ne_of_gt hx),
      ih (fun y hy => h y (List.mem_cons_of_mem _ hy)), List.cons_append]

/-- every number occurs once, and none of them is yet to be given -/
structure Sound (r : Roster) : Prop where
  nodup : r.ids.Nodup
  lt_nextId : ∀ e ∈ r.entries, e.worker < r.nextId

theorem Sound.empty : Sound empty := ⟨List.nodup_nil, by simp [Roster.empty]⟩

theorem Sound.find?_of_mem {r : Roster} (h : r.Sound) {e : Entry} (he : e ∈ r.entries) :
    r.find? e.worker = some e := find?_key_of_mem Entry.worker h.nodup he

theorem Sound.find?_of_le {r : Roster} (h : r.Sound) {w : WorkerId} (hw : r.nextId ≤ w) :
    r.find? w = none := by
  rw [Roster.find?_eq_none]
  intro hm
  obtain ⟨e, he, rfl⟩ := List.mem_map.mp hm
  exact Nat.not_lt.mpr hw (h.lt_nextId e he)

theorem Sound.lt_of_find? {r : Roster} (h : r.Sound) {w : WorkerId} {e : Entry}
    (he : r.find? w = some e) : w < r.nextId := by
  rw [← worker_of_find? he]
  exact h.lt_nextId e (mem_of_find? he)

theorem Sound.modify {r : Roster} (h : r.Sound) (f : Entry → Entry)
    (hf : ∀ e, (f e).worker = e.worker) (a : WorkerId) : (r.modify a f).Sound := by
  refine ⟨by rw [ids_modify r f hf]; exact h.nodup, ?_⟩
  intro e he
  obtain ⟨x, hx, rfl⟩ := List.mem_map.mp he
  have hk : (if x.worker = a then f x else x).worker = x.worker := by
    split
    · exact hf x
    · rfl
  rw [hk]
  exact h.lt_nextId x hx

theorem Sound.erase {r : Roster} (h : r.Sound) (a : WorkerId) : (r.erase a).Sound := by
  refine ⟨by rw [ids_erase]; exact h.nodup.filter _, ?_⟩
  intro e he
  exact h.lt_nextId e (List.mem_filter.mp he).1

/-- the entry of a worker, and the other entries around it -/
theorem Sound.split {r : Roster} (hs : r.Sound) {a : WorkerId} {e : Entry}
    (he : r.find? a = some e) : ∃ xs ys, r.entries = xs ++ e :: ys ∧
      (∀ f, (r.modify a f).entries = xs ++ f e :: ys) ∧ (r.erase a).entries = xs ++ ys := by
  obtain ⟨xs, ys, hsplit⟩ := List.append_of_mem (mem_of_find? he)
  have hw : e.worker = a := worker_of_find? he
  have hd := hs.nodup
  unfold ids at hd
  rw [hsplit, List.map_append, List.map_cons, List.nodup_append, List.nodup_cons] at hd
  have hx : ∀ x ∈ xs, x.worker ≠ a := by
    intro x hx hxa
    apply hd.2.2 x.worker (List.mem_map_of_mem hx) e.worker (List.mem_cons_self ..)
    rw [hxa, hw]
  have hy : ∀ y ∈ ys, y.worker ≠ a := by
    intro y hy hya
    apply hd.2.1.1
    rw [hw, ← hya]
    exact List.mem_map_of_mem hy
  refine ⟨xs, ys, hsplit, fun f => ?_, ?_⟩
  · have hkeep (zs : List Entry) (hz : ∀ z ∈ zs, z.worker ≠ a) :
        zs.map (fun z => if z.worker = a then f z else z) = zs := by
      apply map_eq_self
      intro z hzm
      exact if_neg (hz z hzm)
    show r.entries.map _ = _
    rw [hsplit, List.map_append, List.map_cons, if_pos hw, hkeep xs hx, hkeep ys hy]
  · have hkeep (zs : List Entry) (hz : ∀ z ∈ zs, z.worker ≠ a) :
        zs.filter (fun z => z.worker != a) = zs := by
      apply List.filter_eq_self.mpr
      intro z hzm
      simpa using hz z hzm
    show r.entries.filter _ = _
    rw [hsplit, List.filter_append, List.filter_cons_of_neg (by simp [hw]), hkeep xs hx,
      hkeep ys hy]

/-- the roster with one more worker, under the next number -/
def enrol (r : Roster) (now : Timestamp) : Roster :=
  r.allocate.2.insert (.new r.allocate.1 r.allocate.1 now)

theorem Sound.entries_enrol {r : Roster} (h : r.Sound) (now : Timestamp) :
    (r.enrol now).entries = r.entries ++ [.new r.nextId r.nextId now] :=
  place_eq_append h.lt_nextId

theorem find?_enrol (r : Roster) (now : Timestamp) (w : WorkerId) :
    (r.enrol now).find? w
      = if w = r.nextId then some (.new r.nextId r.nextId now) else r.find? w :=
  find?_insert r.allocate.2 (.new r.nextId r.nextId now) w

theorem nextId_enrol (r : Roster) (now : Timestamp) : (r.enrol now).nextId = r.nextId + 1 := rfl

theorem Sound.enrol {r : Roster} (h : r.Sound) (now : Timestamp) : (r.enrol now).Sound := by
  refine ⟨?_, ?_⟩
  · show ((r.enrol now).entries.map Entry.worker).Nodup
    rw [h.entries_enrol, List.map_append]
    have hn : r.nextId ∉ r.ids := Roster.find?_eq_none.mp (h.find?_of_le (Nat.le_refl _))
    refine List.nodup_append.mpr ⟨h.nodup, by simp, ?_⟩
    intro a ha b hb hab
    have ha' : a = r.nextId := hab.trans (List.mem_singleton.mp hb)
    exact hn (ha' ▸ ha)
  · intro e he
    rw [h.entries_enrol] at he
    rw [nextId_enrol]
    rcases List.mem_append.mp he with he | he
    · exact Nat.lt_succ_of_lt (h.lt_nextId e he)
    · rcases List.mem_singleton.mp he with rfl
      exact Nat.lt_succ_self r.nextId

end Roster

end TaskPool
