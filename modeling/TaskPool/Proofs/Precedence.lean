import TaskPool.Proofs.Waiting

/-!
# Who is ahead in the queue

A line is the list of all tickets that were ever put into the queue, in the order in which that
happened; a ticket that came twice counts from the last time.

* `Sooner`              the one came for the last time before the other did
* `Ahead`               more urgent, or as urgent and sooner
* `Queue.pairwise_push`   the queue stays in this order as tickets are put in
* `Queue.popFor_split`    the ticket that is taken, with those in front of it and those behind it
* `Queue.ahead_of_popFor`   it is ahead of all, if nothing is preferred, and of all of its kind, if
                        anything is

Why kinds are served in order under every affinity: a preference is for kinds, so of two tickets of
a kind both are preferred or neither is.
-/

namespace TaskPool

/-! ## who is ahead -/

/-- after the last time of `x`, `y` came once more -/
def Sooner (line : List Ticket) (x y : Ticket) : Prop :=
  ∃ later, later <:+ line ∧ y ∈ later ∧ x ∉ later

/-- `x` is more urgent than `y`, or as urgent and came sooner -/
def Ahead (line : List Ticket) (x y : Ticket) : Prop :=
  y.priority.rank < x.priority.rank ∨ (x.priority.rank = y.priority.rank ∧ Sooner line x y)

section
variable {line : List Ticket} {x y t : Ticket}

theorem Sooner.asymm (h : Sooner line x y) : ¬ Sooner line y x := by
  rintro ⟨ls, hls, hx, hy⟩
  obtain ⟨ks, hks, hy', hx'⟩ := h
  rcases List.suffix_or_suffix_of_suffix hls hks with hsub | hsub
  · exact hx' (hsub.subset hx)
  · exact hy (hsub.subset hy')

/-- all that has come is sooner than what comes next -/
theorem Sooner.last (hx : x ≠ t) : Sooner (line ++ [t]) x t :=
  ⟨[t], List.suffix_append line [t], List.mem_singleton_self t,
    fun h => hx (List.mem_singleton.mp h)⟩

theorem Sooner.snoc (h : Sooner line x y) (hx : x ≠ t) : Sooner (line ++ [t]) x y := by
  obtain ⟨later, hl, hy, hxl⟩ := h
  obtain ⟨before, rfl⟩ := hl
  refine ⟨later ++ [t], ⟨before, (List.append_assoc ..).symm⟩, List.mem_append_left _ hy,
    fun h => ?_⟩
  rcases List.mem_append.mp h with h | h
  · exact hxl h
  · exact hx (List.mem_singleton.mp h)

theorem Ahead.rank_le (h : Ahead line x y) : y.priority.rank ≤ x.priority.rank := by
  rcases h with h | h
  · exact Nat.le_of_lt h
  · exact Nat.le_of_eq h.1.symm

theorem Ahead.asymm (h : Ahead line x y) : ¬ Ahead line y x := by
  intro h'
  have hle := h.rank_le
  have hle' := h'.rank_le
  rcases h with h | ⟨_, h⟩
  · omega
  · rcases h' with h' | ⟨_, h'⟩
    · omega
    · exact h.asymm h'

theorem Ahead.irrefl : ¬ Ahead line x x := fun h => h.asymm h

theorem Ahead.snoc (h : Ahead line x y) (hx : x ≠ t) : Ahead (line ++ [t]) x y :=
  h.imp_right fun h => ⟨h.1, h.2.snoc hx⟩

end

/-! ## the queue -/

namespace Queue

variable {line : List Ticket} {q rest : Queue} {affinity : Option KindSet} {t x : Ticket}

/-- a ticket finds its place -/
theorem pairwise_place {xs : List Ticket} (h : xs.Pairwise (Ahead line)) (ht : t ∉ xs) :
    (place t xs).Pairwise (Ahead (line ++ [t])) := by
  induction xs with
  | nil => exact List.pairwise_singleton _ t
  | cons x xs ih =>
    obtain ⟨hx, hxs⟩ := List.pairwise_cons.mp h
    have hne : x ≠ t := fun he => ht (he ▸ List.mem_cons_self ..)
    have hout : t ∉ xs := fun hm => ht (List.mem_cons_of_mem x hm)
    have hsnoc {y z : Ticket} (hy : y ∈ xs) (hyz : Ahead line y z) : Ahead (line ++ [t]) y z :=
      hyz.snoc fun he => hout (he ▸ hy)
    rw [place]
    split
    · rename_i hlt
      have hrest : (x :: xs).Pairwise (Ahead (line ++ [t])) := by
        refine List.pairwise_cons.mpr ⟨fun y hy => (hx y hy).snoc hne, ?_⟩
        exact hxs.imp_of_mem fun hy _ => hsnoc hy
      refine List.pairwise_cons.mpr ⟨fun y hy => .inl ?_, hrest⟩
      rcases List.mem_cons.mp hy with rfl | hy
      · exact hlt
      · exact Nat.lt_of_le_of_lt (hx y hy).rank_le hlt
    · rename_i hle
      refine List.pairwise_cons.mpr ⟨fun y hy => ?_, ih hxs hout⟩
      rcases mem_place.mp hy with rfl | hy
      · rcases Nat.lt_or_eq_of_le (Nat.le_of_not_lt hle) with hlt | heq
        · exact .inl hlt
        · exact .inr ⟨heq.symm, .last hne⟩
      · exact (hx y hy).snoc hne

theorem pairwise_push (h : q.waiting.Pairwise (Ahead line)) (ht : t ∉ q.waiting) :
    (q.push t).waiting.Pairwise (Ahead (line ++ [t])) := pairwise_place h ht

theorem pushAll_perm (ts : List Ticket) (q : Queue) :
    (ts.foldl push q).waiting.Perm (ts ++ q.waiting) := by
  induction ts generalizing q with
  | nil => exact .refl _
  | cons t ts ih =>
    have hpush := (ih (q.push t)).trans ((q.push_perm t).append_left ts)
    exact hpush.trans List.perm_middle

/-- the same for tickets that come one after the other -/
theorem pairwise_pushAll {ts : List Ticket} (h : q.waiting.Pairwise (Ahead line))
    (hd : (ts.foldl push q).waiting.Nodup) :
    (ts.foldl push q).waiting.Pairwise (Ahead (line ++ ts)) := by
  induction ts generalizing q line with
  | nil =>
    rw [List.append_nil]
    exact h
  | cons t ts ih =>
    have hall : (t :: ts ++ q.waiting).Nodup := ((pushAll_perm (t :: ts) q).nodup_iff).mp hd
    have ht : t ∉ q.waiting := fun hm =>
      (List.nodup_cons.mp hall).1 (List.mem_append_right ts hm)
    rw [List.append_cons]
    exact ih (pairwise_push h ht) hd

theorem takeFirst_split {passes : Ticket → Bool} {xs ys : List Ticket}
    (h : takeFirst passes xs = some (t, ys)) :
    ∃ before after, xs = before ++ t :: after ∧ ys = before ++ after ∧ passes t = true ∧
      ∀ x ∈ before, passes x = false := by
  induction xs generalizing ys with
  | nil => cases h
  | cons x xs ih =>
    rw [takeFirst] at h
    split at h
    · rename_i hp
      cases h
      exact ⟨[], xs, rfl, rfl, hp, fun _ hx => absurd hx List.not_mem_nil⟩
    · rename_i hp
      obtain ⟨⟨t', zs⟩, hz, he⟩ := Option.map_eq_some_iff.mp h
      cases he
      obtain ⟨before, after, rfl, rfl, ht, hbefore⟩ := ih hz
      refine ⟨x :: before, after, rfl, rfl, ht, fun y hy => ?_⟩
      rcases List.mem_cons.mp hy with rfl | hy
      · exact Bool.eq_false_iff.mpr hp
      · exact hbefore y hy

/-- none of the tickets in front of the one that is taken is preferred, and if there are any, it is
preferred itself -/
theorem popFor_split (h : q.popFor affinity = some (t, rest)) :
    ∃ before after, q.waiting = before ++ t :: after ∧ rest.waiting = before ++ after ∧
      (∀ x ∈ before, prefers affinity x = false) ∧ (before ≠ [] → prefers affinity t = true) := by
  unfold popFor at h
  split at h
  · rename_i hf
    cases h
    obtain ⟨before, after, hq, hr, ht, hbefore⟩ := takeFirst_split hf
    exact ⟨before, after, hq, hr, hbefore, fun _ => ht⟩
  · split at h
    · cases h
    · rename_i hq
      cases h
      exact ⟨[], _, hq, rfl, fun _ hx => absurd hx List.not_mem_nil, fun hne => absurd rfl hne⟩

theorem popFor_sublist (h : q.popFor affinity = some (t, rest)) :
    rest.waiting.Sublist q.waiting := by
  obtain ⟨before, after, hq, hr, _, _⟩ := popFor_split h
  rw [hq, hr]
  exact (List.sublist_cons_self t after).append_left before

/-- a preference is for kinds -/
theorem prefers_congr {x y : Ticket} (affinity : Option KindSet) (h : x.kind = y.kind) :
    prefers affinity x = prefers affinity y := by
  unfold prefers
  rw [h]

/-- **the ticket that is taken is ahead** of all others if nothing is preferred, and of those of its
kind in any case -/
theorem ahead_of_popFor (hs : q.waiting.Pairwise (Ahead line))
    (h : q.popFor affinity = some (t, rest)) :
    t ∈ q.waiting ∧ ∀ x ∈ q.waiting, x ≠ t →
      ((∀ y, prefers affinity y = false) ∨ x.kind = t.kind) → Ahead line t x := by
  obtain ⟨before, after, hq, _, hbefore, hpreferred⟩ := popFor_split h
  rw [hq] at hs ⊢
  refine ⟨List.mem_append_right _ (List.mem_cons_self ..), fun x hx hne hfree => ?_⟩
  rcases List.mem_append.mp hx with hx | hx
  · have ht : prefers affinity t = true := hpreferred (List.ne_nil_of_mem hx)
    have hx' := hbefore x hx
    rcases hfree with hfree | hkind
    · rw [hfree t] at ht
      cases ht
    · rw [prefers_congr affinity hkind, ht] at hx'
      cases hx'
  · have hafter := (List.mem_cons.mp hx).resolve_left hne
    exact (List.pairwise_cons.mp (List.pairwise_append.mp hs).2.1).1 x hafter

end Queue

end TaskPool
