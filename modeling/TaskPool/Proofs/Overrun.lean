import TaskPool.Dashboard.Screen
import TaskPool.Proofs.Bookkeeping
import TaskPool.Proofs.RoundTrip

/-!
# Where the count of attempts runs over

Attempts and retries are counted in 32 bits, and an attempt is spoken of by its number, which is one
more than the number of retries before it.

* `Ledger.Counts`        what the operations of the ledger work out for a task in it
* `Books.Exact`          the next counts for a task do not overflow, and the numbers that are told
                         of it are those of its attempts
* `Sound.exact`          this is so whatever was posted, unless 2 ^ 32 - 1 retries are allowed
* `Books.checkedAfter`   the books with overflow checks, `checkedAfter_of_lt` when they are kept
* `Books.exhausting`     after so many retries the next counts do overflow
* `Reachable.receive`    so a pool does not panic, as long as no task is allowed so many
* `Board.runningLine_overflow`, `screen_overflow`   and neither does the board
* `attempts_exact_iff`   what can be counted, in the ledger and on the board

Why the greatest number of retries makes a difference and no other does: a failure that is followed
by a retry leaves fewer retries than are allowed, so that the next number is one that they reach.
Only the last failure adds one to as many retries as are allowed.
-/

namespace TaskPool

theorem toNat_add_one_mod (n : UInt32) : (n + 1).toNat = (n.toNat + 1) % 2 ^ 32 :=
  UInt32.toNat_add n 1

theorem toNat_add_one_iff (n : UInt32) : (n + 1).toNat = n.toNat + 1 ↔ n.toNat < 2 ^ 32 - 1 := by
  constructor
  · intro h
    have hlast := (n + 1).toNat_lt_size
    have hsize : UInt32.size = 2 ^ 32 := rfl
    omega
  · exact toNat_add_one

theorem toNat_eq_last_iff (n : UInt32) : n.toNat = 2 ^ 32 - 1 ↔ ¬ n.toNat < 2 ^ 32 - 1 := by
  have hlast := n.toNat_lt_size
  have hsize : UInt32.size = 2 ^ 32 := rfl
  omega

/-! ## in the ledger -/

namespace Ledger

variable {l : Ledger} {id : TaskId} {t : Task}

theorem overflow_startAttempt (ht : l.find? id = some t) (worker : WorkerId) (now : Timestamp) :
    (l.startAttempt id worker now).overflow = true ↔
      t.status = .queued ∧ t.attempt.toNat = 2 ^ 32 - 1 := by
  rw [startAttempt, ht]
  dsimp only
  by_cases hs : t.status = .queued
  · rw [if_pos hs, Overflowing.overflow_map, Overflowing.overflow_succ]
    exact (and_iff_right hs).symm
  · simp [hs]

theorem overflow_fail (ht : l.find? id = some t) (cause : FailureCause) (now : Timestamp) :
    (l.fail id cause now).overflow = true ↔
      t.status ≠ .retrying ∧ t.retries.toNat = 2 ^ 32 - 1 := by
  rw [fail, ht]
  dsimp only
  by_cases hs : t.status = .retrying
  · simp [hs]
  · rw [if_neg hs, Overflowing.overflow_map, Task.failure, Overflowing.overflow_map,
      Overflowing.overflow_succ]
    exact (and_iff_right hs).symm

/-- a count for a task that is not there does not overflow -/
theorem find?_of_overflow_startAttempt {worker : WorkerId} {now : Timestamp}
    (h : (l.startAttempt id worker now).overflow = true) : ∃ t, l.find? id = some t := by
  cases ht : l.find? id with
  | some t => exact ⟨t, rfl⟩
  | none =>
    rw [startAttempt, ht] at h
    cases h

theorem find?_of_overflow_fail {cause : FailureCause} {now : Timestamp}
    (h : (l.fail id cause now).overflow = true) : ∃ t, l.find? id = some t := by
  cases ht : l.find? id with
  | some t => exact ⟨t, rfl⟩
  | none =>
    rw [fail, ht] at h
    cases h

/-- what is worked out for the task `t`; with overflow checks nothing comes of a count that
overflows -/
structure Counts (l : Ledger) (id : TaskId) (t : Task) : Prop where
  /-- a failure that is followed by a retry adds one to the retries, and speaks of one attempt more
  than there were retries -/
  retry : ∀ cause now delay ledger cs,
    (l.fail id cause now).unchecked = some (.retry delay, ledger, cs) →
    (l.fail id cause now).checked = .ok (some (.retry delay, ledger, cs)) ∧
    ∃ t' n, ledger.find? id = some t' ∧ t'.retries.toNat = t.retries.toNat + 1 ∧
      t'.retries ≤ t'.terms.maxRetries ∧ t'.error = some (cause.failure n).message ∧
      n.toNat = t.retries.toNat + 1
  /-- so does the last failure, unless as many retries are allowed as can be counted -/
  exhausted : ∀ cause now ledger cs,
    (l.fail id cause now).unchecked = some (.exhausted, ledger, cs) →
    ((l.fail id cause now).checked = .error .overflow ↔
      ¬ t.terms.maxRetries.toNat < 2 ^ 32 - 1) ∧
    ∃ n, cs = t.disarm ++ [.deliver id (.error (cause.failure n))] ∧
      n.toNat = (t.retries.toNat + 1) % 2 ^ 32 ∧
      (n.toNat = t.retries.toNat + 1 ↔ t.terms.maxRetries.toNat < 2 ^ 32 - 1)
  start : ∀ worker now attempt ledger,
    (l.startAttempt id worker now).unchecked = some (attempt, ledger) →
    ((l.startAttempt id worker now).checked = .error .overflow ↔
      ¬ t.attempt.toNat < 2 ^ 32 - 1) ∧
    attempt.number.toNat = (t.attempt.toNat + 1) % 2 ^ 32 ∧
      (attempt.number.toNat = t.attempt.toNat + 1 ↔ t.attempt.toNat < 2 ^ 32 - 1)

theorem fail_eq_retry (ht : l.find? id = some t) {cause : FailureCause} {now : Timestamp}
    {delay : Duration} {ledger : Ledger} {cs : List Consequence}
    (h : (l.fail id cause now).unchecked = some (.retry delay, ledger, cs)) :
    t.retries < t.terms.maxRetries ∧ ∃ t', ledger.find? id = some t' ∧ t'.terms = t.terms ∧
      t'.retries = t.retries + 1 ∧ t'.error = some (cause.failure (t.retries + 1)).message := by
  rw [fail_of_find? ht] at h
  split at h
  · cases h
  · split at h
    · rename_i hr
      cases h
      have hkey (u : Task) : (Pool.retryLater cause now none u).id = u.id := rfl
      refine ⟨hr, Pool.retryLater cause now none t,
        (find?_modify_of_some hkey ht id).trans (if_pos rfl), rfl, rfl, ?_⟩
      rw [← Task.failure_eq]
      rfl
    · cases h

theorem fail_eq_exhausted (ht : l.find? id = some t) {cause : FailureCause} {now : Timestamp}
    {ledger : Ledger} {cs : List Consequence}
    (h : (l.fail id cause now).unchecked = some (.exhausted, ledger, cs)) :
    t.status ≠ .retrying ∧ ¬ t.retries < t.terms.maxRetries ∧
      cs = t.disarm ++ [.deliver id (.error (cause.failure (t.retries + 1)))] := by
  rw [fail_of_find? ht] at h
  split at h
  · cases h
  · split at h
    · cases h
    · rename_i hs hr
      cases h
      refine ⟨hs, hr, ?_⟩
      rw [Task.resolve, Task.failure_eq, id_of_find? ht]

theorem startAttempt_eq_some (ht : l.find? id = some t) {worker : WorkerId} {now : Timestamp}
    {attempt : Attempt} {ledger : Ledger}
    (h : (l.startAttempt id worker now).unchecked = some (attempt, ledger)) :
    t.status = .queued ∧ attempt.number = t.attempt + 1 := by
  simp only [startAttempt, ht] at h
  by_cases hs : t.status = .queued
  · simp only [hs, if_true, Overflowing.unchecked_map, Overflowing.unchecked_succ,
      Option.some.injEq, Prod.mk.injEq] at h
    obtain ⟨rfl, -⟩ := h
    exact ⟨hs, rfl⟩
  · simp only [hs, if_false, Overflowing.unchecked_exact] at h
    cases h

theorem counts (ht : l.find? id = some t) (hle : t.retries ≤ t.terms.maxRetries) :
    l.Counts id t where
  retry cause now delay ledger cs h := by
    obtain ⟨hr, t', ht', hterms, hretries, herror⟩ := fail_eq_retry ht h
    have hnext := toNat_add_one_of_lt hr
    have hfits : (l.fail id cause now).overflow = false := by
      rw [← Bool.not_eq_true, overflow_fail ht, toNat_eq_last_iff]
      exact fun hlast => hlast.2 ((toNat_add_one_iff _).mp hnext)
    refine ⟨Overflowing.checked_eq_ok.mpr ⟨hfits, h⟩, t', t.retries + 1, ht', ?_, ?_, herror,
      hnext⟩
    · rw [hretries, hnext]
    · rw [hretries, hterms, UInt32.le_iff_toNat_le, hnext]
      exact UInt32.lt_iff_toNat_lt.mp hr
  exhausted cause now ledger cs h := by
    obtain ⟨hs, hr, rfl⟩ := fail_eq_exhausted ht h
    have hfull : t.retries.toNat = t.terms.maxRetries.toNat :=
      Nat.le_antisymm hle (Nat.not_lt.mp hr)
    rw [← hfull]
    refine ⟨?_, t.retries + 1, rfl, toNat_add_one_mod _, toNat_add_one_iff _⟩
    rw [Overflowing.checked_eq_error, overflow_fail ht, toNat_eq_last_iff]
    exact ⟨fun hover => hover.1.2, fun hlast => ⟨⟨hs, hlast⟩, rfl⟩⟩
  start worker now attempt ledger h := by
    obtain ⟨hs, hnumber⟩ := startAttempt_eq_some ht h
    rw [hnumber]
    refine ⟨?_, toNat_add_one_mod _, toNat_add_one_iff _⟩
    rw [Overflowing.checked_eq_error, overflow_startAttempt ht, toNat_eq_last_iff]
    exact ⟨fun hover => hover.1.2, fun hlast => ⟨⟨hs, hlast⟩, rfl⟩⟩

end Ledger

/-! ## over many rounds -/

/-- a counter overflows -/
def Posting.overflows (l : Ledger) : Posting → Bool
  | .start id worker now => (l.startAttempt id worker now).overflow
  | .fail id cause now => (l.fail id cause now).overflow
  | _ => false

namespace Books

/-- with overflow checks an overflow is the end of the books -/
def receive (b : Books) (p : Posting) : Except Panic Books :=
  Overflowing.checked ⟨b.post p, p.overflows b.ledger⟩

def checkedAfter (ps : List Posting) : Except Panic Books := ps.foldlM receive ⟨.empty, []⟩

/-- the next counts for a task do not overflow, and the numbers that are told of it are those of its
attempts -/
structure Exact (b : Books) (id : TaskId) : Prop where
  started : ∀ worker now, ∃ r, (b.ledger.startAttempt id worker now).checked = .ok r ∧
    ∀ attempt ledger, r = some (attempt, ledger) →
      attempt.number.toNat = (numbers (b.told id)).length + 1
  failed : ∀ cause now, ∃ r, (b.ledger.fail id cause now).checked = .ok r ∧
    ∀ detail ledger cs n, r = some (.exhausted, ledger, cs) →
      .deliver id (.error (.failed detail n)) ∈ cs →
      n.toNat = (b.told id).countP Mark.isFailed + 1

theorem receive_eq_ok {b : Books} {p : Posting} (h : p.overflows b.ledger = false) :
    b.receive p = .ok (b.post p) := Overflowing.checked_eq_ok.mpr ⟨h, rfl⟩

theorem checkedAfter_append (ps qs : List Posting) :
    checkedAfter (ps ++ qs) = (checkedAfter ps).bind (qs.foldlM receive) := List.foldlM_append

namespace Sound

variable {b : Books} {ids : List TaskId} {id : TaskId} {t : Task}

/-- each attempt before one that is to begin was followed by a retry -/
theorem attempt_le (h : b.Sound ids) (ht : b.ledger.find? id = some t) (hs : t.status = .queued)
    (hmax : t.terms.maxRetries.toNat < 2 ^ 32 - 1) :
    t.attempt.toNat = (numbers (b.told id)).length ∧
      t.attempt.toNat ≤ t.terms.maxRetries.toNat := by
  have hup := h.upheld ht
  have hfew : (numbers (b.told id)).length ≤ t.retries.toNat := by
    have hfew := hup.few
    rw [if_neg (by show t.status ≠ _; rw [hs]; decide)] at hfew
    exact hfew
  have hle : t.retries.toNat ≤ t.terms.maxRetries.toNat := hup.retries_le
  have hattempt : t.attempt.toNat = (numbers (b.told id)).length := by
    have hattempt : t.attempt = _ := hup.attempt
    rw [hattempt, UInt32.toNat_ofNat']
    exact Nat.mod_eq_of_lt (by omega)
  exact ⟨hattempt, by omega⟩

theorem fits_startAttempt (h : b.Sound ids) (id : TaskId) (worker : WorkerId) (now : Timestamp)
    (hmax : ∀ t, b.ledger.find? id = some t → t.terms.maxRetries.toNat < 2 ^ 32 - 1) :
    (b.ledger.startAttempt id worker now).overflow = false := by
  rw [← Bool.not_eq_true]
  intro hover
  obtain ⟨t, ht⟩ := Ledger.find?_of_overflow_startAttempt hover
  obtain ⟨hs, hlast⟩ := (Ledger.overflow_startAttempt ht worker now).mp hover
  have hmax := hmax t ht
  have hle := (h.attempt_le ht hs hmax).2
  omega

theorem fits_fail (h : b.Sound ids) (id : TaskId) (cause : FailureCause) (now : Timestamp)
    (hmax : ∀ t, b.ledger.find? id = some t → t.terms.maxRetries.toNat < 2 ^ 32 - 1) :
    (b.ledger.fail id cause now).overflow = false := by
  rw [← Bool.not_eq_true]
  intro hover
  obtain ⟨t, ht⟩ := Ledger.find?_of_overflow_fail hover
  obtain ⟨-, hlast⟩ := (Ledger.overflow_fail ht cause now).mp hover
  have hmax := hmax t ht
  have hle : t.retries.toNat ≤ t.terms.maxRetries.toNat := (h.upheld ht).retries_le
  omega

/-- **the numbers that are told are right, whatever was posted**, unless as many retries are allowed
as can be counted -/
theorem exact (h : b.Sound ids) (ht : b.ledger.find? id = some t)
    (hmax : t.terms.maxRetries.toNat < 2 ^ 32 - 1) : b.Exact id where
  started worker now := by
    have hfits := h.fits_startAttempt id worker now fun u hu => by
      cases ht.symm.trans hu
      exact hmax
    refine ⟨_, Overflowing.checked_eq_ok.mpr ⟨hfits, rfl⟩, fun attempt ledger hstart => ?_⟩
    obtain ⟨hs, hnumber⟩ := Ledger.startAttempt_eq_some ht hstart
    obtain ⟨hattempt, hle⟩ := h.attempt_le ht hs hmax
    rw [hnumber, ← hattempt]
    exact (toNat_add_one_iff _).mpr (by omega)
  failed cause now := by
    have hfits := h.fits_fail id cause now fun u hu => by
      cases ht.symm.trans hu
      exact hmax
    refine ⟨_, Overflowing.checked_eq_ok.mpr ⟨hfits, rfl⟩, fun detail ledger cs n hfail hmem => ?_⟩
    have hup := h.upheld ht
    have hretries : t.retries.toNat = _ := hup.retries
    have hle : t.retries.toNat ≤ t.terms.maxRetries.toNat := hup.retries_le
    obtain ⟨-, -, rfl⟩ := Ledger.fail_eq_exhausted ht hfail
    have hn : n = t.retries + 1 := by
      rcases List.mem_append.mp hmem with hmem | hmem
      · obtain ⟨timer, -, he⟩ := List.mem_map.mp hmem
        cases he
      · have he := List.mem_singleton.mp hmem
        cases cause with
        | handler => cases he; rfl
        | crash => cases he
    rw [hn, ← hretries]
    exact (toNat_add_one_iff _).mpr (by omega)

end Sound

/-- the terms on which tasks are put in -/
def granted (ps : List Posting) : List Terms :=
  ps.filterMap fun
    | .insert _ terms _ => some terms
    | _ => none

theorem mem_granted_of_came {ps : List Posting} (hd : (inserted ps).Nodup) {id : TaskId}
    {t : Task} (ht : (after ps).ledger.find? id = some t) : t.terms ∈ granted ps := by
  induction ps using List.reverseRecOn generalizing t with
  | nil => cases ht
  | append_singleton ps p ih =>
    obtain ⟨hfewer, hnew⟩ := inserted_snoc_nodup hd
    rw [after_snoc] at ht
    have hsplit : granted (ps ++ [p]) = granted ps ++ granted [p] := List.filterMap_append
    have hlawful := (sound_after hfewer).lawful hnew
    rw [hsplit, List.mem_append]
    cases hold : (after ps).ledger.find? id with
    | none =>
      obtain ⟨terms, now, rfl, hstanding⟩ := hlawful.came id t hold ht
      have hterms : t.terms = terms := congrArg Standing.terms hstanding
      exact .inr (List.mem_singleton.mpr hterms)
    | some u =>
      have hterms : t.terms = u.terms := by
        cases hlawful.moves id u t hold ht with
        | stays hs => exact congrArg Standing.terms hs
        | begins _ _ _ _ _ _ hs | fails _ _ _ _ _ _ hs | returns _ _ _ _ hs => exact hs
      rw [hterms]
      exact .inl (ih hfewer hold)

/-- **nothing overflows, whatever is posted**, if no task is allowed as many retries as can be
counted -/
theorem checkedAfter_of_lt {ps : List Posting} (hd : (inserted ps).Nodup)
    (hmax : ∀ terms ∈ granted ps, terms.maxRetries.toNat < 2 ^ 32 - 1) :
    checkedAfter ps = .ok (after ps) := by
  induction ps using List.reverseRecOn with
  | nil => rfl
  | append_singleton ps p ih =>
    obtain ⟨hfewer, -⟩ := inserted_snoc_nodup hd
    have hsplit : granted (ps ++ [p]) = granted ps ++ granted [p] := List.filterMap_append
    have hbefore : ∀ terms ∈ granted ps, terms.maxRetries.toNat < 2 ^ 32 - 1 := by
      intro terms hterms
      refine hmax terms ?_
      rw [hsplit]
      exact List.mem_append_left _ hterms
    have hsound := sound_after hfewer
    have hledger (id : TaskId) (t : Task) (ht : (after ps).ledger.find? id = some t) :
        t.terms.maxRetries.toNat < 2 ^ 32 - 1 := hbefore _ (mem_granted_of_came hfewer ht)
    have hfits : p.overflows (after ps).ledger = false := by
      cases p with
      | start id worker now => exact hsound.fits_startAttempt id worker now (hledger id)
      | fail id cause now => exact hsound.fits_fail id cause now (hledger id)
      | _ => rfl
    rw [checkedAfter_append, ih hfewer hbefore, after_snoc]
    show ((after ps).receive p).bind pure = _
    rw [receive_eq_ok hfits]
    rfl

/-- a task that has failed `n` times and waits for its next attempt -/
def worn (terms : Terms) (n : ℕ) : Task :=
  { Task.new ⟨1⟩ terms ⟨0, 0⟩ with
    retries := UInt32.ofNat n
    attempt := UInt32.ofNat n }

/-- an attempt begins and fails, and the next one is due -/
def round : List Posting :=
  [.start ⟨1⟩ 0 ⟨0, 0⟩, .fail ⟨1⟩ (.handler "") ⟨0, 0⟩, .reset ⟨1⟩]

/-- a task comes, and is tried `n` times -/
def rounds (terms : Terms) : ℕ → List Posting
  | 0 => [.insert ⟨1⟩ terms ⟨0, 0⟩]
  | n + 1 => rounds terms n ++ round

theorem inserted_rounds (terms : Terms) (n : ℕ) : inserted (rounds terms n) = [⟨1⟩] := by
  induction n with
  | zero => rfl
  | succ n ih =>
    rw [rounds, inserted, List.filterMap_append]
    show inserted (rounds terms n) ++ [] = _
    rw [ih, List.append_nil]

theorem foldlM_receive_cons {b b' : Books} {p : Posting} (h : b.receive p = .ok b')
    (ps : List Posting) : (p :: ps).foldlM receive b = ps.foldlM receive b' := by
  rw [List.foldlM_cons, h]
  rfl

section
variable {b : Books} {t : Task} (hb : b.ledger = ⟨[t]⟩)
include hb

theorem find?_single : b.ledger.find? t.id = some t := by
  rw [hb]
  simp [Ledger.find?]

theorem receive_start (hs : t.status = .queued) (hlt : t.attempt.toNat < 2 ^ 32 - 1)
    (worker : WorkerId) (now : Timestamp) :
    ∃ b', b.receive (.start t.id worker now) = .ok b' ∧
      b'.ledger = ⟨[Pool.begun worker now t.timer t]⟩ := by
  refine ⟨_, receive_eq_ok ?_, ?_⟩
  · rw [Posting.overflows, ← Bool.not_eq_true, Ledger.overflow_startAttempt (find?_single hb),
      toNat_eq_last_iff]
    exact fun hover => hover.2 hlt
  · show (b.ledger.post _).ledger = _
    rw [hb]
    simp [Ledger.post, Ledger.startAttempt, Ledger.find?, Ledger.modify, Pool.begun, hs]

theorem receive_fail (hs : t.status ≠ .retrying) (hr : t.retries < t.terms.maxRetries)
    (cause : FailureCause) (now : Timestamp) :
    ∃ b', b.receive (.fail t.id cause now) = .ok b' ∧
      b'.ledger = ⟨[Pool.retryLater cause now none t]⟩ := by
  refine ⟨_, receive_eq_ok ?_, ?_⟩
  · rw [Posting.overflows, ← Bool.not_eq_true, Ledger.overflow_fail (find?_single hb),
      toNat_eq_last_iff]
    exact fun hover => hover.2 ((toNat_add_one_iff _).mp (toNat_add_one_of_lt hr))
  · show (b.ledger.post _).ledger = _
    simp only [Ledger.post, Ledger.fail_of_find? (find?_single hb), if_neg hs, if_pos hr]
    rw [hb]
    simp [Ledger.modify]

theorem receive_reset (hs : t.status = .retrying) :
    ∃ b', b.receive (.reset t.id) = .ok b' ∧ b'.ledger = ⟨[Ledger.reset t]⟩ := by
  refine ⟨_, receive_eq_ok rfl, ?_⟩
  show (b.ledger.post _).ledger = _
  rw [hb]
  simp [Ledger.post, Ledger.resetForRetry, Ledger.find?, Ledger.modify, Ledger.reset, hs]

end

/-- a round in which another retry is allowed -/
theorem receive_round {b : Books} {terms : Terms} {n : ℕ} (hb : b.ledger = ⟨[worn terms n]⟩)
    (hn : n < terms.maxRetries.toNat) :
    ∃ b', round.foldlM receive b = .ok b' ∧ b'.ledger = ⟨[worn terms (n + 1)]⟩ := by
  have hlast := terms.maxRetries.toNat_lt_size
  have hsize : UInt32.size = 2 ^ 32 := rfl
  have hword : (UInt32.ofNat n).toNat = n := by
    rw [UInt32.toNat_ofNat', Nat.mod_eq_of_lt (by omega)]
  have hattempt : (UInt32.ofNat n).toNat < 2 ^ 32 - 1 := by
    rw [hword]
    omega
  have hretries : UInt32.ofNat n < terms.maxRetries := by
    rw [UInt32.lt_iff_toNat_lt, hword]
    exact hn
  obtain ⟨b1, h1, hb1⟩ := receive_start hb rfl hattempt 0 ⟨0, 0⟩
  obtain ⟨b2, h2, hb2⟩ := receive_fail hb1 Status.noConfusion hretries (.handler "") ⟨0, 0⟩
  obtain ⟨b3, h3, hb3⟩ := receive_reset hb2 rfl
  refine ⟨b3, ?_, hb3.trans ?_⟩
  · exact (foldlM_receive_cons h1 _).trans
      ((foldlM_receive_cons h2 _).trans (foldlM_receive_cons h3 []))
  · simp [Ledger.reset, Pool.retryLater, Pool.begun, worn, Task.new, UInt32.ofNat_add]

theorem checkedAfter_rounds (terms : Terms) {n : ℕ} (hn : n ≤ terms.maxRetries.toNat) :
    ∃ b, checkedAfter (rounds terms n) = .ok b ∧ b.ledger = ⟨[worn terms n]⟩ := by
  induction n with
  | zero => exact ⟨_, rfl, rfl⟩
  | succ n ih =>
    obtain ⟨b, hb, hledger⟩ := ih (by omega)
    rw [rounds, checkedAfter_append, hb]
    exact receive_round hledger hn

/-- a task that may be retried `m` times -/
def lenient (m : UInt32) : Terms := ⟨.cacheCleanup, .null, .normal, .ofMillis 0, m, .ofMillis 0⟩

/-- **after as many retries as can be counted the next counts overflow**, and nothing did on the way
there -/
theorem exhausting {m : UInt32} (hm : ¬ m.toNat < 2 ^ 32 - 1) :
    ∃ b t, checkedAfter (rounds (lenient m) m.toNat) = .ok b ∧ b.ledger.find? ⟨1⟩ = some t ∧
      t.terms.maxRetries = m ∧
      (∀ worker now, (b.ledger.startAttempt ⟨1⟩ worker now).checked = .error .overflow) ∧
      ∀ cause now, (b.ledger.fail ⟨1⟩ cause now).checked = .error .overflow := by
  obtain ⟨b, hb, hledger⟩ := checkedAfter_rounds (lenient m) (Nat.le_refl _)
  have ht : b.ledger.find? ⟨1⟩ = some (worn (lenient m) m.toNat) := by
    rw [hledger]
    rfl
  have hword : (UInt32.ofNat m.toNat).toNat = 2 ^ 32 - 1 := by
    rw [UInt32.ofNat_toNat]
    exact (toNat_eq_last_iff m).mpr hm
  refine ⟨b, _, hb, ht, rfl, fun worker now => ?_, fun cause now => ?_⟩
  · refine Overflowing.checked_eq_error.mpr ⟨?_, rfl⟩
    exact (Ledger.overflow_startAttempt ht worker now).mpr ⟨rfl, hword⟩
  · refine Overflowing.checked_eq_error.mpr ⟨?_, rfl⟩
    exact (Ledger.overflow_fail ht cause now).mpr ⟨Status.noConfusion, hword⟩

end Books

/-! ## in the pool -/

namespace Workshop

variable {c : Config} {W : Workshop} {m : Moment} {msg : Message}

/-- a counter overflows only for a task that was retried as often as can be counted -/
theorem Reachable.spent_of_overflows (h : Reachable c W) (hover : W.pool.overflows m msg = true) :
    ∃ id t, W.pool.ledger.find? id = some t ∧ t.retries = t.terms.maxRetries ∧
      t.retries.toNat = 2 ^ 32 - 1 := by
  have hfull {id : TaskId} {t : Task} (ht : W.pool.ledger.find? id = some t)
      (hlast : t.retries.toNat = 2 ^ 32 - 1) : t.retries = t.terms.maxRetries := by
    have hle : t.retries.toNat ≤ t.terms.maxRetries.toNat := (h.coherent_task ht).retries
    have hend := t.terms.maxRetries.toNat_lt_size
    have hsize : UInt32.size = 2 ^ 32 := rfl
    exact UInt32.toNat_inj.mp (by omega)
  have hstarted {id : TaskId} {worker : WorkerId}
      (hover : (W.pool.ledger.startAttempt id worker m.now).overflow = true) :
      ∃ id t, W.pool.ledger.find? id = some t ∧ t.retries = t.terms.maxRetries ∧
        t.retries.toNat = 2 ^ 32 - 1 := by
    obtain ⟨t, ht⟩ := Ledger.find?_of_overflow_startAttempt hover
    obtain ⟨hs, hlast⟩ := (Ledger.overflow_startAttempt ht worker m.now).mp hover
    -- a task that waits has begun one attempt for each of its retries
    have hattempt := (h.numbered ht).attempt
    rw [if_neg (by rw [hs]; decide)] at hattempt
    rw [hattempt] at hlast
    exact ⟨id, t, ht, hfull ht hlast, hlast⟩
  have hfailed {id : TaskId} {cause : FailureCause}
      (hover : (W.pool.ledger.fail id cause m.now).overflow = true) :
      ∃ id t, W.pool.ledger.find? id = some t ∧ t.retries = t.terms.maxRetries ∧
        t.retries.toNat = 2 ^ 32 - 1 := by
    obtain ⟨t, ht⟩ := Ledger.find?_of_overflow_fail hover
    have hlast := ((Ledger.overflow_fail ht cause m.now).mp hover).2
    exact ⟨id, t, ht, hfull ht hlast, hlast⟩
  cases msg with
  | call caller request => cases hover
  | ring alarm => cases hover
  | report worker event =>
    cases event with
    | ready | idle | result | metrics => cases hover
    | busy id => exact hstarted (Bool.and_eq_true_iff.mp hover).2
    | error id detail => exact hfailed (Bool.and_eq_true_iff.mp hover).2
    | fatal detail | exited graceful =>
      obtain ⟨id, -, hover⟩ := (Option.any_eq_true ..).mp hover
      exact hfailed hover

/-- **the pool does not panic** on any message, as long as no task in flight is allowed as many
retries as can be counted -/
theorem Reachable.receive (h : Reachable c W) (m : Moment) (msg : Message)
    (hmax : ∀ id t, W.pool.ledger.find? id = some t → t.terms.maxRetries.toNat < 2 ^ 32 - 1) :
    W.pool.receive m msg = .ok (W.pool.handle m msg) := by
  refine Overflowing.checked_eq_ok.mpr ⟨?_, rfl⟩
  rw [← Bool.not_eq_true]
  intro hover
  obtain ⟨id, t, ht, hfull, hlast⟩ := h.spent_of_overflows hover
  have hlt := hmax id t ht
  rw [← hfull] at hlt
  omega

end Workshop

/-! ## on the board -/

namespace Board

/-- what stands on the board of a task that runs, if its attempt has the number `n` -/
def attemptLine (t : TaskSnapshot) (n : ℕ) : String :=
  "worker " ++ (t.worker.map toString).getD "-" ++ ": " ++ t.kind.name ++ " (attempt " ++
    toString n ++ ")"

theorem unchecked_runningLine (t : TaskSnapshot) :
    (runningLine t).unchecked = attemptLine t ((t.retries.toNat + 1) % 2 ^ 32) := by
  rw [← toNat_add_one_mod]
  rfl

theorem runningLine_overflow (t : TaskSnapshot) :
    (runningLine t).overflow = true ↔ ¬ t.retries.toNat < 2 ^ 32 - 1 := by
  rw [← toNat_eq_last_iff]
  exact Overflowing.overflow_succ

/-- **a task is shown with its attempt**, unless it has been retried as often as can be counted -/
theorem runningLine_eq_iff (t : TaskSnapshot) :
    (runningLine t).unchecked = attemptLine t (t.retries.toNat + 1) ↔
      t.retries.toNat < 2 ^ 32 - 1 := by
  rw [unchecked_runningLine]
  constructor
  · intro h
    by_contra hfull
    rw [(toNat_eq_last_iff _).mpr hfull] at h
    -- one of the numbers has one digit, and the other has ten
    have hlength := congrArg String.length h
    simp only [attemptLine, String.length_append] at hlength
    have hzero : (toString ((2 ^ 32 - 1 + 1) % 2 ^ 32)).length = 1 := by decide
    have hten : (toString (2 ^ 32 - 1 + 1)).length = 10 := by decide
    omega
  · intro h
    rw [Nat.mod_eq_of_lt (by omega)]

/-- the whole screen is lost for one task of which too many retries are told -/
theorem screen_overflow (b : Board) (width height : Nat) :
    (b.screen width height).checked = .error .overflow ↔
      b.tab = .overview ∧ ∃ t ∈ b.running, ¬ t.retries.toNat < 2 ^ 32 - 1 := by
  rw [Overflowing.checked_eq_error, screen, Overflowing.overflow_map, panels]
  cases htab : b.tab with
  | queue | stats => simp
  | overview =>
    simp [overviewPanels, Overflowing.overflow_all, runningLine_overflow]

/-- a task that runs and has been retried `r` times -/
def shown (r : UInt32) : TaskSnapshot where
  id := ⟨1⟩
  kind := .cacheCleanup
  priority := .normal
  status := .running
  created := ⟨0, 0⟩
  started := some ⟨0, 0⟩
  completed := none
  worker := some 7
  retries := r
  maxRetries := r
  error := none

theorem sendable_shown (r : UInt32) : (shown r).Sendable := by
  have hid : 1 < 2 ^ 128 := by decide
  have hworker : 7 < 2 ^ 64 := by decide
  have hplain : Rfc3339.Plain ⟨0, 0⟩ := ⟨by decide, by decide, by decide⟩
  refine ⟨hid, hplain, ?_, nofun, ?_⟩
  · rintro m ⟨⟩
    exact hplain
  · rintro w ⟨⟩
    exact hworker

end Board

/-- **attempts are counted right, but for the last that there can be**, if there may be `m` retries:
in any ledger for a task with no more, over any postings, and on the board for anything that can be
received.  The last one overflows, and without overflow checks its number is zero -/
theorem attempts_exact_iff (m : UInt32) :
    (∀ (l : Ledger) (id : TaskId) (t : Task), l.find? id = some t → t.terms.maxRetries = m →
      t.retries ≤ m → l.Counts id t) ∧
    (m.toNat < 2 ^ 32 - 1 → ∀ (ps : List Posting) (id : TaskId) (t : Task), (inserted ps).Nodup →
      (Books.after ps).ledger.find? id = some t → t.terms.maxRetries = m →
      (Books.after ps).Exact id) ∧
    (¬ m.toNat < 2 ^ 32 - 1 → ∃ (ps : List Posting) (b : Books) (id : TaskId) (t : Task),
      (inserted ps).Nodup ∧ Books.checkedAfter ps = .ok b ∧ b.ledger.find? id = some t ∧
      t.terms.maxRetries = m ∧
      (∀ worker now, (b.ledger.startAttempt id worker now).checked = .error .overflow) ∧
      ∀ cause now, (b.ledger.fail id cause now).checked = .error .overflow) ∧
    (∀ t : TaskSnapshot, t.retries = m →
      ((Board.runningLine t).checked = .error .overflow ↔ ¬ m.toNat < 2 ^ 32 - 1) ∧
      (Board.runningLine t).unchecked = Board.attemptLine t ((m.toNat + 1) % 2 ^ 32) ∧
      ((Board.runningLine t).unchecked = Board.attemptLine t (m.toNat + 1) ↔
        m.toNat < 2 ^ 32 - 1)) ∧
    ∃ text t, Wire.decode TaskSnapshot.shape TaskSnapshot.ofJson? text = some t ∧
      t.status = .running ∧ t.retries = m := by
  refine ⟨?_, ?_, fun hm => ?_, ?_, _, _, (Board.sendable_shown m).decode_text, rfl, rfl⟩
  · rintro l id t ht rfl hle
    exact Ledger.counts ht hle
  · rintro hm ps id t hd ht rfl
    exact (Books.sound_after hd).exact ht hm
  · obtain ⟨b, t, hb⟩ := Books.exhausting hm
    have hd : (inserted (Books.rounds (Books.lenient m) m.toNat)).Nodup := by
      rw [Books.inserted_rounds]
      exact List.nodup_singleton _
    exact ⟨_, b, _, t, hd, hb⟩
  · rintro t rfl
    refine ⟨?_, Board.unchecked_runningLine t, Board.runningLine_eq_iff t⟩
    rw [Overflowing.checked_eq_error, Board.runningLine_overflow]
    exact and_iff_left rfl

/-- a task that may be retried once is counted right, here as it begins again, and one that may be
retried as often as can be counted is not, in the end -/
theorem attempts_exact_iff_relaunched :
    (∃ t, (Books.after Books.relaunched).ledger.find? ⟨1⟩ = some t ∧
      (Books.after Books.relaunched).ledger.Counts ⟨1⟩ t) ∧
    (Books.after Books.relaunched).Exact ⟨1⟩ ∧
    (Board.runningLine (Board.shown 1)).checked = .ok "worker 7: cache-cleanup (attempt 2)" ∧
    ∃ ps b id, Books.checkedAfter ps = .ok b ∧
      ∀ cause now, (b.ledger.fail id cause now).checked = .error .overflow := by
  obtain ⟨hledger, hbooks, -, hboard, -⟩ := attempts_exact_iff 1
  have hd : (inserted Books.relaunched).Nodup := by decide
  refine ⟨⟨_, rfl, hledger _ _ _ rfl rfl (by decide)⟩, ?_, ?_, ?_⟩
  · exact hbooks (by decide) Books.relaunched ⟨1⟩ _ hd rfl rfl
  · obtain ⟨-, -, hline⟩ := hboard (Board.shown 1) rfl
    exact Overflowing.checked_eq_ok.mpr ⟨rfl, hline.mpr (by decide)⟩
  · have hlast := (attempts_exact_iff 4294967295).2.2.1
    obtain ⟨ps, b, id, _, -, hb, -, -, -, hfail⟩ := hlast (by decide)
    exact ⟨ps, b, id, hb, hfail⟩

/-- a task that has been retried as often as can be counted, and may not be retried again -/
def spent : Task := Books.worn (Books.lenient 4294967295) 4294967295

/-- **attempts are not always counted right**: the last attempt may overflow as it begins and as it
fails, and so may the board -/
theorem attempts_not_exact :
    (¬ ∀ (l : Ledger) (id : TaskId) (t : Task) (worker : WorkerId) (now : Timestamp),
      l.find? id = some t → t.retries ≤ t.terms.maxRetries →
      (l.startAttempt id worker now).overflow = false) ∧
    (¬ ∀ (l : Ledger) (id : TaskId) (t : Task) (cause : FailureCause) (now : Timestamp),
      l.find? id = some t → t.retries ≤ t.terms.maxRetries →
      (l.fail id cause now).overflow = false) ∧
    ¬ ∀ (text : String) (t : TaskSnapshot),
      Wire.decode TaskSnapshot.shape TaskSnapshot.ofJson? text = some t → t.status = .running →
      (Board.runningLine t).overflow = false := by
  refine ⟨fun h => ?_, fun h => ?_, fun h => ?_⟩
  · cases h ⟨[spent]⟩ ⟨1⟩ spent 0 ⟨0, 0⟩ rfl (by decide)
  · cases h ⟨[spent]⟩ ⟨1⟩ spent (.handler "") ⟨0, 0⟩ rfl (by decide)
  · cases h _ (Board.shown 4294967295) (Board.sendable_shown _).decode_text rfl

end TaskPool
