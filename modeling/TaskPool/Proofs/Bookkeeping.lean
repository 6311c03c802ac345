import TaskPool.Proofs.Coherence
import TaskPool.Proofs.Posting
import Mathlib.Data.List.Induction

/-!
# The books of a ledger

`Books` are a ledger together with a log of all that is seen of its tasks.

* `Story`            what can have been seen of one task, and where it stands then
* `Upheld`           what follows for a task in the ledger, and `Closed` for one that has left it
* `Books.Sound`      each task has a story, and only those that came
* `Books.Regular`    how the ledger and the log fit together
* `Books.Lawful`     what the next posting may do, and what it may not
* `Books.correct`    all of this after any postings, in any order and with any arguments, if no task
                     comes twice

Why the numbers of the attempts are given up to 2 ^ 32: they are counted in 32 bits, so that after
the greatest one they begin at zero.  A task that may be retried fewer than 2 ^ 32 - 1 times does
not get that far.
-/

namespace TaskPool

/-! ## one task -/

namespace Mark

def number? : Mark → Option UInt32
  | started n => some n
  | _ => none

def isFailed : Mark → Bool
  | failed => true
  | _ => false

def isEnd : Mark → Bool
  | ended _ => true
  | _ => false

end Mark

/-- the numbers of the attempts, in the order in which they began -/
def numbers (told : List Mark) : List UInt32 := told.filterMap Mark.number?

/-- what can have been seen of a task, and where it stands then -/
inductive Story (id : TaskId) : List Mark → Option Standing → Prop where
  | untold : Story id [] none
  | came (terms : Terms) : Story id [.came terms] (some ⟨terms, .queued, 0, 0⟩)
  | next {told marks : List Mark} {s : Standing} {o : Option Standing} {p : Posting} :
      Story id told (some s) → Advance id p (some s) marks o → Story id (told ++ marks) o

/-- the first `n` numbers of attempts -/
def firstNumbers (n : Nat) : List UInt32 := (List.range n).map fun i => UInt32.ofNat (i + 1)

/-- a task in the ledger stands where its story has brought it -/
structure Upheld (told : List Mark) (s : Standing) : Prop where
  came : told.head? = some (.came s.terms)
  status : s.status.isTerminal = false
  retries : s.retries.toNat = told.countP Mark.isFailed
  retries_le : s.retries ≤ s.terms.maxRetries
  consecutive : numbers told = firstNumbers (numbers told).length
  attempt : s.attempt = UInt32.ofNat (numbers told).length
  /-- each attempt but the one that runs has failed -/
  few : (numbers told).length ≤ s.retries.toNat + if s.status = .running then 1 else 0
  last : ∀ n, told.getLast? = some (.started n) ↔ s.status = .running ∧ s.attempt = n
  lasting : told.countP Mark.isEnd = 0

/-- a task that has left the ledger has one outcome, which is the last that is seen of it -/
structure Closed (told : List Mark) : Prop where
  came : ∃ terms, told.head? = some (.came terms) ∧
    told.countP Mark.isFailed ≤ terms.maxRetries.toNat ∧
    (numbers told).length ≤ terms.maxRetries.toNat + 1
  consecutive : numbers told = firstNumbers (numbers told).length
  last : ∃ outcome, told.getLast? = some (.ended outcome)
  once : told.countP Mark.isEnd = 1

/-- what is known of a task by its story -/
def Told (told : List Mark) : Option Standing → Prop
  | some s => Upheld told s
  | none => told = [] ∨ Closed told

theorem numbers_snoc (told : List Mark) (m : Mark) :
    numbers (told ++ [m]) = numbers told ++ m.number?.toList := by
  rw [numbers, List.filterMap_append]
  cases h : m.number? with
  | none => rw [List.filterMap_cons_none h]; rfl
  | some n => rw [List.filterMap_cons_some h]; rfl

theorem firstNumbers_succ (n : Nat) :
    firstNumbers (n + 1) = firstNumbers n ++ [UInt32.ofNat (n + 1)] := by
  rw [firstNumbers, List.range_succ, List.map_append]
  rfl

/-- as long as they fit, the numbers grow -/
theorem pairwise_firstNumbers {n : Nat} (h : n < UInt32.size) :
    (firstNumbers n).Pairwise fun a b => a < b := by
  refine List.pairwise_map.mpr (List.pairwise_lt_range.imp_of_mem fun {i j} _ hj hij => ?_)
  have hlast := List.mem_range.mp hj
  rw [UInt32.lt_iff_toNat_lt, UInt32.toNat_ofNat', UInt32.toNat_ofNat']
  have hsize : UInt32.size = 2 ^ 32 := rfl
  rw [Nat.mod_eq_of_lt (by omega), Nat.mod_eq_of_lt (by omega)]
  omega

namespace Upheld

variable {told : List Mark} {s : Standing}

theorem new (terms : Terms) : Upheld [.came terms] ⟨terms, .queued, 0, 0⟩ where
  came := rfl
  status := rfl
  retries := rfl
  retries_le := Nat.zero_le _
  consecutive := rfl
  attempt := rfl
  few := Nat.le_refl _
  last _ := ⟨nofun, nofun⟩
  lasting := rfl

theorem ne_nil (h : Upheld told s) : told ≠ [] := by
  rintro rfl
  exact absurd h.came nofun

theorem head_snoc (h : Upheld told s) (m : Mark) : (told ++ [m]).head? = some (.came s.terms) := by
  rw [List.head?_append_of_ne_nil _ h.ne_nil]
  exact h.came

theorem started (h : Upheld told s) (hs : s.status = .queued) :
    Upheld (told ++ [.started (s.attempt + 1)])
      { s with
        status := .running
        attempt := s.attempt + 1 } := by
  have hnumbers : numbers (told ++ [.started (s.attempt + 1)])
      = numbers told ++ [s.attempt + 1] := numbers_snoc _ _
  have hattempt : s.attempt + 1 = UInt32.ofNat ((numbers told).length + 1) := by
    rw [UInt32.ofNat_add, ← h.attempt]
    rfl
  have hfew := h.few
  rw [hs, if_neg (by decide)] at hfew
  refine ⟨h.head_snoc _, rfl, ?_, h.retries_le, ?_, ?_, ?_, fun n => ?_, ?_⟩
  · rw [List.countP_append, ← h.retries]
    rfl
  · rw [hnumbers, List.length_append, List.length_singleton, firstNumbers_succ, ← h.consecutive,
      hattempt]
  · rw [hnumbers, List.length_append]
    exact hattempt
  · rw [hnumbers, List.length_append, if_pos rfl]
    exact Nat.succ_le_succ hfew
  · simp
  · rw [List.countP_append, h.lasting]
    rfl

theorem failed (h : Upheld told s) (hr : s.retries < s.terms.maxRetries) :
    Upheld (told ++ [.failed])
      { s with
        status := .retrying
        retries := s.retries + 1 } := by
  have hnumbers : numbers (told ++ [.failed]) = numbers told :=
    (numbers_snoc _ _).trans (List.append_nil _)
  have hnext := toNat_add_one_of_lt hr
  have hfew : (numbers told).length ≤ s.retries.toNat + 1 := by
    refine Nat.le_trans h.few (Nat.add_le_add_left ?_ _)
    split <;> decide
  refine ⟨h.head_snoc _, rfl, ?_, ?_, ?_, ?_, ?_, fun n => ?_, ?_⟩
  · rw [List.countP_append, hnext, h.retries]
    rfl
  · rw [UInt32.le_iff_toNat_le, hnext]
    exact UInt32.lt_iff_toNat_lt.mp hr
  · rw [hnumbers]
    exact h.consecutive
  · rw [hnumbers]
    exact h.attempt
  · rw [hnumbers, hnext]
    exact hfew
  · simp
  · rw [List.countP_append, h.lasting]
    rfl

theorem reset (h : Upheld told s) (hs : s.status = .retrying) :
    Upheld (told ++ [.reset]) { s with status := .queued } := by
  have hnumbers : numbers (told ++ [.reset]) = numbers told :=
    (numbers_snoc _ _).trans (List.append_nil _)
  have hfew := h.few
  rw [hs, if_neg (by decide)] at hfew
  refine ⟨h.head_snoc _, rfl, ?_, h.retries_le, ?_, ?_, ?_, fun n => ?_, ?_⟩
  · rw [List.countP_append, h.retries]
    rfl
  · rw [hnumbers]
    exact h.consecutive
  · rw [hnumbers]
    exact h.attempt
  · rw [hnumbers]
    exact hfew
  · simp
  · rw [List.countP_append, h.lasting]
    rfl

theorem ended (h : Upheld told s) (outcome : Outcome) : Closed (told ++ [.ended outcome]) := by
  have hnumbers : numbers (told ++ [.ended outcome]) = numbers told :=
    (numbers_snoc _ _).trans (List.append_nil _)
  have hle := UInt32.le_iff_toNat_le.mp h.retries_le
  have hfew : (numbers told).length ≤ s.terms.maxRetries.toNat + 1 := by
    refine Nat.le_trans h.few (Nat.add_le_add hle ?_)
    split <;> decide
  refine ⟨⟨s.terms, h.head_snoc _, ?_, ?_⟩, ?_, ⟨outcome, by simp⟩, ?_⟩
  · rw [List.countP_append, ← h.retries]
    exact hle
  · rw [hnumbers]
    exact hfew
  · rw [hnumbers]
    exact h.consecutive
  · rw [List.countP_append, h.lasting]
    rfl

end Upheld

/-- a task that is not in the ledger can only come -/
theorem Advance.of_none {id : TaskId} {p : Posting} {marks : List Mark} {o : Option Standing}
    (h : Advance id p none marks o) : marks = [] ∧ o = none ∨
      ∃ terms now, p = .insert id terms now ∧ marks = [.came terms] ∧
        o = some ⟨terms, .queued, 0, 0⟩ := by
  cases h with
  | still => exact .inl ⟨rfl, rfl⟩
  | came terms now => exact .inr ⟨terms, now, rfl, rfl, rfl⟩

/-- how a task that stays in the ledger may move: it stands as before, or an attempt begins, or one
fails and is to be followed by another, or the next one is due -/
inductive Moves (id : TaskId) (p : Posting) (s s' : Standing) : Prop where
  | stays : s' = s → Moves id p s s'
  | begins (worker : WorkerId) (now : Timestamp) :
      p = .start id worker now → s.status = .queued → s'.status = .running →
      s'.retries = s.retries → s'.terms = s.terms → Moves id p s s'
  | fails (cause : FailureCause) (now : Timestamp) :
      p = .fail id cause now → s.status = .queued ∨ s.status = .running →
      s'.status = .retrying → s'.retries.toNat = s.retries.toNat + 1 → s'.terms = s.terms →
      Moves id p s s'
  | returns :
      p = .reset id → s.status = .retrying → s'.status = .queued → s'.retries = s.retries →
      s'.terms = s.terms → Moves id p s s'

namespace Advance

variable {id : TaskId} {p : Posting} {marks told : List Mark} {s s' : Standing}
  {o o' : Option Standing}

theorem moves (h : Advance id p (some s) marks (some s')) (hup : Upheld told s) :
    Moves id p s s' := by
  cases h with
  | still => exact .stays rfl
  | started worker now hs => exact .begins worker now rfl hs rfl rfl rfl
  | failed cause now hs hr =>
    refine .fails cause now rfl ?_ rfl (toNat_add_one_of_lt hr) rfl
    have hopen := hup.status
    cases hstatus : s.status with
    | queued => exact .inl rfl
    | running => exact .inr rfl
    | retrying => exact absurd hstatus hs
    | completed | failed | timeout | cancelled =>
      rw [hstatus] at hopen
      cases hopen
  | reset hs => exact .returns rfl hs rfl rfl rfl

/-- who leaves hears one outcome -/
theorem countP_isEnd (h : Advance id p o marks o') :
    marks.countP Mark.isEnd = if o.isSome ∧ o' = none then 1 else 0 := by
  cases h with
  | still =>
    rw [if_neg]
    · rfl
    · rintro ⟨hsome, rfl⟩
      cases hsome
  | came | started | failed | reset | ended => rfl

theorem number (h : Advance id p o marks o') {n : UInt32} (hn : .started n ∈ marks) :
    ∃ s, o = some s ∧ n = s.attempt + 1 := by
  cases h with
  | @started s => exact ⟨s, rfl, by simpa using hn⟩
  | still | came | failed | reset | ended => simp at hn

end Advance

/-- **a story tells where a task stands** -/
theorem Story.told {id : TaskId} {told : List Mark} {o : Option Standing} (h : Story id told o) :
    Told told o := by
  induction h with
  | untold => exact .inl rfl
  | came terms => exact .new terms
  | next _ hadvance ih =>
    cases hadvance with
    | still =>
      rw [List.append_nil]
      exact ih
    | started worker now hs => exact ih.started hs
    | failed cause now _ hr => exact ih.failed hr
    | reset hs => exact ih.reset hs
    | ended hcloses => exact .inr (ih.ended _)

/-! ## all tasks -/

def Posting.inserted? : Posting → Option TaskId
  | .insert id .. => some id
  | _ => none

/-- the tasks that are put in, as often as they are -/
def inserted (ps : List Posting) : List TaskId := ps.filterMap Posting.inserted?

/-- a ledger, and what is seen of its tasks -/
structure Books where
  ledger : Ledger
  log : List (TaskId × Mark)

namespace Books

/-- what is seen of a task -/
def told (b : Books) (id : TaskId) : List Mark := marksOf id b.log

def post (b : Books) (p : Posting) : Books :=
  ⟨(b.ledger.post p).ledger, b.log ++ (b.ledger.post p).marks⟩

/-- the books of an empty ledger after some postings -/
def after (ps : List Posting) : Books := ps.foldl post ⟨.empty, []⟩

theorem after_snoc (ps : List Posting) (p : Posting) : after (ps ++ [p]) = (after ps).post p :=
  List.foldl_concat ..

theorem told_post (b : Books) (p : Posting) (id : TaskId) :
    (b.post p).told id = b.told id ++ marksOf id (b.ledger.post p).marks := marksOf_append ..

/-- each task has a story, and is one of those that were put in -/
structure Sound (b : Books) (ids : List TaskId) : Prop where
  nodup : b.ledger.ids.Nodup
  story : ∀ id, Story id (b.told id) (b.ledger.standing? id)
  known : ∀ id, b.told id ≠ [] → id ∈ ids

variable {b : Books} {ids : List TaskId} {p : Posting} {ps : List Posting}

theorem Sound.told_ne_nil (h : b.Sound ids) {id : TaskId} {s : Standing}
    (hs : b.ledger.standing? id = some s) : b.told id ≠ [] := by
  have htold := (h.story id).told
  rw [hs] at htold
  exact htold.ne_nil

/-- nothing is known of a task that was not put in yet -/
theorem Sound.find?_of_notMem (h : b.Sound ids) {id : TaskId} (hid : id ∉ ids) :
    b.told id = [] ∧ b.ledger.find? id = none := by
  have hnone : b.told id = [] := by
    by_contra hne
    exact hid (h.known id hne)
  refine ⟨hnone, ?_⟩
  cases hs : b.ledger.standing? id with
  | none => exact Ledger.standing?_eq_none.mp hs
  | some s => exact absurd hnone (h.told_ne_nil hs)

/-- the tasks that come are new -/
theorem inserted_snoc_nodup (hd : (inserted (ps ++ [p])).Nodup) :
    (inserted ps).Nodup ∧ ∀ id terms now, p = .insert id terms now → id ∉ inserted ps := by
  rw [inserted, List.filterMap_append, List.nodup_append] at hd
  refine ⟨hd.1, ?_⟩
  rintro id terms now rfl hmem
  exact hd.2.2 id hmem id (List.mem_singleton_self id) rfl

theorem Sound.advance (h : b.Sound ids)
    (hnew : ∀ id terms now, p = .insert id terms now → id ∉ ids) (id : TaskId) :
    Advance id p (b.ledger.standing? id) (marksOf id (b.ledger.post p).marks)
      ((b.ledger.post p).ledger.standing? id) :=
  Ledger.advance h.nodup (fun a terms now hp => (h.find?_of_notMem (hnew a terms now hp)).2) id

theorem Sound.post (h : b.Sound ids)
    (hnew : ∀ id terms now, p = .insert id terms now → id ∉ ids) :
    (b.post p).Sound (ids ++ p.inserted?.toList) := by
  refine ⟨?_, fun id => ?_, fun id hne => ?_⟩
  · exact Ledger.nodup_post h.nodup fun a terms now hp =>
      (h.find?_of_notMem (hnew a terms now hp)).2
  · have hadvance := h.advance hnew id
    have hstory := h.story id
    rw [told_post]
    cases hs : b.ledger.standing? id with
    | some s =>
      rw [hs] at hadvance hstory
      exact .next hstory hadvance
    | none =>
      rw [hs] at hadvance hstory
      show Story id _ ((b.ledger.post p).ledger.standing? id)
      rcases hadvance.of_none with ⟨hmarks, ho⟩ | ⟨terms, now, hp, hmarks, ho⟩
      · rw [hmarks, ho, List.append_nil]
        exact hstory
      · rw [hmarks, ho, (h.find?_of_notMem (hnew id terms now hp)).1]
        exact .came terms
  · -- what is seen of a task is seen when it comes, or it was known before
    rw [told_post] at hne
    by_cases htold : b.told id = []
    · have hadvance := h.advance hnew id
      cases hs : b.ledger.standing? id with
      | some s => exact absurd htold (h.told_ne_nil hs)
      | none =>
        rw [hs] at hadvance
        rcases hadvance.of_none with ⟨hmarks, -⟩ | ⟨terms, now, rfl, -⟩
        · rw [htold, hmarks] at hne
          exact absurd rfl hne
        · exact List.mem_append_right _ (List.mem_singleton_self id)
    · exact List.mem_append_left _ (h.known id htold)

theorem sound_after (hd : (inserted ps).Nodup) : (after ps).Sound (inserted ps) := by
  induction ps using List.reverseRecOn with
  | nil => exact ⟨List.nodup_nil, fun _ => .untold, fun _ h => absurd rfl h⟩
  | append_singleton ps p ih =>
    obtain ⟨hfewer, hnew⟩ := inserted_snoc_nodup hd
    have hsound := (ih hfewer).post hnew
    rw [after_snoc]
    have hinserted : inserted (ps ++ [p]) = inserted ps ++ p.inserted?.toList := by
      rw [inserted, List.filterMap_append]
      congr 1
    rw [hinserted]
    exact hsound

/-! ## what holds at any time -/

/-- how the ledger and the log fit together -/
structure Regular (b : Books) : Prop where
  status : ∀ id t, b.ledger.find? id = some t → t.status.isTerminal = false
  retries : ∀ id t, b.ledger.find? id = some t →
    t.retries.toNat = (b.told id).countP Mark.isFailed ∧ t.retries ≤ t.terms.maxRetries
  lasting : ∀ id t, b.ledger.find? id = some t →
    (b.told id).head? = some (.came t.terms) ∧ (b.told id).countP Mark.isEnd = 0
  gone : ∀ id, b.ledger.find? id = none → b.told id ≠ [] →
    (b.told id).countP Mark.isEnd = 1 ∧ ∃ outcome, (b.told id).getLast? = some (.ended outcome)
  few : ∀ id terms, (b.told id).head? = some (.came terms) →
    (b.told id).countP Mark.isFailed ≤ terms.maxRetries.toNat ∧
      (numbers (b.told id)).length ≤ terms.maxRetries.toNat + 1
  consecutive : ∀ id, numbers (b.told id) = firstNumbers (numbers (b.told id)).length
  increasing : ∀ id, (numbers (b.told id)).length < UInt32.size →
    (numbers (b.told id)).Pairwise fun m n => m < n

/-- what the next posting may do, and what it may not -/
structure Lawful (b : Books) (p : Posting) : Prop where
  accepted : (b.ledger.post p).accepted = true ↔ p.Applies b.ledger
  refused : (b.ledger.post p).accepted = false →
    (b.ledger.post p).ledger = b.ledger ∧ (b.ledger.post p).marks = []
  moves : ∀ id t t', b.ledger.find? id = some t → (b.ledger.post p).ledger.find? id = some t' →
    Moves id p t.standing t'.standing
  came : ∀ id t', b.ledger.find? id = none → (b.ledger.post p).ledger.find? id = some t' →
    ∃ terms now, p = .insert id terms now ∧ t'.standing = ⟨terms, .queued, 0, 0⟩
  /-- who leaves hears one outcome, and nobody else hears any -/
  removal : ∀ id, (marksOf id (b.ledger.post p).marks).countP Mark.isEnd =
    if (b.ledger.find? id).isSome ∧ (b.ledger.post p).ledger.find? id = none then 1 else 0
  number : ∀ id n, .started n ∈ marksOf id (b.ledger.post p).marks →
    n = UInt32.ofNat ((numbers (b.told id)).length + 1)
  /-- only the attempt that began last can run out of time, and only before it has failed -/
  timeOut : ∀ id attempt, p = .timeOut id attempt →
    ((b.ledger.post p).accepted = true ↔ (b.told id).getLast? = some (.started attempt))

section
variable (h : b.Sound ids)
include h

theorem Sound.upheld {id : TaskId} {t : Task} (ht : b.ledger.find? id = some t) :
    Upheld (b.told id) t.standing := by
  have htold := (h.story id).told
  rw [Ledger.standing?_of_find? ht] at htold
  exact htold

theorem Sound.closed {id : TaskId} (hnone : b.ledger.find? id = none) :
    b.told id = [] ∨ Closed (b.told id) := by
  have htold := (h.story id).told
  rw [Ledger.standing?_eq_none.mpr hnone] at htold
  exact htold

theorem Sound.consecutive (id : TaskId) :
    numbers (b.told id) = firstNumbers (numbers (b.told id)).length := by
  cases ht : b.ledger.find? id with
  | some t => exact (h.upheld ht).consecutive
  | none =>
    rcases h.closed ht with hnil | hclosed
    · rw [hnil]
      rfl
    · exact hclosed.consecutive

theorem Sound.few {id : TaskId} {terms : Terms} (hcame : (b.told id).head? = some (.came terms)) :
    (b.told id).countP Mark.isFailed ≤ terms.maxRetries.toNat ∧
      (numbers (b.told id)).length ≤ terms.maxRetries.toNat + 1 := by
  cases ht : b.ledger.find? id with
  | some t =>
    have hup := h.upheld ht
    cases hcame.symm.trans hup.came
    have hretries : t.retries.toNat ≤ t.terms.maxRetries.toNat := hup.retries_le
    refine ⟨hup.retries ▸ hretries, Nat.le_trans hup.few (Nat.add_le_add hretries ?_)⟩
    split <;> decide
  | none =>
    rcases h.closed ht with hnil | hclosed
    · rw [hnil] at hcame
      cases hcame
    · obtain ⟨terms', hcame', hfailed, hfew⟩ := hclosed.came
      cases hcame.symm.trans hcame'
      exact ⟨hfailed, hfew⟩

theorem Sound.regular : b.Regular where
  status _ _ ht := (h.upheld ht).status
  retries _ _ ht := ⟨(h.upheld ht).retries, (h.upheld ht).retries_le⟩
  lasting _ _ ht := ⟨(h.upheld ht).came, (h.upheld ht).lasting⟩
  gone _ hnone hne := by
    have hclosed := (h.closed hnone).resolve_left hne
    exact ⟨hclosed.once, hclosed.last⟩
  few _ _ hcame := h.few hcame
  consecutive := h.consecutive
  increasing id hlen := by
    rw [h.consecutive id]
    exact pairwise_firstNumbers hlen

theorem Sound.timeOut {id : TaskId} {attempt : UInt32} :
    (Posting.timeOut id attempt).Applies b.ledger ↔
      (b.told id).getLast? = some (.started attempt) := by
  constructor
  · rintro ⟨t, ht, hrunning, rfl⟩
    exact ((h.upheld ht).last _).mpr ⟨hrunning, rfl⟩
  · intro hlast
    cases ht : b.ledger.find? id with
    | some t =>
      obtain ⟨hrunning, hattempt⟩ := ((h.upheld ht).last attempt).mp hlast
      exact ⟨t, ht, hrunning, hattempt⟩
    | none =>
      rcases h.closed ht with hnil | hclosed
      · rw [hnil] at hlast
        cases hlast
      · obtain ⟨outcome, hend⟩ := hclosed.last
        cases hlast.symm.trans hend

theorem Sound.lawful (hnew : ∀ id terms now, p = .insert id terms now → id ∉ ids) :
    b.Lawful p where
  accepted := b.ledger.accepted_iff p
  refused := Ledger.post_refused
  moves id t t' ht ht' := by
    have hadvance := h.advance hnew id
    rw [Ledger.standing?_of_find? ht, Ledger.standing?_of_find? ht'] at hadvance
    exact hadvance.moves (h.upheld ht)
  came id t' hnone ht' := by
    have hadvance := h.advance hnew id
    rw [Ledger.standing?_eq_none.mpr hnone, Ledger.standing?_of_find? ht'] at hadvance
    rcases hadvance.of_none with ⟨-, ho⟩ | ⟨terms, now, hp, -, ho⟩
    · cases ho
    · exact ⟨terms, now, hp, Option.some.inj ho⟩
  removal id := by
    have hcount := (h.advance hnew id).countP_isEnd
    simp only [Ledger.standing?, Option.isSome_map, Option.map_eq_none_iff] at hcount
    exact hcount
  number id n hn := by
    obtain ⟨s, hs, rfl⟩ := (h.advance hnew id).number hn
    obtain ⟨t, ht, rfl⟩ := Ledger.standing?_eq_some.mp hs
    rw [(h.upheld ht).attempt, UInt32.ofNat_add]
    rfl
  timeOut id attempt hp := by
    subst hp
    rw [Ledger.accepted_iff]
    exact h.timeOut

end

/-- **the ledger keeps its books**: after any postings the ledger and the log fit together, and the
next posting does what it may and nothing else, if no task comes twice -/
theorem correct (ps : List Posting) (hd : (inserted ps).Nodup) :
    (after ps).Regular ∧ ∀ p, (inserted (ps ++ [p])).Nodup → (after ps).Lawful p :=
  ⟨(sound_after hd).regular, fun _ hsnoc =>
    (sound_after hd).lawful (inserted_snoc_nodup hsnoc).2⟩

/-- a task fails once and begins again, while another one waits -/
def relaunched : List Posting :=
  let terms : Terms := ⟨.cacheCleanup, .null, .normal, .ofMillis 1000, 1, .ofMillis 10⟩
  [.insert ⟨1⟩ terms ⟨0, 0⟩,
    .insert ⟨2⟩ terms ⟨0, 0⟩,
    .start ⟨1⟩ 5 ⟨1, 0⟩,
    .fail ⟨1⟩ (.handler "flaky") ⟨2, 0⟩,
    .reset ⟨1⟩,
    .start ⟨1⟩ 6 ⟨3, 0⟩]

/-- only its second attempt can run out of time, and when both tasks are drained both hear of it -/
theorem correct_relaunched : (inserted relaunched).Nodup ∧
    numbers ((after relaunched).told ⟨1⟩) = [1, 2] ∧
    ((after relaunched).ledger.post (.timeOut ⟨1⟩ 1)).accepted = false ∧
    ((after relaunched).ledger.post (.timeOut ⟨1⟩ 2)).accepted = true ∧
    ∀ id ∈ inserted relaunched,
      (marksOf id ((after relaunched).ledger.post (.drain .shutdown)).marks).countP Mark.isEnd
        = 1 := by
  have hd : (inserted relaunched).Nodup := by decide
  have hlast : ((after relaunched).told ⟨1⟩).getLast? = some (.started 2) := rfl
  obtain ⟨hregular, hlawful⟩ := correct relaunched hd
  have hfirst := (hlawful (.timeOut ⟨1⟩ 1) hd).timeOut _ _ rfl
  have hsecond := (hlawful (.timeOut ⟨1⟩ 2) hd).timeOut _ _ rfl
  refine ⟨hd, hregular.consecutive ⟨1⟩, ?_, hsecond.mpr hlast, fun id hid => ?_⟩
  · rw [← Bool.not_eq_true, hfirst, hlast]
    exact nofun
  · rw [(hlawful (.drain .shutdown) hd).removal id, if_pos]
    refine ⟨?_, rfl⟩
    revert id
    decide

end Books

end TaskPool
