import TaskPool.Proofs.Identifiers
import TaskPool.Proofs.Instants
import TaskPool.Proofs.Rereading
import TaskPool.Wire.Task
import TaskPool.Wire.Worker

/-!
# What is sent is received unchanged

* `Wire.decode`       a text received as a value of a type
* `Wire.Carried`      a value's JSON is read back by its shape, and the shape's answer is that value
* `carried_optional`, `carried_kinds`, `carried_counts`   values that are made of such values
* `TaskSnapshot.Sendable`, `Stats.Sendable`, …   the values that the numbers and times of the wire
                      can say
* `Wire.answers_unchanged`   each of the answers, received as it was sent
-/

namespace TaskPool

open Shape Json

namespace Wire

variable {α : Type}

/-- a text received as a value -/
def decode (s : Shape) (ofJson? : Json → Option α) (text : String) : Option α :=
  (s.ofText text).toOption.bind ofJson?

/-- a value that is read back from its JSON text, and received as itself -/
structure Carried (s : Shape) (json : α → Json) (ofJson? : Json → Option α) (d : Nat) (a : α) :
    Prop where
  reads : s.Reads d (json a)
  back : ofJson? (json a) = some a

variable {s : Shape} {json : α → Json} {ofJson? : Json → Option α} {d : Nat}

theorem Carried.decode_text {a : α} (h : Carried s json ofJson? nestingLimit a) :
    decode s ofJson? (json a).text = some a := by
  rw [decode, ofText_of_reads h.reads]
  exact h.back

/-! ## simple values -/

theorem carried_uuid {u : Uuid} (h : u.value < 2 ^ 128) :
    Carried .uuid Uuid.json Uuid.ofJson? d u where
  reads := reads_parsed (by rw [Uuid.ofText_text h]; rfl)
  back := by
    rw [Uuid.ofJson?, Uuid.json, string?, Option.bind_some, Uuid.ofText_text h]
    rfl

theorem carried_moment {t : Timestamp} (h : Rfc3339.Plain t) :
    Carried .moment Timestamp.json Timestamp.ofJson? d t where
  reads := reads_parsed (by rw [h.read_write]; rfl)
  back := by
    rw [Timestamp.ofJson?, Timestamp.json, string?, Option.bind_some, h.read_write]
    rfl

/-- a name from a list of names -/
theorem carried_name {all : List α} {name : α → String} {ofName? : String → Option α}
    (hall : ∀ a, a ∈ all) (hname : ∀ a, ofName? (name a) = some a) (a : α) :
    Carried (.choice (all.map name)) (fun a => .string (name a)) (fun j => j.string?.bind ofName?)
      d a where
  reads := reads_choice (List.mem_map_of_mem (hall a))
  back := hname a

theorem carried_kind (k : Kind) : Carried .kind Kind.json Kind.ofJson? d k :=
  carried_name Kind.mem_all Kind.ofName?_name k

theorem carried_priority (p : Priority) : Carried .priority Priority.json Priority.ofJson? d p :=
  carried_name (fun p => by cases p <;> decide) Priority.ofName?_name p

theorem carried_status (t : Status) : Carried .status Status.json Status.ofJson? d t :=
  carried_name Status.mem_all Status.ofName?_name t

theorem carried_cancelOutcome (o : CancelOutcome) :
    Carried .cancelOutcome CancelOutcome.json CancelOutcome.ofJson? d o :=
  carried_name (fun o => by cases o <;> decide) CancelOutcome.ofName?_name o

theorem carried_string (s : String) : Carried .string Json.string Json.string? d s where
  reads := reads_string s
  back := rfl

theorem carried_boolean (b : Bool) : Carried .boolean Json.bool Json.bool? d b where
  reads := reads_boolean b
  back := rfl

theorem nat?_ofNat (n : Nat) : (ofNat n).nat? = some n := by
  show (if (n : Int) < 0 then none else some (n : Int).toNat) = some n
  rw [if_neg (by omega), Int.toNat_natCast]

/-- a number of 64 bits -/
theorem carried_word {n : Nat} (name : String) (h : n < 2 ^ 64) :
    Carried (.word name 64) Json.ofNat Json.nat? d n where
  reads := reads_word (Nat.le_refl 64) h
  back := nat?_ofNat n

theorem carried_u32 (n : UInt32) :
    Carried .u32 (fun n : UInt32 => .ofNat n.toNat) u32? d n where
  reads := reads_word (by omega) n.toNat_lt
  back := by
    rw [u32?, nat?_ofNat, Option.map_some, UInt32.ofNat_toNat]

/-! ## values made of values -/

theorem optional?_of_opens {j : Json} (hj : Opens j) :
    optional? ofJson? j = (ofJson? j).map some := by
  cases j with
  | null =>
    obtain ⟨c, cs, hcs, -, hn, -⟩ := hj
    cases hcs
    exact absurd rfl hn
  | _ => rfl

theorem carried_optional {o : Option α} (hopens : ∀ a ∈ o, Opens (json a))
    (h : ∀ a ∈ o, Carried s json ofJson? d a) :
    Carried (.optional s) (optional json) (optional? ofJson?) d o := by
  cases o with
  | none => exact ⟨reads_optional_null s, rfl⟩
  | some a =>
    refine ⟨reads_optional (hopens a rfl) (h a rfl).reads, ?_⟩
    rw [optional, optional?_of_opens (hopens a rfl), (h a rfl).back]
    rfl

/-- parts that are received as themselves make a list that is -/
theorem mapM_back {β : Type} {g : α → β} {f : β → Option α} {as : List α}
    (h : ∀ a ∈ as, f (g a) = some a) : (as.map g).mapM f = some as := by
  induction as with
  | nil => rfl
  | cons a as ih =>
    rw [List.map_cons, List.mapM_cons, h a (List.mem_cons_self ..),
      ih fun a ha => h a (List.mem_cons_of_mem _ ha)]
    rfl

theorem carried_moment? {o : Option Timestamp} (h : ∀ t ∈ o, Rfc3339.Plain t) :
    Carried (.optional .moment) (optional Timestamp.json) (optional? Timestamp.ofJson?) d o :=
  carried_optional (fun _ _ => opens_string _) fun t ht => carried_moment (h t ht)

theorem carried_kinds (ks : List Kind) :
    Carried (.list .kind) kindsJson (list? Kind.ofJson?) (d + 1) ks where
  reads := by
    refine reads_list (fun v hv => ?_) fun v hv => ?_
    · obtain ⟨k, -, rfl⟩ := List.mem_map.mp hv
      exact opens_string k.name
    · obtain ⟨k, -, rfl⟩ := List.mem_map.mp hv
      exact (carried_kind k).reads
  back := mapM_back fun k _ => (carried_kind (d := d) k).back

theorem carried_counts {all : List α} {name : α → String} {ofName? : String → Option α}
    (hname : ∀ a, ofName? (name a) = some a) (hn : (all.map name).Nodup) {cs : List (α × Nat)}
    (hs : (cs.map Prod.fst).Sublist all) (h : ∀ c ∈ cs, c.2 < 2 ^ 64) :
    Carried (.table (all.map name) .size) (fun cs => .object (cs.map (Stats.countJson name)))
      (Stats.counts? ofName?) (d + 1) cs where
  reads := by
    refine reads_table hn ?_ fun m hm => ?_
    · have hnames := hs.map name
      rw [List.map_map] at hnames ⊢
      exact hnames
    · obtain ⟨c, hc, rfl⟩ := List.mem_map.mp hm
      exact reads_word (Nat.le_refl 64) (h c hc)
  back := by
    refine mapM_back fun c _ => ?_
    show (do pure (← ofName? (name c.1), ← (ofNat c.2).nat?)) = some c
    rw [hname, nat?_ofNat]
    rfl

end Wire

/-! ## the answers -/

open Wire

/-- a task whose numbers and times the wire can say -/
structure TaskSnapshot.Sendable (t : TaskSnapshot) : Prop where
  id : t.id.value < 2 ^ 128
  created : Rfc3339.Plain t.created
  started : ∀ m ∈ t.started, Rfc3339.Plain m
  completed : ∀ m ∈ t.completed, Rfc3339.Plain m
  worker : ∀ w ∈ t.worker, w < 2 ^ 64

theorem TaskSnapshot.Sendable.decode_text {t : TaskSnapshot} (h : t.Sendable) :
    decode TaskSnapshot.shape TaskSnapshot.ofJson? t.json.text = some t := by
  have hid := carried_uuid (d := 126) h.id
  have hkind := carried_kind (d := 126) t.kind
  have hpriority := carried_priority (d := 126) t.priority
  have hstatus := carried_status (d := 126) t.status
  have hcreated := carried_moment (d := 126) h.created
  have hstarted := carried_moment? (d := 126) h.started
  have hcompleted := carried_moment? (d := 126) h.completed
  have hworker := carried_optional (d := 126) (fun w _ => opens_ofNat w)
    fun w hw => carried_word "u64" (h.worker w hw)
  have hretries := carried_u32 (d := 126) t.retries
  have hmax := carried_u32 (d := 126) t.maxRetries
  have herror := carried_optional (d := 126) (o := t.error) (fun s _ => opens_string s)
    fun s _ => carried_string s
  refine Carried.decode_text ⟨reads_record (by decide) ?_, ?_⟩
  · exact .cons ⟨rfl, hid.reads⟩ (.cons ⟨rfl, hkind.reads⟩ (.cons ⟨rfl, hpriority.reads⟩
      (.cons ⟨rfl, hstatus.reads⟩ (.cons ⟨rfl, hcreated.reads⟩ (.cons ⟨rfl, hstarted.reads⟩
      (.cons ⟨rfl, hcompleted.reads⟩ (.cons ⟨rfl, hworker.reads⟩ (.cons ⟨rfl, hretries.reads⟩
      (.cons ⟨rfl, hmax.reads⟩ (.cons ⟨rfl, herror.reads⟩ .nil))))))))))
  · simp [TaskSnapshot.ofJson?, TaskSnapshot.json, field?, get?, List.lookup_cons, hid.back,
      hkind.back, hpriority.back, hstatus.back, hcreated.back, hstarted.back, hcompleted.back,
      hworker.back, hretries.back, hmax.back, herror.back]

/-- counters that the wire can say, with the kinds and the statuses in their order, each once -/
structure Stats.Sendable (s : Stats) : Prop where
  workers : s.workerCount < 2 ^ 64 ∧ s.idleWorkers < 2 ^ 64 ∧ s.busyWorkers < 2 ^ 64
  tasks : s.queuedTasks < 2 ^ 64 ∧ s.activeTasks < 2 ^ 64
  kinds : (s.tasksByKind.map Prod.fst).Sublist Kind.all
  statuses : (s.tasksByStatus.map Prod.fst).Sublist Status.all
  kindCounts : ∀ c ∈ s.tasksByKind, c.2 < 2 ^ 64
  statusCounts : ∀ c ∈ s.tasksByStatus, c.2 < 2 ^ 64

theorem Stats.Sendable.decode_text {s : Stats} (h : s.Sendable) :
    decode Stats.shape Stats.ofJson? s.json.text = some s := by
  obtain ⟨hworkerCount, hidleWorkers, hbusyWorkers⟩ := h.workers
  have hrunning := carried_boolean (d := 126) s.running
  have hworkers := carried_word (d := 126) "usize" hworkerCount
  have hidle := carried_word (d := 126) "usize" hidleWorkers
  have hbusy := carried_word (d := 126) "usize" hbusyWorkers
  have hqueued := carried_word (d := 126) "usize" h.tasks.1
  have hactive := carried_word (d := 126) "usize" h.tasks.2
  have hkinds := carried_counts (d := 125) Kind.ofName?_name (by decide) h.kinds h.kindCounts
  have hstatuses := carried_counts (d := 125) Status.ofName?_name (by decide) h.statuses
    h.statusCounts
  refine Carried.decode_text ⟨reads_record (by decide) ?_, ?_⟩
  · exact .cons ⟨rfl, hrunning.reads⟩ (.cons ⟨rfl, hworkers.reads⟩ (.cons ⟨rfl, hidle.reads⟩
      (.cons ⟨rfl, hbusy.reads⟩ (.cons ⟨rfl, hqueued.reads⟩ (.cons ⟨rfl, hactive.reads⟩
      (.cons ⟨rfl, hkinds.reads⟩ (.cons ⟨rfl, hstatuses.reads⟩ .nil)))))))
  · simp [Stats.ofJson?, Stats.json, field?, get?, List.lookup_cons, hrunning.back, hworkers.back,
      hidle.back, hbusy.back, hqueued.back, hactive.back, hkinds.back, hstatuses.back]

theorem AffinityResponse.decode_text {r : AffinityResponse} (h : r.worker < 2 ^ 64) :
    decode AffinityResponse.shape AffinityResponse.ofJson? r.json.text = some r := by
  have hworker := carried_word (d := 126) "u64" h
  have haffinity : Carried (.optional (.list .kind)) (optional kindsJson)
      (optional? (list? Kind.ofJson?)) 126 r.affinity :=
    carried_optional (fun _ _ => opens_array _) fun ks _ => carried_kinds ks
  refine Carried.decode_text ⟨reads_record (by decide) ?_, ?_⟩
  · exact .cons ⟨rfl, hworker.reads⟩ (.cons ⟨rfl, haffinity.reads⟩ .nil)
  · simp [AffinityResponse.ofJson?, AffinityResponse.json, field?, get?, List.lookup_cons,
      hworker.back, haffinity.back]

theorem CancelResponse.decode_text {r : CancelResponse} (h : r.task.value < 2 ^ 128) :
    decode CancelResponse.shape CancelResponse.ofJson? r.json.text = some r := by
  have htask := carried_uuid (d := 126) h
  have houtcome := carried_cancelOutcome (d := 126) r.outcome
  have hcancelled := carried_boolean (d := 126) r.cancelled
  refine Carried.decode_text ⟨reads_record (by decide) ?_, ?_⟩
  · exact .cons ⟨rfl, htask.reads⟩ (.cons ⟨rfl, houtcome.reads⟩
      (.cons ⟨rfl, hcancelled.reads⟩ .nil))
  · simp [CancelResponse.ofJson?, CancelResponse.json, field?, get?, List.lookup_cons, htask.back,
      houtcome.back, hcancelled.back]

/-- **an answer is received as it was sent**, whatever it says within the reach of its numbers and
times -/
theorem Wire.answers_unchanged :
    (∀ t : TaskSnapshot, t.Sendable →
        decode TaskSnapshot.shape TaskSnapshot.ofJson? t.json.text = some t) ∧
      (∀ s : Stats, s.Sendable → decode Stats.shape Stats.ofJson? s.json.text = some s) ∧
      (∀ r : AffinityResponse, r.worker < 2 ^ 64 →
        decode AffinityResponse.shape AffinityResponse.ofJson? r.json.text = some r) ∧
      (∀ r : CancelResponse, r.task.value < 2 ^ 128 →
        decode CancelResponse.shape CancelResponse.ofJson? r.json.text = some r) :=
  ⟨fun _ h => h.decode_text, fun _ h => h.decode_text, fun _ h => AffinityResponse.decode_text h,
    fun _ h => CancelResponse.decode_text h⟩

/-- a task with a fraction of each length and an error that has to be escaped -/
def sampleTask : TaskSnapshot where
  id := ⟨0x0123456789abcdef0123456789abcdef⟩
  kind := .cacheCleanup
  priority := .high
  status := .failed
  created := ⟨951782400, 120000000⟩
  started := some ⟨951782401, 120345000⟩
  completed := some ⟨-62167219200, 7⟩
  worker := some (2 ^ 64 - 1)
  retries := 3
  maxRetries := 4294967295
  error := some "\"\\\n\x01é"

def sampleStats : Stats where
  running := true
  workerCount := 4
  idleWorkers := 1
  busyWorkers := 3
  queuedTasks := 2 ^ 64 - 1
  activeTasks := 0
  tasksByKind := [(.depositProcessing, 2), (.cacheCleanup, 0)]
  tasksByStatus := [(.running, 1), (.cancelled, 5)]

theorem Wire.answers_unchanged_samples :
    (sampleTask.Sendable ∧
        decode TaskSnapshot.shape TaskSnapshot.ofJson? sampleTask.json.text = some sampleTask) ∧
      (sampleStats.Sendable ∧
        decode Stats.shape Stats.ofJson? sampleStats.json.text = some sampleStats) ∧
      decode AffinityResponse.shape AffinityResponse.ofJson?
          (AffinityResponse.mk 7 (some [.cacheCleanup, .depositProcessing])).json.text
        = some ⟨7, some [.cacheCleanup, .depositProcessing]⟩ ∧
      decode CancelResponse.shape CancelResponse.ofJson?
          (CancelResponse.mk ⟨9⟩ .alreadyTerminal false).json.text
        = some ⟨⟨9⟩, .alreadyTerminal, false⟩ := by
  have htask : sampleTask.Sendable :=
    { id := by decide
      created := ⟨by decide, by decide, by decide⟩
      started := by
        rintro m ⟨⟩
        exact ⟨by decide, by decide, by decide⟩
      completed := by
        rintro m ⟨⟩
        exact ⟨by decide, by decide, by decide⟩
      worker := by
        rintro w ⟨⟩
        decide }
  have hstats : sampleStats.Sendable :=
    { workers := by decide
      tasks := by decide
      kinds := by decide
      statuses := by decide
      kindCounts := by decide
      statusCounts := by decide }
  obtain ⟨hsnapshot, hcounters, haffinity, hcancel⟩ := Wire.answers_unchanged
  exact ⟨⟨htask, hsnapshot _ htask⟩, ⟨hstats, hcounters _ hstats⟩, haffinity _ (by decide),
    hcancel _ (by decide)⟩

end TaskPool
