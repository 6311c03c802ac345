import TaskPool.Proofs.Backpressure
import TaskPool.Simulation.Session

/-!
# What a client is told that is at fault

A request is at fault for its path, its method or its body, or for the task or worker that it names.
The response says so, in all cases but one: no response is made for a body that is not even read,
since its length is not said, it is too long, or it is said to be no JSON.  Such a submission is
answered as if the server had failed, and such a list of kinds as if its method were wrong, which is
why the other routes of its path have rejected it.

* `HttpRequest.route_of_*`  the routes of a resource taken together
* `Pool.answer?`            the answer to every call that a route makes, and it is the only one
* `HttpRequest.Gets`        the responses to a request
* `HttpRequest.gets_iff`    a request that is answered at once has one response
* `Pool.Faults`             what is wrong with a request
* `Reachable.judged`        the response names the fault, where it has a name

Why faults and not rejections are what the responses are compared with: a rejection is one route's
opinion, and all routes of a resource but one reject the method, whatever is wrong.
-/

namespace TaskPool

/-! ## the routes of a resource -/

section routes

variable {r : HttpRequest} {resource : Resource} {ms : List HttpMethod} {e : Endpoint}
  {why : Rejection}

theorem firstEndpoint_of_notMem (hm : r.method ∉ ms) :
    firstEndpoint (ms.map (Endpoint.ofRoute r resource))
      = .error (ms.map fun _ => .wrongMethod) := by
  induction ms with
  | nil => rfl
  | cons m ms ih =>
    rw [List.mem_cons, not_or] at hm
    rw [List.map_cons, Endpoint.ofRoute, if_neg hm.1, firstEndpoint, ih hm.2]
    rfl

theorem firstEndpoint_of_ok (hm : r.method ∈ ms)
    (he : Endpoint.ofResource r resource r.method = .ok e) :
    firstEndpoint (ms.map (Endpoint.ofRoute r resource)) = .ok e := by
  induction ms with
  | nil => cases hm
  | cons m ms ih =>
    rw [List.map_cons, Endpoint.ofRoute]
    by_cases h : r.method = m
    · subst h
      rw [if_pos rfl, he]
      rfl
    · rw [if_neg h, firstEndpoint, ih ((List.mem_cons.mp hm).resolve_left h)]
      rfl

theorem firstEndpoint_of_error (he : Endpoint.ofResource r resource r.method = .error why) :
    firstEndpoint (ms.map (Endpoint.ofRoute r resource))
      = .error (ms.map fun m => if r.method = m then why else .wrongMethod) := by
  induction ms with
  | nil => rfl
  | cons m ms ih =>
    rw [List.map_cons, Endpoint.ofRoute]
    by_cases h : r.method = m
    · subst h
      rw [if_pos rfl, he, firstEndpoint, ih]
      simp [Except.mapError]
    · rw [if_neg h, firstEndpoint, ih]
      simp [Except.mapError, h]

theorem Rejection.respond_wrongMethod (h : ms ≠ []) :
    respond (ms.map fun _ => .wrongMethod) = .failure 405 "method not allowed" := by
  have hnone : (ms.map fun _ => Rejection.wrongMethod).findSome? unreadable? = none := by
    rw [List.findSome?_eq_none_iff]
    intro why hwhy
    obtain ⟨m, _, rfl⟩ := List.mem_map.mp hwhy
    rfl
  unfold respond
  rw [hnone]
  cases ms with
  | nil => exact absurd rfl h
  | cons m ms => simp [isWrongMethod]

theorem Resource.methods_ne_nil (resource : Resource) : resource.methods ≠ [] := by
  cases resource <;> simp [methods]

namespace HttpRequest

theorem route_of_none (ht : Resource.ofTarget? r.target = none) :
    r.route = .error (.failure 404 "not found") := by
  unfold route
  rw [ht]
  rfl

theorem route_of_notMem (ht : Resource.ofTarget? r.target = some resource)
    (hm : r.method ∉ resource.methods) :
    r.route = .error (.failure 405 "method not allowed") := by
  unfold route
  rw [ht]
  show (firstEndpoint (resource.methods.map _)).mapError _ = _
  rw [firstEndpoint_of_notMem hm, Except.mapError,
    Rejection.respond_wrongMethod resource.methods_ne_nil]

theorem route_of_ok (ht : Resource.ofTarget? r.target = some resource)
    (hm : r.method ∈ resource.methods)
    (he : Endpoint.ofResource r resource r.method = .ok e) : r.route = .ok e := by
  unfold route
  rw [ht]
  show (firstEndpoint (resource.methods.map _)).mapError _ = _
  rw [firstEndpoint_of_ok hm he]
  rfl

theorem route_of_error (ht : Resource.ofTarget? r.target = some resource)
    (he : Endpoint.ofResource r resource r.method = .error why) :
    r.route = .error (Rejection.respond
      (resource.methods.map fun m => if r.method = m then why else .wrongMethod)) := by
  unfold route
  rw [ht]
  show (firstEndpoint (resource.methods.map _)).mapError _ = _
  rw [firstEndpoint_of_error he]
  rfl

end HttpRequest

end routes

/-! ## bodies -/

/-- the response that names a rejection; there is none for what is wrong with a body that is not
read -/
def Rejection.named? : Rejection → Option HttpResponse
  | wrongMethod => some (.failure 405 "method not allowed")
  | unreadableBody why => some (.failure 400 why)
  | unknownLength | tooLong | wrongType => none

theorem Rejection.respond_single (why : Rejection) :
    respond [why] = why.named?.getD (.failure 500 "internal error") := by
  cases why <;> rfl

/-- the method is blamed where other routes of the path are for other methods -/
theorem Rejection.respond_among (why : Rejection) :
    respond [.wrongMethod, why, .wrongMethod]
      = why.named?.getD (.failure 405 "method not allowed") := by
  cases why <;> rfl

namespace HttpRequest

variable {r : HttpRequest}

/-- the body is not read: its length is not said, or it is too long, or it is said to be no JSON -/
def Unfit (r : HttpRequest) (limit : Nat) : Prop :=
  ∀ n, r.length? = some n → limit < n ∨ r.isJson = false

/-- the server is blamed for the body -/
def Overlooked (r : HttpRequest) : Prop :=
  Resource.ofTarget? r.target = some .submission ∧ r.method = .post ∧
    r.Unfit Endpoint.submissionLimit

/-- the method is blamed for the body -/
def Masked (r : HttpRequest) : Prop :=
  ∃ w, Resource.ofTarget? r.target = some (.affinity w) ∧ r.method = .put ∧
    r.Unfit Endpoint.affinityLimit

/-- a body that is not fit to be read is rejected without a name, and every other one that is
rejected cannot be read -/
theorem readBody_cases {α : Type} (r : HttpRequest) (limit : Nat) (shape : Shape)
    (ofJson? : Json → Option α) :
    (r.Unfit limit ∧ ∃ why, r.readBody limit shape ofJson? = .error why ∧ why.named? = none) ∨
      (¬ r.Unfit limit ∧ ∀ why, r.readBody limit shape ofJson? = .error why →
        ∃ w, why = .unreadableBody w) := by
  unfold readBody
  cases hl : r.length? with
  | none =>
    refine .inl ⟨fun n hn => ?_, .unknownLength, rfl, rfl⟩
    rw [hl] at hn
    cases hn
  | some n =>
    have hunfit : r.Unfit limit ↔ limit < n ∨ r.isJson = false := by simp [Unfit, hl]
    rw [hunfit]
    by_cases hn : limit < n
    · refine .inl ⟨.inl hn, .tooLong, ?_, rfl⟩
      simp [hn]
    · cases hj : r.isJson with
      | false =>
        refine .inl ⟨.inr rfl, .wrongType, ?_, rfl⟩
        simp [hn]
      | true =>
        refine .inr ⟨by simp [hn], fun why hwhy => ?_⟩
        simp only [hn, if_false, Bool.not_true, Bool.false_eq_true] at hwhy
        split at hwhy
        · cases hwhy
          exact ⟨_, rfl⟩
        · split at hwhy
          · cases hwhy
          · cases hwhy
            exact ⟨_, rfl⟩

/-- only a submission and a list of kinds have a body that can be rejected -/
theorem ofResource_error {resource : Resource} {why : Rejection}
    (hm : r.method ∈ resource.methods)
    (he : Endpoint.ofResource r resource r.method = .error why) :
    (resource = .submission ∧ r.method = .post ∧
        r.readBody Endpoint.submissionLimit Submission.shape Submission.ofJson? = .error why) ∨
      ∃ w, resource = .affinity w ∧ r.method = .put ∧ Endpoint.kindsOfBody r = .error why := by
  have hmap {α : Type} {x : Except Rejection α} {f : α → Endpoint} (h : x.map f = .error why) :
      x = .error why := by
    cases x with
    | error => exact congrArg Except.error (Except.error.inj h)
    | ok => cases h
  cases resource with
  | submission =>
    exact .inl ⟨rfl, List.mem_singleton.mp hm, hmap he⟩
  | affinity w =>
    generalize r.method = method at hm he ⊢
    cases method with
    | put => exact .inr ⟨w, rfl, rfl, hmap he⟩
    | _ => cases he
  | task id =>
    generalize r.method = method at he
    cases method <;> cases he
  | _ => cases he

theorem Overlooked.rejected (h : r.Overlooked) :
    ∃ why, Endpoint.ofResource r .submission r.method = .error why ∧ why.named? = none := by
  obtain ⟨_, _, hunfit⟩ := h
  rcases r.readBody_cases Endpoint.submissionLimit Submission.shape Submission.ofJson? with
    ⟨_, why, hwhy, hnamed⟩ | ⟨hfit, _⟩
  · refine ⟨why, ?_, hnamed⟩
    rw [Endpoint.ofResource, hwhy]
    rfl
  · exact absurd hunfit hfit

theorem Masked.rejected (h : r.Masked) :
    ∃ w why, Resource.ofTarget? r.target = some (.affinity w) ∧ r.method = .put ∧
      Endpoint.ofResource r (.affinity w) r.method = .error why ∧ why.named? = none := by
  obtain ⟨w, ht, hm, hunfit⟩ := h
  rcases r.readBody_cases Endpoint.affinityLimit (.list .kind) (Wire.list? Kind.ofJson?) with
    ⟨_, why, hwhy, hnamed⟩ | ⟨hfit, _⟩
  · refine ⟨w, why, ht, hm, ?_, hnamed⟩
    rw [hm, Endpoint.ofResource, Endpoint.kindsOfBody, hwhy]
    rfl
  · exact absurd hunfit hfit

end HttpRequest

/-! ## what the pool answers -/

namespace Pool

variable {m : Moment} {p : Pool}

/-- the answer to a call that a route makes -/
def answer? (m : Moment) (p : Pool) : Request → Option Answer
  | .start | .stop => none
  | .submit id _ _ _ => some (p.refusal?.elim (.accepted id) .refused)
  | .cancel id => some (.cancelled (p.cancel id).1)
  | .status id => some (.task ((p.ledger.find? id).map Task.snapshot))
  | .statuses => some (.tasks p.ledger.snapshots)
  | .workers => some (.workers p.roster.snapshots)
  | .stats => some (.stats p.stats)
  | .setAffinity w _ | .clearAffinity w => some (.found (p.roster.find? w).isSome)
  | .getAffinity w => some (.affinity (((p.roster.find? w).bind Entry.affinity).map KindSet.toList))
  | .requestMetrics w => some (.asked (p.requestMetrics m w).1)

/-- what is asked for before the answer is no answer to anybody -/
theorem answers_of_append {q : Pool} {caller : CallId} {a : Answer} {es : List Effect}
    (ho : p.outbox = []) (hq : q.outbox = p.outbox ++ es) (hes : ∀ e ∈ es, ∀ c b, e ≠ .reply c b) :
    Answers caller a (q.reply caller a).outbox := by
  refine ⟨es, ?_, hes⟩
  show q.outbox ++ _ = _
  rw [hq, ho]
  rfl

theorem consequences_silent (cs : List Consequence) :
    ∀ e ∈ cs.map Consequence.effect, ∀ c a, e ≠ .reply c a := by
  intro e he c a
  obtain ⟨x, _, rfl⟩ := List.mem_map.mp he
  cases x <;> exact Effect.noConfusion

theorem answers_of_answer? (ho : p.outbox = []) {q : Request} {a : Answer}
    (h : p.answer? m q = some a) (caller : CallId) :
    Answers caller a (p.handle m (.call caller q)).outbox := by
  have hplain : ∀ e ∈ ([] : List Effect), ∀ c b, e ≠ .reply c b := fun e he => nomatch he
  cases q with
  | start | stop => cases h
  | submit id kind payload options =>
    cases hr : p.refusal? with
    | none =>
      obtain rfl : a = .accepted id := by simpa [answer?, hr, eq_comm] using h
      exact answers_of_none ho hr caller id kind payload options
    | some why =>
      obtain rfl : a = .refused why := by simpa [answer?, hr, eq_comm] using h
      exact answers_of_refusal ho hr caller id kind payload options
  | cancel id =>
    cases h
    exact answers_of_append (q := (p.cancel id).2) ho rfl (consequences_silent _)
  | requestMetrics w =>
    cases h
    refine answers_of_append (q := (p.requestMetrics m w).2) ho rfl fun e he c b => ?_
    obtain ⟨x, _, rfl⟩ := List.mem_map.mp he
    exact Effect.noConfusion
  | setAffinity w | clearAffinity w =>
    cases h
    exact answers_of_append (q := p.updateEntry w _) ho (List.append_nil _).symm hplain
  | status | statuses | workers | stats | getAffinity =>
    cases h
    exact answers_of_append ho (List.append_nil _).symm hplain

/-- every call that a route makes is answered -/
theorem answer?_isSome (p : Pool) {e : Endpoint} {fresh : TaskId} {q : Request}
    (h : e.request fresh = some q) : ∃ a, p.answer? m q = some a := by
  cases e <;> cases h <;> exact ⟨_, rfl⟩

end Pool

/-- the responses to a request: it is refused at once, or it opens a stream, or it is answered, or
what is answered is the outcome of its task -/
inductive HttpRequest.Gets (m : Moment) (p : Pool) (caller : CallId) (fresh : TaskId)
    (r : HttpRequest) : HttpResponse → Prop
  | refused (x : HttpResponse) (hr : r.route = .error x) : Gets m p caller fresh r x
  | stream (hr : r.route = .ok .events) : Gets m p caller fresh r .events
  | answered (e : Endpoint) (q : Request) (a : Answer) (x : HttpResponse) (hr : r.route = .ok e)
      (hq : e.request fresh = some q)
      (ha : Pool.Answers caller a (p.handle m (.call caller q)).outbox)
      (hx : (Purpose.http e).reply? a = some (.response x)) : Gets m p caller fresh r x
  | concluded (e : Endpoint) (q : Request) (a : Answer) (id : TaskId) (o : Outcome)
      (x : HttpResponse) (hr : r.route = .ok e) (hq : e.request fresh = some q)
      (ha : Pool.Answers caller a (p.handle m (.call caller q)).outbox)
      (hn : (Purpose.http e).reply? a = none)
      (hx : (Purpose.http e).conclude id o = .response x) : Gets m p caller fresh r x

/-- what a caller is told at once is such a response -/
theorem Session.send_gets {m : Moment} {p : Pool} {caller : CallId} {fresh : TaskId}
    {r : HttpRequest} {x : HttpResponse} {s : Session}
    (h : (s.send caller fresh r).1 = some x) : r.Gets m p caller fresh x := by
  unfold send at h
  cases hr : r.route with
  | error refusal =>
    obtain rfl : refusal = x := by simpa [hr] using h
    exact .refused _ hr
  | ok e =>
    cases e with
    | events =>
      obtain rfl : HttpResponse.events = x := by simpa [hr, Endpoint.request] using h
      exact .stream hr
    | _ => simp [hr, Endpoint.request] at h

/-! ## faults -/

/-- what can be wrong with a request -/
inductive Fault where
  | path
  | rejected (why : Rejection)
  | task (id : TaskId)
  | worker (w : WorkerId)

/-- the response that names a fault -/
def Fault.response? : Fault → Option HttpResponse
  | path => some (.failure 404 "not found")
  | rejected why => why.named?
  | task id => some (Endpoint.noTask id)
  | worker w => some (Endpoint.noWorker w)

/-- there is no such task, or no such worker; metrics are asked of workers that take commands -/
inductive Endpoint.Lacks (m : Moment) (p : Pool) : Endpoint → Fault → Prop
  | task (id : TaskId) (h : p.ledger.find? id = none) : Lacks m p (.showTask id) (.task id)
  | setAffinity (w : WorkerId) (kinds : List Kind) (h : p.roster.find? w = none) :
      Lacks m p (.setAffinity w kinds) (.worker w)
  | clearAffinity (w : WorkerId) (h : p.roster.find? w = none) :
      Lacks m p (.clearAffinity w) (.worker w)
  | metrics (w : WorkerId) (h : w ∉ p.reachable m) : Lacks m p (.requestMetrics w) (.worker w)

/-- what is wrong with a request -/
inductive Pool.Faults (m : Moment) (p : Pool) (r : HttpRequest) : Fault → Prop
  | path (ht : Resource.ofTarget? r.target = none) : Faults m p r .path
  | method (resource : Resource) (ht : Resource.ofTarget? r.target = some resource)
      (hm : r.method ∉ resource.methods) : Faults m p r (.rejected .wrongMethod)
  | body (resource : Resource) (why : Rejection)
      (ht : Resource.ofTarget? r.target = some resource) (hm : r.method ∈ resource.methods)
      (he : Endpoint.ofResource r resource r.method = .error why) : Faults m p r (.rejected why)
  | lack (e : Endpoint) (f : Fault) (hr : r.route = .ok e) (hl : e.Lacks m p f) : Faults m p r f

theorem Endpoint.Lacks.unique {m : Moment} {p : Pool} {e : Endpoint} {f g : Fault}
    (hf : e.Lacks m p f) (hg : e.Lacks m p g) : f = g := by
  cases hf <;> cases hg <;> rfl

namespace Pool.Faults

variable {m : Moment} {p : Pool} {r : HttpRequest} {f g : Fault}

/-- a request that a route has taken can only name what the pool does not have -/
theorem lacks {e : Endpoint} (hr : r.route = .ok e) (hf : p.Faults m r f) : e.Lacks m p f := by
  cases hf with
  | path ht => cases hr.symm.trans (HttpRequest.route_of_none ht)
  | method resource ht hm => cases hr.symm.trans (HttpRequest.route_of_notMem ht hm)
  | body resource why ht _ he => cases hr.symm.trans (HttpRequest.route_of_error ht he)
  | lack e' _ hr' hl =>
    cases hr.symm.trans hr'
    exact hl

/-- there is one fault to name -/
theorem unique (hf : p.Faults m r f) (hg : p.Faults m r g) : f = g := by
  cases hf with
  | lack e _ hr hl => exact hl.unique (hg.lacks hr)
  | path ht =>
    cases hg with
    | path => rfl
    | method _ ht' | body _ _ ht' => cases ht.symm.trans ht'
    | lack e _ hr => cases hr.symm.trans (HttpRequest.route_of_none ht)
  | method resource ht hm =>
    cases hg with
    | path ht' => cases ht.symm.trans ht'
    | method => rfl
    | body _ _ ht' hm' =>
      cases ht.symm.trans ht'
      exact absurd hm' hm
    | lack e _ hr => cases hr.symm.trans (HttpRequest.route_of_notMem ht hm)
  | body resource why ht hm he =>
    cases hg with
    | path ht' => cases ht.symm.trans ht'
    | method _ ht' hm' =>
      cases ht.symm.trans ht'
      exact absurd hm hm'
    | body _ why' ht' _ he' =>
      cases ht.symm.trans ht'
      cases he.symm.trans he'
      rfl
    | lack e _ hr => cases hr.symm.trans (HttpRequest.route_of_error ht he)

end Pool.Faults

/-! ## judging a request -/

namespace HttpRequest

variable {m : Moment} {p : Pool} {r : HttpRequest} {x : HttpResponse} {caller : CallId}
  {fresh : TaskId}

theorem exists_nameless (h : r.Overlooked ∨ r.Masked) :
    ∃ why, p.Faults m r (.rejected why) ∧ why.named? = none := by
  rcases h with ho | hm
  · obtain ⟨why, hwhy, hnamed⟩ := ho.rejected
    obtain ⟨ht, hpost, _⟩ := ho
    exact ⟨why, .body .submission why ht (by simp [hpost, Resource.methods]) hwhy, hnamed⟩
  · obtain ⟨w, why, ht, hput, hwhy, hnamed⟩ := hm.rejected
    exact ⟨why, .body (.affinity w) why ht (by simp [hput, Resource.methods]) hwhy, hnamed⟩

/-- how a request is dealt with -/
inductive Ruling (m : Moment) (p : Pool) (r : HttpRequest) : HttpResponse → Prop
  | named (f : Fault) (x : HttpResponse) (hf : p.Faults m r f) (hx : f.response? = some x) :
      Ruling m p r x
  | overlooked (h : r.Overlooked) : Ruling m p r (.failure 500 "internal error")
  | masked (h : r.Masked) : Ruling m p r (.failure 405 "method not allowed")
  | served (x : HttpResponse) (hno : ∀ f, ¬ p.Faults m r f) (hx : x.status = 200) : Ruling m p r x
  | turnedAway (why : Refusal) (hno : ∀ f, ¬ p.Faults m r f)
      (ht : Resource.ofTarget? r.target = some .submission) (hwhy : p.refusal? = some why) :
      Ruling m p r (Endpoint.refusal why)

theorem ruling_of_rejected {resource : Resource} {why : Rejection}
    (ht : Resource.ofTarget? r.target = some resource) (hm : r.method ∈ resource.methods)
    (he : Endpoint.ofResource r resource r.method = .error why) (hr : r.route = .error x) :
    Ruling m p r x := by
  have hfault : p.Faults m r (.rejected why) := .body resource why ht hm he
  have hx := Except.error.inj (hr.symm.trans (route_of_error ht he))
  rcases ofResource_error hm he with ⟨rfl, hpost, hbody⟩ | ⟨w, rfl, hput, hbody⟩
  · have hsingle : x = Rejection.respond [why] := by simpa [Resource.methods, hpost] using hx
    rw [Rejection.respond_single] at hsingle
    rcases r.readBody_cases Endpoint.submissionLimit Submission.shape Submission.ofJson? with
      ⟨hunfit, why', hwhy', hnamed⟩ | ⟨_, hread⟩
    · cases hbody.symm.trans hwhy'
      rw [hnamed] at hsingle
      subst hsingle
      exact .overlooked ⟨ht, hpost, hunfit⟩
    · obtain ⟨text, rfl⟩ := hread why hbody
      exact .named _ x hfault (congrArg some hsingle.symm)
  · have hamong : x = Rejection.respond [.wrongMethod, why, .wrongMethod] := by
      simpa [Resource.methods, hput] using hx
    rw [Rejection.respond_among] at hamong
    rcases r.readBody_cases Endpoint.affinityLimit (.list .kind) (Wire.list? Kind.ofJson?) with
      ⟨hunfit, why', hwhy', hnamed⟩ | ⟨_, hread⟩
    · cases hbody.symm.trans hwhy'
      rw [hnamed] at hamong
      subst hamong
      exact .masked ⟨w, ht, hput, hunfit⟩
    · obtain ⟨text, rfl⟩ := hread why hbody
      exact .named _ x hfault (congrArg some hamong.symm)

theorem ruling_of_refused (hr : r.route = .error x) : Ruling m p r x := by
  cases ht : Resource.ofTarget? r.target with
  | none =>
    cases hr.symm.trans (route_of_none ht)
    exact .named .path _ (.path ht) rfl
  | some resource =>
    by_cases hm : r.method ∈ resource.methods
    · cases he : Endpoint.ofResource r resource r.method with
      | error why => exact ruling_of_rejected ht hm he hr
      | ok e => cases hr.symm.trans (route_of_ok ht hm he)
    · cases hr.symm.trans (route_of_notMem ht hm)
      exact .named (.rejected .wrongMethod) _ (.method resource ht hm) rfl

/-- a request that a route has taken is at fault only for what the pool does not have -/
theorem faultless_of_route {e : Endpoint} (hr : r.route = .ok e) (he : ∀ f, ¬ e.Lacks m p f) :
    ∀ f, ¬ p.Faults m r f :=
  fun f hf => he f (hf.lacks hr)

theorem target_of_submit {s : Submission} (hr : r.route = .ok (.submit s)) :
    Resource.ofTarget? r.target = some .submission := by
  cases ht : Resource.ofTarget? r.target with
  | none => cases hr.symm.trans (route_of_none ht)
  | some resource =>
    by_cases hm : r.method ∈ resource.methods
    · cases he : Endpoint.ofResource r resource r.method with
      | error why => cases hr.symm.trans (route_of_error ht he)
      | ok e =>
        cases hr.symm.trans (route_of_ok ht hm he)
        have hkinds {α : Type} {y : Except Rejection α} {f : α → Endpoint}
            (hf : ∀ a, f a ≠ .submit s) : y.map f ≠ .ok (.submit s) := by
          cases y with
          | error => exact fun h => nomatch h
          | ok a => exact fun h => hf a (Except.ok.inj h)
        cases resource with
        | submission => rfl
        | affinity w =>
          generalize r.method = method at he
          cases method with
          | put => exact absurd he (hkinds fun _ => Endpoint.noConfusion)
          | _ => cases he
        | task id =>
          generalize r.method = method at he
          cases method <;> cases he
        | _ => cases he
    · cases hr.symm.trans (route_of_notMem ht hm)

theorem asked_pos_iff (w : WorkerId) : 0 < (p.requestMetrics m (some w)).1 ↔ w ∈ p.reachable m := by
  show 0 < ((p.reachable m).filter (· == w)).length ↔ _
  rw [List.length_pos_iff_exists_mem]
  simp

theorem ruling_of_answer {e : Endpoint} {q : Request} {a : Answer} (hr : r.route = .ok e)
    (hq : e.request fresh = some q) (ha : p.answer? m q = some a)
    (hx : (Purpose.http e).reply? a = some (.response x)) : Ruling m p r x := by
  have hserved (he : ∀ f, ¬ e.Lacks m p f) (h : x.status = 200) : Ruling m p r x :=
    .served x (faultless_of_route hr he) h
  have hlack (f : Fault) (hl : e.Lacks m p f) (h : f.response? = some x) : Ruling m p r x :=
    .named f x (.lack e f hr hl) h
  cases e with
  | submit s =>
    cases hq
    cases hwhy : p.refusal? with
    | none =>
      obtain rfl : a = .accepted fresh := by simpa [Pool.answer?, hwhy, eq_comm] using ha
      cases hx
    | some why =>
      obtain rfl : a = .refused why := by simpa [Pool.answer?, hwhy, eq_comm] using ha
      cases hx
      have hfaultless := faultless_of_route (m := m) (p := p) hr fun f hf => nomatch hf
      exact .turnedAway why hfaultless (target_of_submit hr) hwhy
  | showTask id =>
    cases hq
    cases ha
    cases hx
    rcases Option.eq_none_or_eq_some (p.ledger.find? id) with ht | ⟨t, ht⟩
    · exact hlack (.task id) (.task id ht) (by rw [ht]; rfl)
    · refine hserved (fun f hf => ?_) (by rw [ht]; rfl)
      cases hf with
      | task _ h => cases ht.symm.trans h
  | setAffinity w kinds =>
    cases hq
    cases ha
    cases hx
    rcases Option.eq_none_or_eq_some (p.roster.find? w) with hw | ⟨entry, hw⟩
    · exact hlack (.worker w) (.setAffinity w kinds hw) (by rw [hw]; rfl)
    · refine hserved (fun f hf => ?_) (by rw [hw]; rfl)
      cases hf with
      | setAffinity _ _ h => cases hw.symm.trans h
  | clearAffinity w =>
    cases hq
    cases ha
    cases hx
    rcases Option.eq_none_or_eq_some (p.roster.find? w) with hw | ⟨entry, hw⟩
    · exact hlack (.worker w) (.clearAffinity w hw) (by rw [hw]; rfl)
    · refine hserved (fun f hf => ?_) (by rw [hw]; rfl)
      cases hf with
      | clearAffinity _ h => cases hw.symm.trans h
  | requestMetrics w =>
    cases hq
    cases ha
    by_cases hw : w ∈ p.reachable m
    · obtain rfl : x = .json 200 (MetricsRequested.mk 1).json := by
        simpa [Purpose.reply?, Endpoint.respond, asked_pos_iff, hw, eq_comm] using hx
      refine hserved (fun f hf => ?_) rfl
      cases hf with
      | metrics _ h => exact h hw
    · obtain rfl : x = Endpoint.noWorker w := by
        simpa [Purpose.reply?, Endpoint.respond, asked_pos_iff, hw, eq_comm] using hx
      exact hlack (.worker w) (.metrics w hw) rfl
  | events => cases hq
  | listTasks | cancelTask | listWorkers | stats | getAffinity | requestAllMetrics =>
    cases hq
    cases ha
    cases hx
    exact hserved (fun f hf => nomatch hf) rfl

/-- only an accepted submission is not answered yet -/
theorem reply?_http (e : Endpoint) (a : Answer) :
    (∃ id, a = .accepted id) ∧ (Purpose.http e).reply? a = none ∨
      (Purpose.http e).reply? a = some (.response (e.respond a)) := by
  cases a with
  | accepted id => exact .inl ⟨⟨id, rfl⟩, rfl⟩
  | _ => exact .inr rfl

theorem submit_of_accepted {e : Endpoint} {q : Request} {id : TaskId}
    (hq : e.request fresh = some q) (ha : p.answer? m q = some (.accepted id)) :
    ∃ s, e = .submit s := by
  cases e with
  | submit s => exact ⟨s, rfl⟩
  | events => cases hq
  | _ =>
    cases hq
    cases ha

theorem answer_unique (ho : p.outbox = []) {q : Request} {a b : Answer}
    (ha : Pool.Answers caller a (p.handle m (.call caller q)).outbox)
    (hb : p.answer? m q = some b) : a = b := by
  obtain ⟨fs, hfs, _⟩ := ha
  refine (Pool.answers_of_answer? ho hb caller).unique ?_
  rw [hfs]
  exact List.mem_append_right _ (List.mem_singleton_self _)

/-- every response deals with the request in one of these ways -/
theorem Gets.ruling (ho : p.outbox = []) (h : Gets m p caller fresh r x) : Ruling m p r x := by
  cases h with
  | refused _ hr => exact ruling_of_refused hr
  | stream hr => exact .served _ (faultless_of_route hr fun f hf => nomatch hf) rfl
  | answered e q a _ hr hq ha hx =>
    obtain ⟨b, hb⟩ := p.answer?_isSome hq
    obtain rfl := answer_unique ho ha hb
    exact ruling_of_answer hr hq hb hx
  | concluded e q a id o _ hr hq ha hn hx =>
    obtain ⟨b, hb⟩ := p.answer?_isSome hq
    obtain rfl := answer_unique ho ha hb
    rcases reply?_http e a with ⟨⟨fresh', rfl⟩, _⟩ | hsome
    · obtain ⟨s, rfl⟩ := submit_of_accepted hq hb
      cases hx
      exact .served _ (faultless_of_route hr fun f hf => nomatch hf) rfl
    · cases hn.symm.trans hsome

theorem exists_gets (ho : p.outbox = []) (caller : CallId) (fresh : TaskId) (r : HttpRequest) :
    ∃ x, Gets m p caller fresh r x := by
  cases hr : r.route with
  | error x => exact ⟨x, .refused x hr⟩
  | ok e =>
    cases hq : e.request fresh with
    | none =>
      cases e with
      | events => exact ⟨_, .stream hr⟩
      | _ => cases hq
    | some q =>
      obtain ⟨a, ha⟩ := p.answer?_isSome (m := m) hq
      have hanswers := Pool.answers_of_answer? ho ha caller
      rcases reply?_http e a with ⟨_, hnone⟩ | hsome
      · exact ⟨_, .concluded e q a fresh (.error .cancelled) _ hr hq hanswers hnone rfl⟩
      · exact ⟨_, .answered e q a _ hr hq hanswers hsome⟩

/-- what is answered at once is the only response -/
theorem gets_iff (ho : p.outbox = []) {e : Endpoint} {q : Request} {a : Answer} {y : HttpResponse}
    (hr : r.route = .ok e) (hq : e.request fresh = some q) (ha : p.answer? m q = some a)
    (hy : (Purpose.http e).reply? a = some (.response y)) :
    Gets m p caller fresh r x ↔ x = y := by
  constructor
  · intro h
    cases h with
    | refused _ hr' => cases hr.symm.trans hr'
    | stream hr' =>
      cases hr.symm.trans hr'
      cases hq
    | answered e' q' b _ hr' hq' hb hx =>
      cases hr.symm.trans hr'
      cases hq.symm.trans hq'
      obtain rfl := answer_unique ho hb ha
      cases hy.symm.trans hx
      rfl
    | concluded e' q' b id o _ hr' hq' hb hn =>
      cases hr.symm.trans hr'
      cases hq.symm.trans hq'
      obtain rfl := answer_unique ho hb ha
      cases hy.symm.trans hn
  · rintro rfl
    exact .answered e q a x hr hq (Pool.answers_of_answer? ho ha caller) hy

end HttpRequest

/-- how a request is judged by its response -/
structure Judged (m : Moment) (p : Pool) (r : HttpRequest) (x : HttpResponse) : Prop where
  /-- the response names the fault, if it has a name, and blames the client -/
  named : ∀ f y, p.Faults m r f → f.response? = some y → x = y ∧ 400 ≤ x.status ∧ x.status < 500
  /-- what has no name is that a body is not read -/
  nameless : ∀ f, p.Faults m r f → f.response? = none → r.Overlooked ∨ r.Masked
  /-- the server is blamed for no other request -/
  overlooked : x.status = 500 ↔ r.Overlooked
  masked : r.Masked → x = .failure 405 "method not allowed"
  /-- without a fault a request is served, unless the pool has no room for a submission or has
  stopped -/
  faultless : (∀ f, ¬ p.Faults m r f) → x.status = 200 ∨
    ∃ why, p.refusal? = some why ∧ Resource.ofTarget? r.target = some .submission ∧
      x = Endpoint.refusal why

theorem Fault.response?_client {f : Fault} {x : HttpResponse} (h : f.response? = some x) :
    400 ≤ x.status ∧ x.status < 500 := by
  cases f with
  | rejected why =>
    cases why <;> cases h <;> simp [HttpResponse.failure, HttpResponse.json]
  | _ =>
    cases h
    simp [Endpoint.noTask, Endpoint.noWorker, HttpResponse.failure, HttpResponse.json]

section

variable {m : Moment} {p : Pool} {r : HttpRequest} {x : HttpResponse}

/-- a body that is rejected without a name was not fit to be read -/
theorem Pool.Faults.nameless {f : Fault} (hf : p.Faults m r f) (hn : f.response? = none) :
    r.Overlooked ∨ r.Masked := by
  cases hf with
  | path | method => cases hn
  | lack e _ hr hl => cases hl <;> cases hn
  | body resource why ht hm he =>
    have hunfit {α : Type} {limit : Nat} {shape : Shape} {ofJson? : Json → Option α}
        (hb : r.readBody limit shape ofJson? = .error why) : r.Unfit limit := by
      rcases r.readBody_cases limit shape ofJson? with ⟨hu, _⟩ | ⟨_, hread⟩
      · exact hu
      · obtain ⟨text, rfl⟩ := hread why hb
        cases hn
    rcases HttpRequest.ofResource_error hm he with ⟨rfl, hpost, hb⟩ | ⟨w, rfl, hput, hb⟩
    · exact .inl ⟨ht, hpost, hunfit hb⟩
    · exact .inr ⟨w, ht, hput, hunfit hb⟩

theorem HttpRequest.Overlooked.not_masked (h : r.Overlooked) : ¬ r.Masked := by
  intro hm
  obtain ⟨w, ht, _⟩ := hm
  cases h.1.symm.trans ht

theorem HttpRequest.not_nameless (hno : ∀ f, ¬ p.Faults m r f) : ¬ (r.Overlooked ∨ r.Masked) := by
  intro hn
  obtain ⟨why, hwhy, _⟩ := exists_nameless (m := m) (p := p) hn
  exact hno _ hwhy

theorem HttpRequest.Ruling.judges (h : Ruling m p r x) : Judged m p r x := by
  cases h with
  | named f _ hf hx =>
    have hclient := Fault.response?_client hx
    have hnamed : ¬ (r.Overlooked ∨ r.Masked) := by
      intro hn
      obtain ⟨why, hwhy, hnone⟩ := exists_nameless (m := m) (p := p) hn
      cases hf.unique hwhy
      cases hnone.symm.trans hx
    refine ⟨fun g y hg hy => ?_, fun g hg hn => hg.nameless hn, ⟨fun h500 => ?_, fun ho => ?_⟩,
      fun hm => absurd (.inr hm) hnamed, fun hno => absurd hf (hno f)⟩
    · cases hf.unique hg
      cases hx.symm.trans hy
      exact ⟨rfl, hclient⟩
    · omega
    · exact absurd (.inl ho) hnamed
  | overlooked ho =>
    obtain ⟨why, hwhy, hnone⟩ := exists_nameless (m := m) (p := p) (.inl ho)
    refine ⟨fun g y hg hy => ?_, fun g hg hn => hg.nameless hn, ⟨fun _ => ho, fun _ => rfl⟩,
      fun hm => absurd hm ho.not_masked, fun hno => absurd hwhy (hno _)⟩
    cases hg.unique hwhy
    cases hnone.symm.trans hy
  | masked hm =>
    obtain ⟨why, hwhy, hnone⟩ := exists_nameless (m := m) (p := p) (.inr hm)
    refine ⟨fun g y hg hy => ?_, fun g hg hn => hg.nameless hn,
      ⟨(nomatch ·), fun ho => absurd hm ho.not_masked⟩, fun _ => rfl,
      fun hno => absurd hwhy (hno _)⟩
    cases hg.unique hwhy
    cases hnone.symm.trans hy
  | served _ hno hx =>
    have hfit := not_nameless hno
    refine ⟨fun g _ hg => absurd hg (hno g), fun g hg => absurd hg (hno g),
      ⟨fun h500 => ?_, fun ho => absurd (.inl ho) hfit⟩, fun hm => absurd (.inr hm) hfit,
      fun _ => .inl hx⟩
    omega
  | turnedAway why hno ht hrefused =>
    have hfit := not_nameless hno
    refine ⟨fun g _ hg => absurd hg (hno g), fun g hg => absurd hg (hno g),
      ⟨fun h500 => ?_, fun ho => absurd (.inl ho) hfit⟩, fun hm => absurd (.inr hm) hfit,
      fun _ => .inr ⟨why, hrefused, ht, rfl⟩⟩
    cases why <;> cases h500

end

namespace Workshop

/-- **the fault of a client is named in the response to it**, except for a body that is not read:
that of a submission is taken for a failure of the server, that of a list of kinds for a wrong
method -/
theorem Reachable.judged {c : Config} {W : Workshop} (h : Reachable c W) (m : Moment)
    (caller : CallId) (fresh : TaskId) (r : HttpRequest) :
    (∃ x, r.Gets m W.pool caller fresh x) ∧
      ∀ x, r.Gets m W.pool caller fresh x → Judged m W.pool r x :=
  ⟨HttpRequest.exists_gets h.inStep.tuned.outbox caller fresh r,
    fun _ hx => (hx.ruling h.inStep.tuned.outbox).judges⟩

/-- a request to submit a task, by a client that does not say how long its body is -/
def unmeasured : HttpRequest := ⟨.post, "/submit", [], "{}"⟩

theorem judged_unmeasured : Reachable Chronicle.single varied ∧
    Judged calmMoment varied.pool unmeasured (.failure 500 "internal error") :=
  ⟨reachable_varied, (reachable_varied.judged calmMoment 9 ⟨9⟩ unmeasured).2 _ (.refused _ rfl)⟩

/-- the client is at fault, and the server takes the blame -/
theorem blamed_unmeasured : Reachable Chronicle.single varied ∧
    varied.pool.Faults calmMoment unmeasured (.rejected .unknownLength) ∧
    unmeasured.Gets calmMoment varied.pool 9 ⟨9⟩ (.failure 500 "internal error") :=
  ⟨reachable_varied, .body .submission _ rfl (List.mem_singleton_self _) rfl, .refused _ rfl⟩

end Workshop

end TaskPool
