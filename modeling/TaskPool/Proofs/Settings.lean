import TaskPool.Config.Environment
import TaskPool.Proofs.Doubles

/-!
# How safe settings are that were read

* `Config.validate_eq_none_iff`   what makes settings valid
* `Literal.SpellsNaN`, `Literal.SpellsZero`   the texts that are read as NaN, and as zero
* `Environment.Says`     a variable is set to a text of some kind
* `Config.Safe`          what the parts of a pool count on
* `ServerConfig.safe_iff`   the settings of a server are safe unless a threshold is NaN or the pool
                         scales itself at intervals of zero, and which variables make that so

Why valid settings need not be safe: thresholds are refused if the upper one is at most the lower
one, which never holds of NaN, and nothing looks at the interval.
-/

namespace TaskPool

/-! ## texts -/

namespace Literal

variable {cs : List Char} {x : Float}

def IsNameOfNaN (cs : List Char) : Prop := cs.map Char.toLower = "nan".toList

/-- the name of NaN in letters of any size, with a sign in front of it if one likes -/
def SpellsNaN (cs : List Char) : Prop :=
  ∃ sign ∈ [[], ['+'], ['-']], ∃ name, cs = sign ++ name ∧ IsNameOfNaN name

/-- zeros and nothing else, with a plus sign in front of them if one likes -/
def SpellsZero (cs : List Char) : Prop :=
  ∃ sign ∈ [[], ['+']], ∃ n, cs = sign ++ List.replicate (n + 1) '0'

theorem isNaN_nearest (n : Nat) (e : Int) : (nearest n e).isNaN = false := by
  unfold nearest
  dsimp only
  split
  · decide +kernel
  · split
    · decide +kernel
    · exact Double.isNaN_ofScientific _ _ _

theorem isNaN_decimal? (h : decimal? cs = some x) : x.isNaN = false := by
  unfold decimal? at h
  dsimp only at h
  split at h
  all_goals
    split at h
    · cases h
    · obtain ⟨e, -, rfl⟩ := Option.map_eq_some_iff.mp h
      exact isNaN_nearest _ _

theorem isNaN_unsigned? (h : unsigned? cs = some x) : x.isNaN = true ↔ IsNameOfNaN cs := by
  have hname : IsNameOfNaN cs ↔ String.ofList (cs.map Char.toLower) = "nan" :=
    ⟨fun h => (congrArg String.ofList h).trans String.ofList_toList,
      fun h => String.toList_ofList.symm.trans (congrArg String.toList h)⟩
  rw [hname]
  unfold unsigned? at h
  dsimp only at h
  split at h
  · rename_i hinf
    cases h
    have hnumber : infinity.isNaN = false := by decide +kernel
    rw [hnumber]
    rcases hinf with hinf | hinf <;> rw [hinf] <;> decide
  · split at h
    · rename_i hnan
      cases h
      exact iff_of_true (by decide +kernel) hnan
    · rename_i hother
      rw [isNaN_decimal? h]
      exact iff_of_false Bool.false_ne_true hother

theorem spellsNaN_of_sign {c : Char} (hc : c = '+' ∨ c = '-') :
    SpellsNaN (c :: cs) ↔ IsNameOfNaN cs := by
  constructor
  · rintro ⟨sign, hsign, name, heq, hname⟩
    simp only [List.mem_cons, List.not_mem_nil, or_false] at hsign
    rcases hsign with rfl | rfl | rfl
    · -- no sign belongs to the name
      rw [List.nil_append] at heq
      subst heq
      rcases hc with rfl | rfl <;> cases hname
    · cases heq
      exact hname
    · cases heq
      exact hname
  · intro h
    rcases hc with rfl | rfl
    · exact ⟨['+'], by simp, cs, rfl, h⟩
    · exact ⟨['-'], by simp, cs, rfl, h⟩

theorem spellsNaN_of_noSign (hplus : ∀ rest, cs ≠ '+' :: rest) (hminus : ∀ rest, cs ≠ '-' :: rest) :
    SpellsNaN cs ↔ IsNameOfNaN cs := by
  constructor
  · rintro ⟨sign, hsign, name, heq, hname⟩
    simp only [List.mem_cons, List.not_mem_nil, or_false] at hsign
    rcases hsign with rfl | rfl | rfl
    · rw [List.nil_append] at heq
      exact heq ▸ hname
    · exact absurd heq (hplus name)
    · exact absurd heq (hminus name)
  · exact fun h => ⟨[], by simp, cs, rfl, h⟩

/-- **a text is read as NaN if it is the name of it**, and only then -/
theorem isNaN_double (h : double cs = .ok x) : x.isNaN = true ↔ SpellsNaN cs := by
  unfold double at h
  dsimp only at h
  split at h
  · rename_i value hvalue
    cases h
    split at hvalue
    · obtain ⟨y, hy, rfl⟩ := Option.map_eq_some_iff.mp hvalue
      rw [Double.isNaN_neg, spellsNaN_of_sign (.inr rfl)]
      exact isNaN_unsigned? hy
    · rw [spellsNaN_of_sign (.inl rfl)]
      exact isNaN_unsigned? hvalue
    · rename_i hminus hplus
      rw [spellsNaN_of_noSign hplus hminus]
      exact isNaN_unsigned? hvalue
  · cases h

theorem digitValue_eq_zero {c : Char} (h : isDigit c = true) : digitValue c = 0 ↔ c = '0' := by
  constructor
  · intro hzero
    simp only [isDigit, Bool.and_eq_true, decide_eq_true_eq] at h
    have hlow : '0'.toNat ≤ c.toNat := h.1
    unfold digitValue at hzero
    have heq : c.toNat = '0'.toNat := by omega
    exact Char.toNat_inj.mp heq
  · rintro rfl
    rfl

theorem appendDigits_eq_zero {limit : Nat} (hlimit : 0 < limit) (n : Nat) :
    appendDigits limit n cs = .ok 0 ↔ n = 0 ∧ ∀ c ∈ cs, c = '0' := by
  induction cs generalizing n with
  | nil => simp [appendDigits]
  | cons c cs ih =>
    unfold appendDigits
    rw [List.forall_mem_cons]
    by_cases hdigit : isDigit c = true
    · have hvalue := digitValue_eq_zero hdigit
      rw [hdigit, Bool.not_true, if_neg Bool.false_ne_true]
      split
      · rename_i hlarge
        refine iff_of_false nofun fun h => ?_
        have hzero := hvalue.mpr h.2.1
        omega
      · rw [ih, ← hvalue]
        constructor <;> rintro ⟨h1, h2⟩
        · exact ⟨by omega, by omega, h2⟩
        · exact ⟨by omega, h2.2⟩
    · rw [Bool.not_eq_true] at hdigit
      rw [hdigit, Bool.not_false, if_pos rfl]
      refine iff_of_false nofun fun h => ?_
      rw [h.2.1] at hdigit
      exact absurd hdigit (by decide)

theorem forall_eq_zero_iff {c : Char} :
    (∀ d ∈ c :: cs, d = '0') ↔ ∃ n, c :: cs = List.replicate (n + 1) '0' := by
  constructor
  · exact fun h => ⟨cs.length, List.eq_replicate_of_mem h⟩
  · rintro ⟨n, hn⟩ d hd
    rw [hn] at hd
    exact List.eq_of_mem_replicate hd

/-- **a text is read as zero if it is made of zeros**, and only then -/
theorem natural_eq_zero {limit : Nat} (hlimit : 0 < limit) :
    natural limit cs = .ok 0 ↔ SpellsZero cs := by
  have hsigns : SpellsZero cs ↔ (∃ n, cs = List.replicate (n + 1) '0') ∨
      ∃ n, cs = '+' :: List.replicate (n + 1) '0' := by
    simp [SpellsZero]
  rw [hsigns]
  unfold natural
  split
  · exact iff_of_false nofun (by simp [List.replicate_succ])
  · exact iff_of_false nofun (by simp [List.replicate_succ])
  · rename_i c cs
    rw [appendDigits_eq_zero hlimit, forall_eq_zero_iff]
    simp [List.replicate_succ]
  · rename_i hempty hsign hplus
    rw [appendDigits_eq_zero hlimit]
    cases cs with
    | nil => exact absurd rfl hempty
    | cons c cs =>
      rw [forall_eq_zero_iff]
      have hno : ¬ ∃ n, c :: cs = '+' :: List.replicate (n + 1) '0' := by
        rintro ⟨n, hn⟩
        exact hplus _ _ hn
      rw [or_iff_left hno, eq_self_iff_true, true_and]

end Literal

/-! ## variables -/

namespace Environment

/-- a variable is set to a text of some kind, apart from the blanks around it -/
def Says (env : Environment) (name : String) (kind : List Char → Prop) : Prop :=
  ∃ raw, env.lookup name = some raw ∧ kind (trim raw.toList)

/-- a value is of a kind of which the default is not, if it was read from a text of its kind -/
theorem says_iff {α : Type} {env : Environment} {name : String}
    {read : List Char → Except LiteralError α} {default a : α} (Q : α → Prop)
    {kind : List Char → Prop} (h : env.value name read default = .ok a) (hdefault : ¬ Q default)
    (hread : ∀ {cs x}, read cs = .ok x → (Q x ↔ kind cs)) : Q a ↔ env.Says name kind := by
  unfold value at h
  unfold Says
  split at h
  · rename_i hnone
    cases h
    refine iff_of_false hdefault ?_
    rintro ⟨raw, hsome, -⟩
    rw [hnone] at hsome
    cases hsome
  · rename_i raw hsome
    split at h
    · rename_i x hx
      cases h
      rw [hread hx]
      constructor
      · exact fun hkind => ⟨raw, hsome, hkind⟩
      · rintro ⟨raw', hraw', hkind⟩
        rw [hsome] at hraw'
        cases hraw'
        exact hkind
    · cases h

variable {env : Environment} {name : String}

theorem isNaN_iff_says {default x : Float} (h : env.percent name default = .ok x)
    (hdefault : default.isNaN = false) :
    x.isNaN = true ↔ env.Says name Literal.SpellsNaN :=
  says_iff (fun y => y.isNaN = true) h (Bool.eq_false_iff.mp hdefault) Literal.isNaN_double

theorem nanos_eq_zero_iff_says {default d : Duration} (h : env.millis name default = .ok d)
    (hdefault : default.millis ≠ 0) : d.nanos = 0 ↔ env.Says name Literal.SpellsZero := by
  unfold millis at h
  cases hn : env.value name (Literal.natural UInt64.size) default.millis with
  | error =>
    rw [hn] at h
    cases h
  | ok n =>
    rw [hn] at h
    cases h
    have hzero : (Duration.ofMillis n).nanos = 0 ↔ n = 0 := Nat.mul_eq_zero.trans (by simp)
    rw [hzero]
    refine says_iff (fun m => m = 0) hn hdefault fun {cs m} hm => ?_
    rw [← @Literal.natural_eq_zero cs UInt64.size (by decide), hm]
    exact ⟨fun h => congrArg Except.ok h, fun h => Except.ok.inj h⟩

theorem eq_false_iff_says {b : Bool} (h : env.flag name true = .ok b) :
    b = false ↔ env.Says name fun cs => cs = "false".toList := by
  refine says_iff (fun b => b = false) h nofun fun {cs b} hb => ?_
  unfold Literal.flag at hb
  split at hb
  · rename_i htrue
    cases hb
    rw [htrue]
    decide
  · split at hb
    · rename_i hfalse
      cases hb
      exact iff_of_true rfl hfalse
    · cases hb

end Environment

theorem ok_of_bind {ε α β : Type} {x : Except ε α} {f : α → Except ε β} {b : β}
    (h : x >>= f = .ok b) : ∃ a, x = .ok a ∧ f a = .ok b := by
  cases x with
  | error => cases h
  | ok a => exact ⟨a, rfl, h⟩

/-! ## what is valid, and what is safe -/

namespace Config

variable {c : Config}

theorem validate_eq_none_iff : c.validate = none ↔
    0 < c.maxWorkers ∧ c.minWorkers ≤ c.maxWorkers ∧ 0 < c.maxQueueSize ∧
      ¬ c.scaleUpCpu ≤ c.scaleDownCpu := by
  unfold validate
  split
  · exact iff_of_false nofun (by omega)
  · split
    · exact iff_of_false nofun (by omega)
    · split
      · exact iff_of_false nofun (by omega)
      · split
        · rename_i hle
          exact iff_of_false nofun fun h => h.2.2.2 hle
        · rename_i hmax hmin hroom hapart
          exact iff_of_true rfl ⟨by omega, by omega, by omega, hapart⟩

/-- the thresholds of valid settings stand in their order, unless one is NaN -/
theorem scaleDownCpu_lt_iff (hc : c.validate = none) :
    c.scaleDownCpu < c.scaleUpCpu ↔ c.scaleUpCpu.isNaN = false ∧ c.scaleDownCpu.isNaN = false := by
  obtain ⟨-, -, -, hapart⟩ := validate_eq_none_iff.mp hc
  rw [Double.lt_iff_not_le, and_iff_left hapart, and_comm]

/-- what the parts of a pool count on: that there may be workers and that tasks may wait, that no
load is both above the upper threshold and below the lower one, and that there is time between two
rounds of scaling -/
structure Safe (c : Config) : Prop where
  workers : 1 ≤ c.maxWorkers
  bounds : c.minWorkers ≤ c.maxWorkers
  room : 1 ≤ c.maxQueueSize
  thresholds : c.scaleDownCpu < c.scaleUpCpu
  period : c.autoscaling = true → 0 < c.autoscaleInterval.nanos

theorem of_ofEnvironment {env : Environment} (h : ofEnvironment env = .ok c) :
    env.flag "POOL_AUTOSCALING" true = .ok c.autoscaling ∧
      env.millis "POOL_AUTOSCALE_INTERVAL_MS" (.ofMillis 10000) = .ok c.autoscaleInterval ∧
      env.percent "POOL_SCALE_UP_CPU" 75.0 = .ok c.scaleUpCpu ∧
      env.percent "POOL_SCALE_DOWN_CPU" 25.0 = .ok c.scaleDownCpu := by
  unfold ofEnvironment at h
  obtain ⟨minWorkers, -, h⟩ := ok_of_bind h
  obtain ⟨maxWorkers, -, h⟩ := ok_of_bind h
  obtain ⟨autoscaling, hautoscaling, h⟩ := ok_of_bind h
  obtain ⟨interval, hinterval, h⟩ := ok_of_bind h
  obtain ⟨up, hup, h⟩ := ok_of_bind h
  obtain ⟨down, hdown, h⟩ := ok_of_bind h
  obtain ⟨idleTimeout, -, h⟩ := ok_of_bind h
  obtain ⟨maxQueueSize, -, h⟩ := ok_of_bind h
  obtain ⟨taskTimeout, -, h⟩ := ok_of_bind h
  obtain ⟨maxRetries, -, h⟩ := ok_of_bind h
  obtain ⟨retryDelay, -, h⟩ := ok_of_bind h
  obtain ⟨affinity, -, h⟩ := ok_of_bind h
  obtain ⟨stopGrace, -, h⟩ := ok_of_bind h
  cases h
  exact ⟨hautoscaling, hinterval, hup, hdown⟩

end Config

namespace ServerConfig

variable {env : Environment} {s : ServerConfig}

theorem of_ofEnvironment (h : ofEnvironment env = .ok s) :
    Config.ofEnvironment env = .ok s.pool ∧ s.pool.validate = none := by
  unfold ofEnvironment at h
  obtain ⟨pool, hpool, h⟩ := ok_of_bind h
  split at h
  · cases h
  · rename_i hvalid
    obtain ⟨port, -, h⟩ := ok_of_bind h
    cases h
    exact ⟨hpool, hvalid⟩

/-- **settings that were read are safe**, unless a threshold spells NaN or the pool scales itself
and its interval spells zero.  Whatever the texts are, there may be workers and tasks may wait, and
the thresholds are refused if they stand in the wrong order. -/
theorem safe_iff (h : ofEnvironment env = .ok s) :
    (1 ≤ s.pool.maxWorkers ∧ s.pool.minWorkers ≤ s.pool.maxWorkers ∧ 1 ≤ s.pool.maxQueueSize) ∧
      ¬ s.pool.scaleUpCpu ≤ s.pool.scaleDownCpu ∧
      (s.pool.scaleDownCpu < s.pool.scaleUpCpu ↔
        ¬ env.Says "POOL_SCALE_UP_CPU" Literal.SpellsNaN ∧
        ¬ env.Says "POOL_SCALE_DOWN_CPU" Literal.SpellsNaN) ∧
      (0 < s.pool.autoscaleInterval.nanos ↔
        ¬ env.Says "POOL_AUTOSCALE_INTERVAL_MS" Literal.SpellsZero) ∧
      (s.pool.Safe ↔
        (¬ env.Says "POOL_SCALE_UP_CPU" Literal.SpellsNaN ∧
          ¬ env.Says "POOL_SCALE_DOWN_CPU" Literal.SpellsNaN) ∧
        (¬ env.Says "POOL_AUTOSCALE_INTERVAL_MS" Literal.SpellsZero ∨
          env.Says "POOL_AUTOSCALING" fun cs => cs = "false".toList)) := by
  obtain ⟨hpool, hvalid⟩ := of_ofEnvironment h
  obtain ⟨hflag, hinterval, hup, hdown⟩ := Config.of_ofEnvironment hpool
  obtain ⟨hmax, hmin, hroom, hapart⟩ := Config.validate_eq_none_iff.mp hvalid
  have hthresholds : s.pool.scaleDownCpu < s.pool.scaleUpCpu ↔
      ¬ env.Says "POOL_SCALE_UP_CPU" Literal.SpellsNaN ∧
      ¬ env.Says "POOL_SCALE_DOWN_CPU" Literal.SpellsNaN := by
    rw [Config.scaleDownCpu_lt_iff hvalid,
      ← Environment.isNaN_iff_says hup (by decide +kernel),
      ← Environment.isNaN_iff_says hdown (by decide +kernel), Bool.not_eq_true, Bool.not_eq_true]
  have hperiod : 0 < s.pool.autoscaleInterval.nanos ↔
      ¬ env.Says "POOL_AUTOSCALE_INTERVAL_MS" Literal.SpellsZero := by
    rw [← Environment.nanos_eq_zero_iff_says hinterval (by decide), Nat.pos_iff_ne_zero]
  have hoff := Environment.eq_false_iff_says hflag
  refine ⟨⟨hmax, hmin, hroom⟩, hapart, hthresholds, hperiod, fun hs => ?_, fun hs => ?_⟩
  · refine ⟨hthresholds.mp hs.thresholds, ?_⟩
    cases hon : s.pool.autoscaling with
    | false => exact .inr (hoff.mp hon)
    | true => exact .inl (hperiod.mp (hs.period hon))
  · refine ⟨hmax, hmin, hroom, hthresholds.mpr hs.1, fun hon => ?_⟩
    rcases hs.2 with hzero | hfalse
    · exact hperiod.mpr hzero
    · rw [hoff.mpr hfalse] at hon
      cases hon

/-- an upper threshold and an interval, with blanks and a sign -/
def tuned : Environment :=
  [("POOL_SCALE_UP_CPU", " +9e1"), ("POOL_AUTOSCALE_INTERVAL_MS", "+0250 ")]

/-- an upper threshold that is NaN -/
def boundless : Environment := [("POOL_SCALE_UP_CPU", "NaN")]

/-- no time at all between two rounds of scaling -/
def restless : Environment := [("POOL_AUTOSCALE_INTERVAL_MS", "0")]

theorem ofEnvironment_tuned : ofEnvironment tuned
    = .ok ⟨8080, { scaleUpCpu := 90.0, autoscaleInterval := .ofMillis 250 }⟩ := by
  rfl

theorem ofEnvironment_boundless : ofEnvironment boundless
    = .ok ⟨8080, { scaleUpCpu := 0.0 / 0.0 }⟩ := by
  rfl

theorem ofEnvironment_restless : ofEnvironment restless
    = .ok ⟨8080, { autoscaleInterval := .ofMillis 0 }⟩ := by
  rfl

/-- the settings in `tuned` are safe, and those in `boundless` and in `restless` are not -/
theorem safe_iff_tuned :
    (∃ s, ofEnvironment tuned = .ok s ∧ s.pool.Safe ∧
      ¬ tuned.Says "POOL_SCALE_UP_CPU" Literal.SpellsNaN ∧
      ¬ tuned.Says "POOL_AUTOSCALE_INTERVAL_MS" Literal.SpellsZero) ∧
    (∃ s, ofEnvironment boundless = .ok s ∧ ¬ s.pool.Safe) ∧
    ∃ s, ofEnvironment restless = .ok s ∧ ¬ s.pool.Safe := by
  refine ⟨⟨_, ofEnvironment_tuned, ?_⟩, ⟨_, ofEnvironment_boundless, fun hsafe => ?_⟩,
    ⟨_, ofEnvironment_restless, fun hsafe => ?_⟩⟩
  · obtain ⟨-, -, hthresholds, hperiod, -⟩ := safe_iff ofEnvironment_tuned
    have hsafe : Config.Safe { scaleUpCpu := 90.0, autoscaleInterval := .ofMillis 250 } :=
      ⟨by decide, by decide, by decide, by decide +kernel, fun _ => by decide⟩
    exact ⟨hsafe, (hthresholds.mp hsafe.thresholds).1, hperiod.mp (hsafe.period rfl)⟩
  · have hnan := ((safe_iff ofEnvironment_boundless).2.2.2.2.mp hsafe).1.1
    exact hnan ⟨"NaN", rfl, [], by simp, "NaN".toList, rfl, rfl⟩
  · have hperiod := hsafe.period rfl
    exact absurd hperiod (by decide)

/-- **settings that were read need not be safe**: a threshold may be NaN, and the interval of a pool
that scales itself may be zero -/
theorem not_safe : (¬ ∀ (env : Environment) (s : ServerConfig), ofEnvironment env = .ok s →
      s.pool.scaleDownCpu < s.pool.scaleUpCpu) ∧
    ¬ ∀ (env : Environment) (s : ServerConfig), ofEnvironment env = .ok s →
      s.pool.autoscaling = true → 0 < s.pool.autoscaleInterval.nanos := by
  refine ⟨fun h => ?_, fun h => ?_⟩
  · exact absurd (h _ _ ofEnvironment_boundless) (by decide +kernel)
  · exact absurd (h _ _ ofEnvironment_restless rfl) (by decide)

end ServerConfig

end TaskPool
