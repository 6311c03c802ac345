import TaskPool.Time.Calendar

/-!
# The date of a day

* `Date.yearOfDay`           the year of an era that a day lies in, as `ofNumber` counts it
* `Date.yearOfDay_eq`        it is the year that begins at or before that day and ends after it
* `Date.isValid_ofNumber`    what `ofNumber` answers is a date of the calendar
* `Date.number_ofNumber`     and it has the number that it was made from

Why the quotients of `yearOfDay` are right: the days that are taken off before the division make
every year 365 days long, and taking them off keeps days in their order.  So it is enough to look
at the first and the last day of each year.
-/

namespace TaskPool

namespace Date

/-! ## years of an era -/

/-- a day of an era with the leap days before it taken off -/
def evened (d : Nat) : Nat := d - d / 1460 + d / 36524 - d / 146096

def yearOfDay (d : Nat) : Nat := evened d / 365

theorem evened_le_succ (d : Nat) : evened d ≤ evened (d + 1) := by
  unfold evened
  omega

theorem evened_mono {c d : Nat} (h : c ≤ d) : evened c ≤ evened d := by
  induction h with
  | refl => exact Nat.le_refl _
  | step _ ih => exact Nat.le_trans ih (evened_le_succ _)

/-- the first day of each year and the day before the next one -/
theorem evened_ends : ∀ y < 400, 365 * y ≤ evened (daysBefore y) ∧
    evened (daysBefore (y + 1) - 1) < 365 * (y + 1) := by
  decide +kernel

theorem exists_year (years : Nat) {d : Nat} (h : d < daysBefore years) :
    ∃ y < years, daysBefore y ≤ d ∧ d < daysBefore (y + 1) := by
  induction years with
  | zero => exact absurd h (Nat.not_lt_zero d)
  | succ years ih =>
    by_cases hd : d < daysBefore years
    · obtain ⟨y, hy, hrange⟩ := ih hd
      exact ⟨y, by omega, hrange⟩
    · exact ⟨years, by omega, by omega, h⟩

theorem yearOfDay_eq {y d : Nat} (hy : y < 400) (hlow : daysBefore y ≤ d)
    (hhigh : d < daysBefore (y + 1)) : yearOfDay d = y := by
  obtain ⟨hfirst, hlast⟩ := evened_ends y hy
  have hle : evened (daysBefore y) ≤ evened d := evened_mono hlow
  have hge : evened d ≤ evened (daysBefore (y + 1) - 1) := evened_mono (by omega)
  unfold yearOfDay
  omega

/-- a year is a day longer than 365 days only if a leap day ends it -/
theorem daysBefore_succ : ∀ y < 400, daysBefore (y + 1) ≤ daysBefore y + 365 ∨
    daysBefore (y + 1) = daysBefore y + 366 ∧ isLeapYear (y + 1 : Nat) = true := by
  decide +kernel

/-- a day of an era is one of the 365 days of its year, or the leap day at the end of it -/
theorem day_of_year {d : Nat} (h : d < daysOfEra) :
    yearOfDay d < 400 ∧ daysBefore (yearOfDay d) ≤ d ∧
      (d < daysBefore (yearOfDay d) + 365 ∨
        d = daysBefore (yearOfDay d) + 365 ∧ isLeapYear (yearOfDay d + 1 : Nat) = true) := by
  have hlast : daysBefore 400 = 146096 := by decide
  by_cases hd : d < 146096
  · obtain ⟨y, hy, hlow, hhigh⟩ := exists_year 400 (hlast ▸ hd)
    rw [yearOfDay_eq hy hlow hhigh]
    refine ⟨hy, hlow, ?_⟩
    rcases daysBefore_succ y hy with hplain | ⟨hlong, hleap⟩
    · left
      omega
    · by_cases hend : d < daysBefore y + 365
      · exact .inl hend
      · exact .inr ⟨by omega, hleap⟩
  · -- the leap day that ends an era lies behind its four hundred years
    have heq : d = 146096 := by
      unfold daysOfEra at h
      omega
    subst heq
    decide

/-! ## months of a year -/

/-- the month that a day of a year lies in, counted from March -/
def monthOfDay (day : Nat) : Nat := (5 * day + 2) / 153

/-- the days of a year before one of its months -/
def daysBeforeMonth (m : Nat) : Nat := (153 * m + 2) / 5

/-- the month's number in the year that begins in January -/
def monthNumber (m : Nat) : Nat := if m < 10 then m + 3 else m - 9

theorem dayOfYear_monthNumber {day : Nat} (h : day ≤ 365) :
    dayOfYear (monthNumber (monthOfDay day)) (day - daysBeforeMonth (monthOfDay day) + 1)
      = day := by
  unfold dayOfYear monthNumber daysBeforeMonth monthOfDay
  split <;> split <;> omega

theorem monthNumber_valid {m : Nat} (h : m < 12) : 1 ≤ monthNumber m ∧ monthNumber m ≤ 12 := by
  unfold monthNumber
  split <;> omega

/-- only the 29th of February asks for a leap year -/
theorem day_of_month : ∀ day ≤ 365, monthOfDay day < 12 ∧ ∀ b : Bool, (day = 365 → b = true) →
    day - daysBeforeMonth (monthOfDay day) + 1 ≤
      (if monthNumber (monthOfDay day) = 2 then (if b then 29 else 28)
      else if monthNumber (monthOfDay day) = 4 ∨ monthNumber (monthOfDay day) = 6 ∨
        monthNumber (monthOfDay day) = 9 ∨ monthNumber (monthOfDay day) = 11 then 30
      else 31) := by
  decide +kernel

/-! ## days of the calendar -/

/-- the date of a day of a year that begins in March -/
def ofMarch (y : Int) (day : Nat) : Date :=
  let m := monthOfDay day
  ⟨y + (if monthNumber m ≤ 2 then 1 else 0), monthNumber m, day - daysBeforeMonth m + 1⟩

/-- the date of a day of an era -/
def ofEra (era : Int) (d : Nat) : Date :=
  ofMarch (era * 400 + yearOfDay d) (d - daysBefore (yearOfDay d))

theorem ofNumber_eq_ofEra (n : Int) :
    ofNumber n = ofEra ((n + shift) / daysOfEra) ((n + shift) % daysOfEra).toNat := rfl

theorem isLeapYear_add (era y : Int) : isLeapYear (era * 400 + y) = isLeapYear y := by
  have hfour : (era * 400 + y) % 4 = y % 4 := by omega
  have hhundred : (era * 400 + y) % 100 = y % 100 := by omega
  have hera : (era * 400 + y) % 400 = y % 400 := by omega
  rw [isLeapYear, isLeapYear, hfour, hhundred, hera]

theorem isValid_ofMarch {y : Int} {day : Nat} (h : day ≤ 365)
    (hleap : day = 365 → isLeapYear (y + 1) = true) : (ofMarch y day).isValid = true := by
  obtain ⟨hm, hday⟩ := day_of_month day h
  obtain ⟨hlow, hhigh⟩ := monthNumber_valid hm
  have hlength : (ofMarch y day).day ≤ daysInMonth (ofMarch y day).year (ofMarch y day).month :=
    hday _ fun heq => by
      subst heq
      exact hleap rfl
  have hpos : 1 ≤ (ofMarch y day).day := Nat.le_add_left 1 _
  simp only [isValid, Bool.and_eq_true, decide_eq_true_eq]
  exact ⟨⟨⟨hlow, hhigh⟩, hpos⟩, hlength⟩

theorem number_ofMarch {era : Int} {y day : Nat} (hy : y < 400) (h : day ≤ 365) :
    (ofMarch (era * 400 + y) day).number
      = era * daysOfEra + (daysBefore y + day : Nat) - shift := by
  have hday : dayOfYear (ofMarch (era * 400 + y) day).month (ofMarch (era * 400 + y) day).day
      = day := dayOfYear_monthNumber h
  have hyear : (if (ofMarch (era * 400 + y) day).month ≤ 2
      then (ofMarch (era * 400 + y) day).year - 1 else (ofMarch (era * 400 + y) day).year)
      = era * 400 + y := by
    unfold ofMarch
    dsimp only
    split <;> omega
  have hera : (era * 400 + (y : Int)) / 400 = era := by omega
  have hrest : ((era * 400 + (y : Int)) % 400).toNat = y := by omega
  -- a January or February was counted to the year after, and `number` takes that back
  unfold number
  rw [hyear]
  dsimp only
  rw [hera, hrest, hday]

theorem isValid_ofEra (era : Int) {d : Nat} (h : d < daysOfEra) : (ofEra era d).isValid = true := by
  obtain ⟨-, hlow, hend⟩ := day_of_year h
  refine isValid_ofMarch (by omega) fun heq => ?_
  rcases hend with hend | ⟨-, hleap⟩
  · omega
  · rw [Int.add_assoc, isLeapYear_add]
    exact hleap

theorem number_ofEra (era : Int) {d : Nat} (h : d < daysOfEra) :
    (ofEra era d).number = era * daysOfEra + d - shift := by
  obtain ⟨hy, hlow, hend⟩ := day_of_year h
  rw [ofEra, number_ofMarch hy (by omega), Nat.add_sub_cancel' hlow]

theorem dayOfEra_lt (n : Int) : ((n + shift) % daysOfEra).toNat < daysOfEra := by
  unfold daysOfEra
  omega

/-- **a number makes a date of the calendar** -/
theorem isValid_ofNumber (n : Int) : (ofNumber n).isValid = true :=
  isValid_ofEra _ (dayOfEra_lt n)

/-- **and the date has that number** -/
theorem number_ofNumber (n : Int) : (ofNumber n).number = n := by
  rw [ofNumber_eq_ofEra, number_ofEra _ (dayOfEra_lt n)]
  unfold daysOfEra
  omega

end Date

end TaskPool
