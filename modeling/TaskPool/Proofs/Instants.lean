import TaskPool.Proofs.Calendar
import TaskPool.Proofs.Decimals
import Mathlib.Tactic.SplitIfs

/-!
# Points in time are read back

* `Rfc3339.number_digits`    digits are read as far as the reader may read
* `Rfc3339.fraction_write`   a fraction of 0, 3, 6 or 9 digits is read back in nanoseconds
* `Rfc3339.fields_write`     every part of a written text is read back
* `Rfc3339.read_write`       and so is the point in time, for years of four digits

Why the digits may stand one behind the other: every number but the fraction is written in as many
digits as its reader takes at most, and the fraction is followed by a letter.
-/

namespace TaskPool

namespace Rfc3339

/-! ## numbers -/

theorem not_blank_of_isDigit {c : Char} (h : isDigit c = true) : isBlank c = false := by
  simp only [isDigit, Bool.and_eq_true, decide_eq_true_eq] at h
  have hlow : 48 ≤ c.toNat := h.1
  have hhigh : c.toNat ≤ 57 := h.2
  simp only [isBlank, Bool.or_eq_false_iff, Bool.and_eq_false_iff, beq_eq_false_iff_ne, ne_eq,
    decide_eq_false_iff_not]
  omega

theorem skipBlank_of_not_blank {c : Char} (h : isBlank c = false) (cs : List Char) :
    skipBlank (c :: cs) = c :: cs := by
  rw [skipBlank, List.dropWhile_cons, h]
  rfl

/-- digits are read as far as the reader may read, or up to what is no digit -/
theorem number_digits {width : Nat} {ds rest : List Char} (hne : ds ≠ [])
    (hd : ∀ c ∈ ds, isDigit c = true) (hl : ds.length ≤ width)
    (hr : ds.length = width ∨ ∀ c ∈ rest.head?, isDigit c = false) :
    number width (ds ++ rest) = .ok (ofDigits ds, rest) := by
  -- the reader cuts the text off at its width first, and then at what is no digit
  have hstop : (rest.take (width - ds.length)).takeWhile isDigit = [] := by
    rcases hr with heq | hhead
    · rw [heq, Nat.sub_self]
      rfl
    · cases rest with
      | nil => simp
      | cons c rest =>
        cases width - ds.length with
        | zero => rfl
        | succ n =>
          rw [List.take_succ_cons, List.takeWhile_cons, hhead c rfl]
          rfl
  have htaken : ((ds ++ rest).take width).takeWhile isDigit = ds := by
    rw [List.take_append, List.take_of_length_le hl, List.takeWhile_append_of_pos hd, hstop,
      List.append_nil]
  obtain ⟨c, cs, rfl, hc⟩ := exists_head hne hd
  rw [List.cons_append] at htaken ⊢
  rw [number, if_pos hc]
  dsimp only
  rw [htaken, ← List.cons_append, List.drop_left]

theorem padded_ne_nil (width n : Nat) : padded width n ≠ [] := by
  intro h
  exact Nat.toDigits_ne_nil (List.append_eq_nil_iff.mp h).2

theorem number_padded {width n : Nat} (hw : 0 < width) (h : n < 10 ^ width) (rest : List Char) :
    number width (padded width n ++ rest) = .ok (n, rest) := by
  have hl := length_padded hw h
  rw [number_digits (padded_ne_nil width n) (fun c => isDigit_of_mem_padded) (Nat.le_of_eq hl)
    (.inl hl), ofDigits_padded]

theorem skipBlank_padded (width n : Nat) (rest : List Char) :
    skipBlank (padded width n ++ rest) = padded width n ++ rest := by
  obtain ⟨c, cs, heq, hc⟩ := exists_head (padded_ne_nil width n) fun c => isDigit_of_mem_padded
  rw [heq, List.cons_append, skipBlank_of_not_blank (not_blank_of_isDigit hc)]

/-! ## parts of a text -/

theorem field_padded {low high n : Nat} (hlow : low ≤ n) (hhigh : n ≤ high) (h : n < 100)
    (rest : List Char) : field low high (padded 2 n ++ rest) = .ok (n, rest) := by
  rw [field, skipBlank_padded, number_padded (by omega) h]
  show (if low ≤ n ∧ n ≤ high then Except.ok (n, rest) else _) = _
  rw [if_pos ⟨hlow, hhigh⟩]

theorem mark_self {m : Char} (h : isBlank m = false) (rest : List Char) :
    mark m (m :: rest) = .ok rest := by
  rw [mark, skipBlank_of_not_blank h]
  exact if_pos rfl

theorem year_padded {y : Nat} (h : y < 10000) (rest : List Char) :
    year (padded 4 y ++ rest) = .ok ((y : Int), rest) := by
  have hnumber : number 4 (padded 4 y ++ rest) = .ok (y, rest) := number_padded (by omega) h rest
  obtain ⟨c, cs, heq, hc⟩ := exists_head (padded_ne_nil 4 y) fun c => isDigit_of_mem_padded
  have hminus : c ≠ '-' := by
    rintro rfl
    exact absurd hc (by decide)
  have hplus : c ≠ '+' := by
    rintro rfl
    exact absurd hc (by decide)
  rw [heq, List.cons_append] at hnumber
  have hlow : Int32.minValue.toInt ≤ (y : Int) := by
    have hmin : Int32.minValue.toInt ≤ 0 := by decide
    omega
  have hhigh : (y : Int) ≤ Int32.maxValue.toInt := by
    have hmax : 10000 ≤ Int32.maxValue.toInt := by decide
    omega
  unfold year
  rw [skipBlank_padded, heq, List.cons_append]
  split
  · rename_i h
    exact absurd (List.cons.inj h).1 hminus
  · rename_i h
    exact absurd (List.cons.inj h).1 hplus
  · rw [hnumber]
    exact if_pos ⟨hlow, hhigh⟩

/-- a fraction is read up to what is no digit, and counted in nanoseconds -/
theorem fraction_padded {width n : Nat} (hw : 0 < width) (hw' : width ≤ 9) (h : n < 10 ^ width)
    {c : Char} (hc : isDigit c = false) (rest : List Char) :
    fraction ('.' :: padded width n ++ c :: rest) = .ok (n * 10 ^ (9 - width), c :: rest) := by
  have hl := length_padded hw h
  have hread : number 9 (padded width n ++ c :: rest) = .ok (n, c :: rest) := by
    rw [number_digits (padded_ne_nil width n) (fun c => isDigit_of_mem_padded) (by omega)
      (.inr fun d hd => by cases hd; exact hc), ofDigits_padded]
  have htaken : (padded width n ++ c :: rest).length - (c :: rest).length = width := by
    rw [List.length_append, Nat.add_sub_cancel, hl]
  rw [List.cons_append, fraction, hread]
  show Except.ok (n * Nat.pow 10 (9 - _), (c :: rest).dropWhile isDigit) = _
  rw [htaken, List.dropWhile_cons, hc]
  rfl

/-- **a fraction is read back** -/
theorem fraction_write {nanos : Nat} (h : nanos < nanosPerSecond) :
    fraction (writeFraction nanos ++ ['Z']) = .ok (nanos, ['Z']) := by
  have hz : isDigit 'Z' = false := by decide
  unfold nanosPerSecond at h
  unfold writeFraction
  split_ifs with hnone hmilli hmicro
  · rw [hnone]
    rfl
  · rw [fraction_padded (by omega) (by omega) (by omega) hz]
    congr 2
    omega
  · rw [fraction_padded (by omega) (by omega) (by omega) hz]
    congr 2
    omega
  · rw [fraction_padded (by omega) (by omega) h hz, Nat.sub_self, Nat.pow_zero, Nat.mul_one]

/-! ## whole texts -/

/-- the parts that a written text has -/
def partsOf (t : Timestamp) : Fields :=
  let time := (t.seconds % secondsPerDay).toNat
  ⟨Date.ofNumber (t.seconds / secondsPerDay), time / 3600, time / 60 % 60, time % 60, t.nanos, 0⟩

/-- what is written and read back: no leap second, and a year of four digits -/
structure Plain (t : Timestamp) : Prop where
  nanos : t.nanos < nanosPerSecond
  from0000 : 0 ≤ (Date.ofNumber (t.seconds / secondsPerDay)).year
  to9999 : (Date.ofNumber (t.seconds / secondsPerDay)).year ≤ 9999

variable {t : Timestamp}

theorem Plain.writeChars_eq (h : Plain t) :
    writeChars t =
      padded 4 (partsOf t).date.year.toNat ++ '-' :: (padded 2 (partsOf t).date.month ++
        '-' :: (padded 2 (partsOf t).date.day ++ 'T' :: (padded 2 (partsOf t).hour ++
        ':' :: (padded 2 (partsOf t).minute ++ ':' :: (padded 2 (partsOf t).second ++
        (writeFraction t.nanos ++ ['Z'])))))) := by
  have hleap : decide (nanosPerSecond ≤ t.nanos) = false :=
    decide_eq_false (Nat.not_le_of_lt h.nanos)
  have hyear : writeYear (partsOf t).date.year = padded 4 (partsOf t).date.year.toNat :=
    if_pos ⟨h.from0000, h.to9999⟩
  rw [← hyear]
  unfold writeChars
  simp only [hleap, Bool.false_eq_true, if_false, Nat.add_zero, List.append_assoc, List.cons_append]
  rfl

theorem daysInMonth_le (y : Int) (m : Nat) : Date.daysInMonth y m ≤ 31 := by
  unfold Date.daysInMonth
  split_ifs <;> omega

/-- every part is in the range that its reader asks for -/
theorem partsOf_ranges (t : Timestamp) :
    (1 ≤ (partsOf t).date.month ∧ (partsOf t).date.month ≤ 12) ∧
      (1 ≤ (partsOf t).date.day ∧ (partsOf t).date.day ≤ 31) ∧
      (partsOf t).hour ≤ 23 ∧ (partsOf t).minute ≤ 59 ∧ (partsOf t).second ≤ 59 := by
  have hvalid := Date.isValid_ofNumber (t.seconds / secondsPerDay)
  simp only [Date.isValid, Bool.and_eq_true, decide_eq_true_eq] at hvalid
  obtain ⟨⟨hmonth, hday⟩, hday'⟩ := hvalid
  have htime : (t.seconds % secondsPerDay).toNat < 86400 := by
    unfold secondsPerDay
    omega
  have hhour : (t.seconds % secondsPerDay).toNat / 3600 ≤ 23 := by omega
  have hminute : (t.seconds % secondsPerDay).toNat / 60 % 60 ≤ 59 := by omega
  have hsecond : (t.seconds % secondsPerDay).toNat % 60 ≤ 59 := by omega
  exact ⟨hmonth, ⟨hday, Nat.le_trans hday' (daysInMonth_le _ _)⟩, hhour, hminute, hsecond⟩

/-- **every part of a written text is read back** -/
theorem Plain.fields_write (h : Plain t) : fields (writeChars t) = .ok (partsOf t, []) := by
  obtain ⟨⟨hmonth, hmonth'⟩, ⟨hday, hday'⟩, hhour, hminute, hsecond⟩ := partsOf_ranges t
  have hyear : ((partsOf t).date.year.toNat : Int) = (partsOf t).date.year :=
    Int.toNat_of_nonneg h.from0000
  have hyear' : (partsOf t).date.year.toNat < 10000 := by
    have hle : (partsOf t).date.year ≤ 9999 := h.to9999
    omega
  have hdash : isBlank '-' = false := by decide
  have hcolon : isBlank ':' = false := by decide
  have hutc : offset (skipBlank ['Z']) = .ok (0, []) := rfl
  rw [h.writeChars_eq]
  unfold fields
  rw [year_padded hyear', hyear]
  simp only [bind, Except.bind, mark_self hdash, mark_self hcolon, separator, or_true, true_or,
    if_true, field_padded hmonth hmonth' (by omega), field_padded hday hday' (by omega),
    field_padded (Nat.zero_le _) hhour (by omega), field_padded (Nat.zero_le _) hminute (by omega),
    field_padded (Nat.zero_le _) (Nat.le_succ_of_le hsecond) (by omega), fraction_write h.nanos,
    hutc]
  rfl

/-- the days of four digits of years, roughly -/
theorem number_range {d : Date} (hlow : 0 ≤ d.year) (hhigh : d.year ≤ 9999) (hmonth : d.month ≤ 12)
    (hday : d.day ≤ 31) : -1000000 ≤ d.number ∧ d.number ≤ 4000000 := by
  have hdays : Date.dayOfYear d.month d.day ≤ 500 := by
    unfold Date.dayOfYear
    split <;> omega
  have hyear : -1 ≤ (if d.month ≤ 2 then d.year - 1 else d.year) ∧
      (if d.month ≤ 2 then d.year - 1 else d.year) ≤ 9999 := by
    split <;> omega
  unfold Date.number
  generalize (if d.month ≤ 2 then d.year - 1 else d.year) = year at hyear
  unfold Date.daysBefore Date.daysOfEra Date.shift
  dsimp only
  omega

/-- the years of four digits lie inside the calendar's -/
theorem Plain.timestamp_partsOf (h : Plain t) : (partsOf t).timestamp = .ok t := by
  obtain ⟨⟨-, hmonth⟩, ⟨-, hday⟩, -, -, hsecond⟩ := partsOf_ranges t
  have hfrom : 0 ≤ (partsOf t).date.year := h.from0000
  have hto : (partsOf t).date.year ≤ 9999 := h.to9999
  have hnumber : (partsOf t).date.number = t.seconds / secondsPerDay := Date.number_ofNumber _
  have hdate : ((partsOf t).date.isValid && decide (lowestYear ≤ (partsOf t).date.year) &&
      decide ((partsOf t).date.year ≤ highestYear)) = true := by
    have hvalid : (partsOf t).date.isValid = true := Date.isValid_ofNumber _
    unfold lowestYear highestYear
    simp only [hvalid, Bool.true_and, Bool.and_eq_true, decide_eq_true_eq]
    omega
  have hseconds : (partsOf t).date.number * secondsPerDay + ((partsOf t).hour * 3600 +
      (partsOf t).minute * 60 + (partsOf t).second : Nat) - (partsOf t).offset = t.seconds := by
    show (partsOf t).date.number * secondsPerDay +
      ((t.seconds % secondsPerDay).toNat / 3600 * 3600 +
        (t.seconds % secondsPerDay).toNat / 60 % 60 * 60 +
        (t.seconds % secondsPerDay).toNat % 60 : Nat) - 0 = t.seconds
    rw [hnumber]
    unfold secondsPerDay
    omega
  have hrange : startOfYear lowestYear ≤ t.seconds ∧ t.seconds < startOfYear (highestYear + 1) := by
    have hlow : startOfYear lowestYear ≤ -2000000 * 86400 := by decide
    have hhigh : 5000000 * 86400 ≤ startOfYear (highestYear + 1) := by decide
    have hrough := number_range hfrom hto hmonth hday
    rw [hnumber] at hrough
    unfold secondsPerDay at hrough
    omega
  have hutc : ¬ secondsPerDay ≤ (partsOf t).offset.natAbs := by
    show ¬ 86400 ≤ 0
    omega
  have hplain : (partsOf t).second ≠ 60 := by omega
  unfold Fields.timestamp
  rw [hdate, if_neg (by decide), if_neg hutc]
  simp only [if_neg hplain, hseconds, if_pos hrange]
  rfl

/-- **a point in time is read back from its text** -/
theorem Plain.read_write (h : Plain t) : read (write t) = .ok t := by
  rw [read, write, String.toList_ofList, h.fields_write]
  exact h.timestamp_partsOf

end Rfc3339

end TaskPool
