import TaskPool.Uuid
import Mathlib.Algebra.Ring.Nat

/-!
# Identifiers are read back

* `appendHex?_hexDigits`   the lowest digits of a number, read again
* `ofGroups?_groups`       digits in groups are read as if they were not grouped
* `Uuid.ofText_text`       an identifier is read back from its text

The written form is none of the other three: it is longer than the digits alone, and it begins with
a digit, which no brace is, nor the letter that `urn` begins with.
-/

namespace TaskPool

namespace Uuid

theorem hexValue?_hexDigit (n : Nat) : hexValue? (hexDigit n) = some (n % 16) := by
  have hall : ∀ d < 16, hexValue? (Nat.digitChar d) = some d := by decide
  exact hall (n % 16) (Nat.mod_lt n (by omega))

theorem appendHex?_append (n : Nat) (xs ys : List Char) :
    appendHex? n (xs ++ ys) = (appendHex? n xs).bind fun n => appendHex? n ys := by
  induction xs generalizing n with
  | nil => rfl
  | cons x xs ih =>
    rw [List.cons_append, appendHex?, appendHex?]
    cases hexValue? x with
    | none => rfl
    | some d => exact ih (n * 16 + d)

/-- the lowest digits of a number, read again -/
theorem appendHex?_hexDigits (count n v : Nat) :
    appendHex? n (hexDigits count v) = some (n * 16 ^ count + v % 16 ^ count) := by
  induction count generalizing v with
  | zero => simp [hexDigits, appendHex?, Nat.mod_one]
  | succ count ih =>
    have hsplit : v % 16 ^ (count + 1) = v / 16 % 16 ^ count * 16 + v % 16 := by
      rw [Nat.pow_succ', Nat.mod_mul]
      omega
    rw [hexDigits, appendHex?_append, ih, hsplit]
    show (hexValue? (hexDigit v)).bind (fun d => some (_ * 16 + d)) = _
    rw [hexValue?_hexDigit, Nat.pow_succ]
    show some _ = some _
    congr 1
    rw [Nat.add_mul, Nat.mul_assoc]
    omega

theorem length_hexDigits (count v : Nat) : (hexDigits count v).length = count := by
  induction count generalizing v with
  | zero => rfl
  | succ count ih => rw [hexDigits, List.length_append, ih, List.length_singleton]

theorem hexValue?_of_mem {count v : Nat} {c : Char} (h : c ∈ hexDigits count v) :
    (hexValue? c).isSome = true := by
  induction count generalizing v with
  | zero => cases h
  | succ count ih =>
    rcases List.mem_append.mp h with h | h
    · exact ih h
    · rw [List.mem_singleton.mp h, hexValue?_hexDigit]
      rfl

/-! ## groups -/

theorem intercalate_groups (size : Nat) {more : List Nat} (hm : more ≠ []) (ds : List Char) :
    List.intercalate ['-'] (groups (size :: more) ds)
      = ds.take size ++ '-' :: List.intercalate ['-'] (groups more (ds.drop size)) := by
  cases more with
  | nil => exact absurd rfl hm
  | cons size' more => simp [groups, List.intercalate]

/-- digits in groups are read as if they were not grouped -/
theorem ofGroups?_groups {sizes : List Nat} (hs : sizes ≠ []) (n : Nat) {ds : List Char}
    (hd : ds.length = sizes.sum) :
    ofGroups? sizes n (List.intercalate ['-'] (groups sizes ds)) = appendHex? n ds := by
  induction sizes generalizing n ds with
  | nil => exact absurd rfl hs
  | cons size more ih =>
    rw [List.sum_cons] at hd
    cases more with
    | nil =>
      rw [List.sum_nil, Nat.add_zero] at hd
      have hone : List.intercalate ['-'] (groups [size] ds) = ds := by
        simp [groups, List.intercalate, ← hd]
      rw [hone, ofGroups?, if_pos hd]
    | cons size' more =>
      have htake : (ds.take size).length = size := by
        rw [List.length_take]
        omega
      have hdrop : (ds.drop size).length = (size' :: more).sum := by
        rw [List.length_drop]
        omega
      have hmore : size' :: more ≠ [] := List.cons_ne_nil size' more
      calc ofGroups? (size :: size' :: more) n
              (List.intercalate ['-'] (groups (size :: size' :: more) ds))
        _ = (appendHex? n (ds.take size)).bind fun n => ofGroups? (size' :: more) n
              (List.intercalate ['-'] (groups (size' :: more) (ds.drop size))) := by
            rw [intercalate_groups size hmore, ofGroups?]
            simp only [List.drop_left' htake, List.take_left' htake]
            exact hmore
        _ = (appendHex? n (ds.take size)).bind fun n => appendHex? n (ds.drop size) := by
            congr 1
            funext n
            exact ih hmore n hdrop
        _ = appendHex? n ds := by rw [← appendHex?_append, List.take_append_drop]

/-! ## the written form -/

theorem length_groups {sizes : List Nat} (hs : sizes ≠ []) {ds : List Char}
    (hd : ds.length = sizes.sum) :
    (List.intercalate ['-'] (groups sizes ds)).length + 1 = ds.length + sizes.length := by
  induction sizes generalizing ds with
  | nil => exact absurd rfl hs
  | cons size more ih =>
    rw [List.sum_cons] at hd
    cases more with
    | nil =>
      rw [List.sum_nil, Nat.add_zero] at hd
      simp [groups, List.intercalate, ← hd]
    | cons size' more =>
      have hmore : size' :: more ≠ [] := List.cons_ne_nil size' more
      have hdrop : (ds.drop size).length = (size' :: more).sum := by
        rw [List.length_drop]
        omega
      have hrest := ih hmore hdrop
      rw [intercalate_groups size hmore, List.length_append, List.length_cons, List.length_take,
        List.length_cons]
      omega

theorem length_chars (u : Uuid) : u.chars.length = 36 := by
  have hdigits := length_hexDigits 32 u.value
  have hlength := length_groups (show groupSizes ≠ [] by decide) hdigits
  rw [hdigits] at hlength
  exact Nat.succ.inj hlength

theorem chars_head (u : Uuid) : ∃ c cs, u.chars = c :: cs ∧ (hexValue? c).isSome = true := by
  cases hd : hexDigits 32 u.value with
  | nil =>
    have hlength := length_hexDigits 32 u.value
    rw [hd] at hlength
    cases hlength
  | cons c ds =>
    have hc : c ∈ hexDigits 32 u.value := by
      rw [hd]
      exact List.mem_cons_self ..
    have hchars : u.chars = (c :: ds).take 8 ++ '-' ::
        List.intercalate ['-'] (groups [4, 4, 4, 12] ((c :: ds).drop 8)) := by
      rw [← intercalate_groups 8 (by decide), ← hd]
      rfl
    exact ⟨c, _, hchars, hexValue?_of_mem hc⟩

/-- the written form has no frame -/
theorem unframe_chars (u : Uuid) : unframe u.chars = (u.chars, 0, true) := by
  obtain ⟨c, cs, hc, hhex⟩ := u.chars_head
  have hbrace : c ≠ '\x7b' := by
    rintro rfl
    exact absurd hhex (by decide)
  have hu : 'u' ≠ c := by
    rintro rfl
    exact absurd hhex (by decide)
  have hurn : urn.isPrefixOf (c :: cs) = false := by
    have hletters : urn = ['u', 'r', 'n', ':', 'u', 'u', 'i', 'd', ':'] := by decide
    rw [hletters]
    simp [List.isPrefixOf, hu]
  rw [hc]
  unfold unframe
  split
  · rename_i heq
    cases heq
    exact absurd rfl hbrace
  · rw [hurn]
    rfl

/-- the groups of the written form say the number -/
theorem ofGroups?_chars {u : Uuid} (h : u.value < 2 ^ 128) :
    ofGroups? groupSizes 0 u.chars = some u.value := by
  have hsum : groupSizes.sum = 32 := by decide
  have hdigits : (hexDigits 32 u.value).length = groupSizes.sum := by
    rw [length_hexDigits, hsum]
  have hpow : (16 : Nat) ^ 32 = 2 ^ 128 := (Nat.pow_mul 2 4 32).symm
  have hread := appendHex?_hexDigits 32 0 u.value
  rw [hpow, Nat.mod_eq_of_lt h, Nat.zero_mul, Nat.zero_add] at hread
  rw [chars, ofGroups?_groups (by decide) 0 hdigits, hread]

/-- **an identifier is read back from its text** -/
theorem ofText_text {u : Uuid} (h : u.value < 2 ^ 128) : ofText u.text = .ok u := by
  have hlength := u.length_chars
  have hread : ofChars? u.chars = some u.value := by
    rw [ofChars?, if_neg (by omega), unframe_chars, ofGroups?_chars h]
  rw [ofText, text, String.toList_ofList, hread]

end Uuid

end TaskPool
