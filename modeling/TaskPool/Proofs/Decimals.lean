import TaskPool.Json.Text
import TaskPool.Json.Token
import TaskPool.Time.Rfc3339
import Mathlib.Algebra.Ring.Nat

/-!
# What is written in digits is read back

* `ofDigits_toDigits`, `ofDigits_padded`   the digits of a number say that number
* `Json.Ends`            what may follow a value inside a list or an object
* `Json.readNumber_toDigits`   a whole number of 64 bits is read back from its digits

Why a number must be followed by something: a reader of digits takes all of them, so it stops behind
the number only in front of what is no digit.
-/

namespace TaskPool

/-! ## digits -/

/-- what is not empty begins with one of the characters that it consists of -/
theorem exists_head {p : Char → Bool} {cs : List Char} (hne : cs ≠ []) (h : ∀ c ∈ cs, p c = true) :
    ∃ c rest, cs = c :: rest ∧ p c = true := by
  cases cs with
  | nil => exact absurd rfl hne
  | cons c rest => exact ⟨c, rest, rfl, h c (List.mem_cons_self ..)⟩

namespace Rfc3339

theorem digitValue_digitChar {d : Nat} (h : d < 10) : digitValue (Nat.digitChar d) = d := by
  decide +revert

theorem isDigit_of_mem_toDigits {n : Nat} {c : Char} (h : c ∈ Nat.toDigits 10 n) :
    isDigit c = true := by
  have hc := Nat.isDigit_of_mem_toDigits (by omega) (by omega) h
  simp only [Char.isDigit, ge_iff_le, Bool.and_eq_true, decide_eq_true_eq] at hc
  simp only [isDigit, Bool.and_eq_true, decide_eq_true_eq]
  exact hc

theorem ofDigits_concat (ds : List Char) (d : Char) :
    ofDigits (ds ++ [d]) = ofDigits ds * 10 + digitValue d := by
  simp [ofDigits]

/-- the digits of a number say that number -/
theorem ofDigits_toDigits (n : Nat) : ofDigits (Nat.toDigits 10 n) = n := by
  induction n using Nat.strongRecOn with
  | ind n ih =>
    rw [Nat.toDigits_eq_if (by omega)]
    split
    · rename_i h
      have hone : ofDigits [Nat.digitChar n] = 0 * 10 + digitValue (Nat.digitChar n) := rfl
      rw [hone, digitValue_digitChar h]
      omega
    · rw [ofDigits_concat, ih (n / 10) (by omega), digitValue_digitChar (by omega)]
      omega

theorem ofDigits_zeros (k : Nat) (ds : List Char) :
    ofDigits (List.replicate k '0' ++ ds) = ofDigits ds := by
  induction k with
  | zero => rfl
  | succ k ih => exact ih

theorem ofDigits_padded (width n : Nat) : ofDigits (padded width n) = n := by
  rw [padded, ofDigits_zeros, ofDigits_toDigits]

theorem isDigit_of_mem_padded {width n : Nat} {c : Char} (h : c ∈ padded width n) :
    isDigit c = true := by
  rcases List.mem_append.mp h with h | h
  · rw [List.eq_of_mem_replicate h]
    rfl
  · exact isDigit_of_mem_toDigits h

theorem length_padded {width n : Nat} (hw : 0 < width) (h : n < 10 ^ width) :
    (padded width n).length = width := by
  have hle := (Nat.length_toDigits_le_iff (by omega) hw).mpr h
  rw [padded, List.length_append, List.length_replicate]
  omega

end Rfc3339

/-! ## whole numbers in JSON -/

namespace Json

/-- what may follow a value inside a list or an object, or at the end of a text -/
def Ends (rest : List Char) : Prop := ∀ c ∈ rest.head?, c = ',' ∨ c = ']' ∨ c = '\x7d'

theorem ends_nil : Ends [] := fun c hc => by cases hc

theorem ends_comma (rest : List Char) : Ends (',' :: rest) := by
  intro c hc
  cases hc
  exact .inl rfl

theorem ends_bracket (rest : List Char) : Ends (']' :: rest) := by
  intro c hc
  cases hc
  exact .inr (.inl rfl)

theorem ends_brace (rest : List Char) : Ends ('\x7d' :: rest) := by
  intro c hc
  cases hc
  exact .inr (.inr rfl)

theorem Ends.not_digit {c : Char} {rest : List Char} (h : Ends (c :: rest)) :
    isDigit c = false := by
  rcases h c rfl with rfl | rfl | rfl <;> rfl

theorem numberTail_of_ends (n : Nat) {rest : List Char} (h : Ends rest) :
    numberTail false n rest = .ok (.int n, rest) := by
  cases rest with
  | nil => rfl
  | cons c rest => rcases h c rfl with rfl | rfl | rfl <;> rfl

/-- the number that digits after those of `n` make of it -/
def grown (n : Nat) (ds : List Char) : Nat := ds.foldl (fun n d => n * 10 + digitValue d) n

theorem le_grown (n : Nat) (ds : List Char) : n ≤ grown n ds := by
  induction ds generalizing n with
  | nil => exact Nat.le_refl n
  | cons d ds ih =>
    have hle := ih (n * 10 + digitValue d)
    show n ≤ grown (n * 10 + digitValue d) ds
    omega

/-- digits are absorbed as long as the number fits -/
theorem absorb_append {limit n taken : Nat} {ds : List Char} (hd : ∀ c ∈ ds, isDigit c = true)
    (hlimit : grown n ds < limit) (rest : List Char) :
    absorb limit n taken (ds ++ rest) = absorb limit (grown n ds) (taken + ds.length) rest := by
  induction ds generalizing n taken with
  | nil => rfl
  | cons d ds ih =>
    have hfits : n * 10 + digitValue d < limit := by
      have hle : n * 10 + digitValue d ≤ grown n (d :: ds) := le_grown (n * 10 + digitValue d) ds
      omega
    have hone : isDigit d = true := hd d (List.mem_cons_self ..)
    rw [List.cons_append, absorb, if_pos (by simp [hone, hfits]),
      ih (fun c hc => hd c (List.mem_cons_of_mem d hc)) hlimit, List.length_cons]
    congr 1
    omega

theorem absorb_of_ends {limit n taken : Nat} {rest : List Char} (h : Ends rest) :
    absorb limit n taken rest = (n, taken, rest) := by
  cases rest with
  | nil => rfl
  | cons c rest => rw [absorb, h.not_digit, Bool.false_and, if_neg Bool.false_ne_true]

/-- a positive number does not begin with a zero -/
theorem toDigits_head {n : Nat} (h : 0 < n) :
    ∃ c cs, Nat.toDigits 10 n = c :: cs ∧ c ≠ '0' := by
  induction n using Nat.strongRecOn with
  | ind n ih =>
    rw [Nat.toDigits_eq_if (by omega)]
    split
    · rename_i hlt
      refine ⟨_, [], rfl, ?_⟩
      have hall : ∀ d < 10, 0 < d → Nat.digitChar d ≠ '0' := by decide
      exact hall n hlt h
    · obtain ⟨c, cs, hc, hne⟩ := ih (n / 10) (by omega) (by omega)
      exact ⟨c, cs ++ [(n % 10).digitChar], by rw [hc, List.cons_append], hne⟩

/-- **a whole number of 64 bits is read back from its digits** -/
theorem readNumber_toDigits {n : Nat} (h : n < UInt64.size) {rest : List Char} (hr : Ends rest) :
    readNumber false (Nat.toDigits 10 n ++ rest) = .ok (.int n, rest) := by
  rcases Nat.eq_zero_or_pos n with rfl | hpos
  · rw [Nat.toDigits_zero]
    cases rest with
    | nil => rfl
    | cons c rest =>
      show (if isDigit c then _ else numberTail false 0 (c :: rest)) = _
      rw [hr.not_digit, if_neg Bool.false_ne_true, numberTail_of_ends 0 hr]
  · obtain ⟨c, cs, hc, hne⟩ := toDigits_head hpos
    have hdigit (x : Char) (hx : x ∈ Nat.toDigits 10 n) : isDigit x = true :=
      Rfc3339.isDigit_of_mem_toDigits hx
    have hgrown : grown 0 (Nat.toDigits 10 n) = n := Rfc3339.ofDigits_toDigits n
    have habsorb : absorb UInt64.size 0 0 (Nat.toDigits 10 n ++ rest)
        = (n, 0 + (Nat.toDigits 10 n).length, rest) := by
      rw [absorb_append hdigit (by rw [hgrown]; exact h), hgrown, absorb_of_ends hr]
    have hc' : isDigit c = true := hdigit c (by rw [hc]; exact List.mem_cons_self ..)
    rw [hc, List.cons_append] at habsorb ⊢
    unfold readNumber
    split
    · rename_i heq
      cases heq
    · rename_i heq
      cases heq
      exact absurd rfl hne
    · rename_i heq
      cases heq
      rw [if_pos hc', habsorb]
      cases rest with
      | nil => rfl
      | cons d rest =>
        show (if isDigit d then _ else numberTail false n (d :: rest)) = _
        rw [hr.not_digit, if_neg Bool.false_ne_true, numberTail_of_ends n hr]

theorem numberChars_ofNat (n : Nat) : numberChars (.int n) = Nat.toDigits 10 n := by
  show (toString (n : Int)).toList = _
  have hrepr : toString (n : Int) = Nat.repr n := rfl
  rw [hrepr, Nat.repr_eq_ofList_toDigits, String.toList_ofList]

end Json

end TaskPool
