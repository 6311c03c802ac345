import TaskPool.Json.Text
import TaskPool.Json.Token
import Mathlib.Tactic.SplitIfs

/-!
# What is quoted is read back

* `hexFour?_control`    the number of a control character, in its four digits
* `stringFrom_escapeChar`   one character, escaped or not, is one step of the reader
* `stringBody_escape`   a string is read back whole, and the reader stops behind its closing quote

Why the reader has fuel enough: every step takes one character of the string, and escaping makes no
string shorter.
-/

namespace TaskPool

namespace Json

variable {α β : Type}

/-! ## single characters -/

theorem hexFour?_control {n : Nat} (h : n < 0x20) :
    hexFour? ['0', '0', hexDigit (n / 16), hexDigit n] = some n := by
  decide +revert

theorem four_le_byteCount (a b c d : Char) (cs : List Char) :
    4 ≤ byteCount (a :: b :: c :: d :: cs) := by
  have ha := a.utf8Size_pos
  have hb := b.utf8Size_pos
  have hc := c.utf8Size_pos
  have hd := d.utf8Size_pos
  show 4 ≤ a.utf8Size + (b.utf8Size + (c.utf8Size + (d.utf8Size + byteCount cs)))
  omega

/-- a control character is read back from its number -/
theorem unicodeEscape_control {n : Nat} (h : n < 0x20) (cs : List Char) :
    unicodeEscape ('0' :: '0' :: hexDigit (n / 16) :: hexDigit n :: cs)
      = .ok (Char.ofNat n, cs) := by
  have hfour : hexEscape ('0' :: '0' :: hexDigit (n / 16) :: hexDigit n :: cs) = .ok (n, cs) := by
    have hsize := four_le_byteCount '0' '0' (hexDigit (n / 16)) (hexDigit n) cs
    unfold hexEscape
    rw [if_neg (by omega)]
    simp only [List.take_succ_cons, List.take_zero, hexFour?_control h]
    rfl
  have htrailing : isTrailingSurrogate n = false := by
    simp only [isTrailingSurrogate, Bool.and_eq_false_iff, decide_eq_false_iff_not]
    omega
  have hleading : isLeadingSurrogate n = false := by
    simp only [isLeadingSurrogate, Bool.and_eq_false_iff, decide_eq_false_iff_not]
    omega
  unfold unicodeEscape
  rw [hfour]
  show (if isTrailingSurrogate n then _ else if isLeadingSurrogate n then _ else _) = _
  rw [htrailing, hleading]
  rfl

/-- the character goes in front of what is read after it -/
def withChar (c : Char) (r : Except Fault (List Char × List Char)) :
    Except Fault (List Char × List Char) := r.map fun r => (c :: r.1, r.2)

theorem stringFrom_escaped {c : Char} {es cs : List Char} (fuel : Nat)
    (h : escaped (es ++ cs) = .ok (c, cs)) :
    stringFrom (fuel + 1) ('\\' :: es ++ cs) = withChar c (stringFrom fuel cs) := by
  have hstep : stringFrom (fuel + 1) ('\\' :: es ++ cs)
      = (escaped (es ++ cs)).bind fun r => (stringFrom fuel r.2).bind fun more =>
        .ok (r.1 :: more.1, more.2) := rfl
  rw [hstep, h]
  show (stringFrom fuel cs).bind (fun more => .ok (c :: more.1, more.2)) = _
  cases stringFrom fuel cs <;> rfl

/-- the reader takes one character in a step, whether it is escaped or not -/
theorem stringFrom_escapeChar (fuel : Nat) (c : Char) (cs : List Char) :
    stringFrom (fuel + 1) (escapeChar c ++ cs) = withChar c (stringFrom fuel cs) := by
  have hofNat (n : Nat) (h : c.toNat = n) : c = Char.ofNat n := by
    rw [← h, Char.ofNat_toNat]
  unfold escapeChar
  split_ifs with hquote hback hplain hline hreturn htab hb hf
  · subst hquote
    exact stringFrom_escaped fuel rfl
  · subst hback
    exact stringFrom_escaped fuel rfl
  · rw [List.singleton_append, stringFrom, if_neg hquote, if_neg hback, if_neg (by omega)]
    cases stringFrom fuel cs <;> rfl
  · subst hline
    exact stringFrom_escaped fuel rfl
  · subst hreturn
    exact stringFrom_escaped fuel rfl
  · subst htab
    exact stringFrom_escaped fuel rfl
  · rw [hofNat 8 hb]
    exact stringFrom_escaped fuel rfl
  · rw [hofNat 12 hf]
    exact stringFrom_escaped fuel rfl
  · have hread := unicodeEscape_control (n := c.toNat) (by omega) cs
    rw [Char.ofNat_toNat] at hread
    have hescaped : escaped (['u', '0', '0', hexDigit (c.toNat / 16), hexDigit c.toNat] ++ cs)
        = .ok (c, cs) := hread
    exact stringFrom_escaped fuel hescaped

/-! ## whole strings -/

theorem length_escapeChar_pos (c : Char) : 0 < (escapeChar c).length := by
  unfold escapeChar escapeControl
  split_ifs <;> simp

theorem length_le_escape (cs : List Char) : cs.length ≤ (escape cs).length := by
  induction cs with
  | nil => exact Nat.zero_le _
  | cons c cs ih =>
    have hpos := length_escapeChar_pos c
    rw [escape_cons, List.length_append, List.length_cons]
    omega

theorem stringFrom_escape (cs rest : List Char) {fuel : Nat} (h : cs.length < fuel) :
    stringFrom fuel (escape cs ++ '"' :: rest) = .ok (cs, rest) := by
  induction cs generalizing fuel with
  | nil =>
    cases fuel with
    | zero => cases h
    | succ fuel => rfl
  | cons c cs ih =>
    cases fuel with
    | zero => cases h
    | succ fuel =>
      rw [escape_cons, List.append_assoc, stringFrom_escapeChar,
        ih (Nat.lt_of_succ_lt_succ h)]
      rfl

/-- **a string is read back**, whatever follows its closing quote -/
theorem stringBody_escape (s : String) (rest : List Char) :
    stringBody (escape s.toList ++ '"' :: rest) = .ok (s, rest) := by
  have hle := length_le_escape s.toList
  unfold stringBody
  rw [stringFrom_escape s.toList rest (by rw [List.length_append]; omega)]
  show Except.ok (String.ofList s.toList, rest) = _
  rw [String.ofList_toList]

theorem quote_eq (s : String) (rest : List Char) :
    quote s ++ rest = '"' :: (escape s.toList ++ '"' :: rest) := by
  simp [quote]

end Json

end TaskPool
