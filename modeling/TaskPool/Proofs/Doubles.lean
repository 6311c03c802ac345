import Mathlib

/-!
# The order of doubles, and where NaN comes from

* `Double.rank`         where a double stands among the others, for comparing two of them
* `Double.lt_iff`, `Double.le_iff`   a comparison is one of ranks, and fails where there is NaN
* `Double.lt_trans`, `Double.le_of_lt`, `Double.lt_iff_not_le`   what is left of a linear order
* `Double.isNaN_neg`, `Double.isNaN_ofScientific`   a number with a sign is as much NaN as without,
                        and one that is given by its decimal digits never is

Why the rank has three parts: the sign and the kind of a double, then its exponent, then its
mantissa.  A double is kept with the exponent that its format asks for, so that the greater exponent
decides before the mantissa is looked at.
-/

namespace TaskPool

open Float.Model UnpackedFloat

namespace Double

/-! ## the order -/

/-- where a double stands among the others; the two zeros stand at one place -/
def rank : UnpackedFloat → ℤ ×ₗ ℤ ×ₗ ℤ
  | .infinity .negative => toLex (-2, toLex (0, 0))
  | .finite .negative m e _ => toLex (-1, toLex (-e, -(m : ℤ)))
  | .notANumber | .zero _ => toLex (0, toLex (0, 0))
  | .finite .positive m e _ => toLex (1, toLex (e, (m : ℤ)))
  | .infinity .positive => toLex (2, toLex (0, 0))

theorem lt_iff_rank (a b : UnpackedFloat) :
    a.lt b = true ↔ (a ≠ .notANumber ∧ b ≠ .notANumber) ∧ rank a < rank b := by
  rcases a with (_ | _) | _ | (_ | _) | ⟨_ | _, m, e, h⟩ <;>
    rcases b with (_ | _) | _ | (_ | _) | ⟨_ | _, m', e', h'⟩ <;>
    simp [UnpackedFloat.lt, UnpackedFloat.compare, rank, Prod.Lex.lt_iff, Ordering.then_eq_lt,
      Ordering.then_eq_gt, compare_lt_iff_lt, compare_gt_iff_gt]
  case infinity.negative.infinity.positive => rfl

theorem le_iff_rank (a b : UnpackedFloat) :
    a.le b = true ↔ (a ≠ .notANumber ∧ b ≠ .notANumber) ∧ rank a ≤ rank b := by
  rcases a with (_ | _) | _ | (_ | _) | ⟨_ | _, m, e, h⟩ <;>
    rcases b with (_ | _) | _ | (_ | _) | ⟨_ | _, m', e', h'⟩ <;>
    simp [UnpackedFloat.le, UnpackedFloat.compare, rank, Prod.Lex.le_iff,
      ← Ordering.ne_gt_iff_isLE, ← Ordering.ne_lt_iff_isGE, Ordering.then_eq_lt,
      Ordering.then_eq_gt, compare_lt_iff_lt, compare_gt_iff_gt]
  case infinity.positive.infinity.negative => rfl
  case finite.negative.finite.negative => omega
  case finite.positive.finite.positive => omega

variable {x y z : Float}

theorem ne_of_isNaN {u : UnpackedFloat} (h : u.isNaN = false) : u ≠ .notANumber := by
  rintro rfl
  cases h

theorem isNaN_eq_false_iff : x.isNaN = false ↔ x.toModel.unpack ≠ .notANumber := by
  show x.toModel.unpack.isNaN = false ↔ _
  refine ⟨ne_of_isNaN, fun h => ?_⟩
  cases hx : x.toModel.unpack with
  | notANumber => exact absurd hx h
  | infinity | zero | finite => rfl

theorem lt_iff : x < y ↔
    (x.isNaN = false ∧ y.isNaN = false) ∧ rank x.toModel.unpack < rank y.toModel.unpack := by
  rw [isNaN_eq_false_iff, isNaN_eq_false_iff, ← lt_iff_rank]
  exact decide_eq_true_iff

theorem le_iff : x ≤ y ↔
    (x.isNaN = false ∧ y.isNaN = false) ∧ rank x.toModel.unpack ≤ rank y.toModel.unpack := by
  rw [isNaN_eq_false_iff, isNaN_eq_false_iff, ← le_iff_rank]
  exact decide_eq_true_iff

theorem lt_trans (hxy : x < y) (hyz : y < z) : x < z := by
  obtain ⟨⟨hx, -⟩, hlt⟩ := lt_iff.mp hxy
  obtain ⟨⟨-, hz⟩, hlt'⟩ := lt_iff.mp hyz
  exact lt_iff.mpr ⟨⟨hx, hz⟩, hlt.trans hlt'⟩

theorem le_of_lt (h : x < y) : x ≤ y :=
  le_iff.mpr ((lt_iff.mp h).imp_right fun hlt => hlt.le)

/-- apart from NaN, a double is less than another unless that one is not greater -/
theorem lt_iff_not_le : x < y ↔ (x.isNaN = false ∧ y.isNaN = false) ∧ ¬ y ≤ x := by
  rw [lt_iff, le_iff]
  refine and_congr_right fun h => ?_
  rw [not_and, not_le]
  exact ⟨fun hlt _ => hlt, fun hlt => hlt ⟨h.2, h.1⟩⟩

/-! ## NaN -/

theorem unpack_eq_notANumber {f : Format} {b : BitVec f.numBits} (h : unpack f b = .notANumber) :
    unpackExponent b = -1#_ ∧ unpackMantissa b ≠ 0#_ := by
  unfold UnpackedFloat.unpack at h
  dsimp only at h
  split at h
  · rename_i he
    split at h
    · cases h
    · rename_i hm
      exact ⟨he, hm⟩
  · split at h
    · split at h <;> cases h
    · cases h

/-- what is packed is NaN only if it was before: an exponent that is too great for its format makes
infinity, and no other is all ones -/
theorem unpack_pack_ne {f : Format} {u : UnpackedFloat} (h : u ≠ .notANumber) :
    unpack f (pack f u) ≠ .notANumber := by
  intro hn
  obtain ⟨he, hm⟩ := unpack_eq_notANumber hn
  revert he hm
  fun_cases UnpackedFloat.pack f u with
  | case1 => exact absurd rfl h
  | case2 s =>
    intro _ hm
    rw [packedInfinity, unpackMantissa_packComponents] at hm
    exact absurd rfl hm
  | case3 s =>
    intro _ hm
    rw [packedZero, unpackMantissa_packComponents] at hm
    exact absurd rfl hm
  | case4 s m e _ biased hbig =>
    intro _ hm
    rw [packedInfinity, unpackMantissa_packComponents] at hm
    exact absurd rfl hm
  | case5 s m e _ bits biased hsmall hnormal =>
    intro he _
    rw [unpackExponent_packComponents, BitVec.neg_one_eq_allOnes, ← BitVec.toNat_inj,
      BitVec.toNat_ofNat, BitVec.toNat_allOnes, Nat.mod_eq_of_lt (by omega)] at he
    omega
  | case6 s m e _ bits biased hsmall hsub =>
    intro he _
    rw [unpackExponent_packComponents, BitVec.neg_one_eq_allOnes, ← BitVec.toNat_inj,
      BitVec.toNat_allOnes, BitVec.toNat_ofNat, Nat.zero_mod] at he
    have htwo := Nat.one_lt_two_pow (Nat.pos_iff_ne_zero.mp f.he)
    omega

theorem isNaN_pack {u : UnpackedFloat} (h : u ≠ .notANumber) :
    (Float.ofModel (.pack u)).isNaN = false :=
  isNaN_eq_false_iff.mpr (unpack_pack_ne h)

theorem isNaN_neg (x : Float) : (-x).isNaN = x.isNaN := by
  cases hx : x.toModel.unpack with
  | notANumber =>
    show (Float.ofModel (.pack x.toModel.unpack.neg)).isNaN = x.toModel.unpack.isNaN
    rw [hx]
    decide +kernel
  | infinity | zero | finite =>
    have hnumber : x.isNaN = false := by
      rw [isNaN_eq_false_iff, hx]
      exact ne_of_isNaN rfl
    rw [hnumber]
    refine isNaN_pack ?_
    rw [hx]
    exact ne_of_isNaN rfl

theorem roundWithAccuracy_ne (f : Format) (s : Sign) (m : Nat) (e : ℤ) (a : Accuracy) :
    roundWithAccuracy f s m e a ≠ .notANumber := by
  unfold roundWithAccuracy
  dsimp only
  split <;> exact ne_of_isNaN rfl

theorem mul_finite_ne {f : Format} {u : UnpackedFloat} (h : u ≠ .notANumber) (s : Sign) (m : Nat)
    (e : ℤ) (hm : 0 < m) : u.mul f (.finite s m e hm) ≠ .notANumber := by
  cases u with
  | notANumber => exact absurd rfl h
  | infinity | zero => exact ne_of_isNaN rfl
  | finite => exact roundWithAccuracy_ne _ _ _ _ _

theorem div_finite_ne {f : Format} {u : UnpackedFloat} (h : u ≠ .notANumber) (s : Sign) (m : Nat)
    (e : ℤ) (hm : 0 < m) : u.div f (.finite s m e hm) ≠ .notANumber := by
  cases u with
  | notANumber => exact absurd rfl h
  | infinity | zero => exact ne_of_isNaN rfl
  | finite => exact roundWithAccuracy_ne _ _ _ _ _

theorem ofNat_ne (f : Format) (n : Nat) : UnpackedFloat.ofNat f n ≠ .notANumber := by
  unfold UnpackedFloat.ofNat UnpackedFloat.ofInt UnpackedFloat.normalize
  split
  · exact roundWithAccuracy_ne _ _ _ _ _
  · exact ne_of_isNaN rfl
  · exact roundWithAccuracy_ne _ _ _ _ _

theorem ofScientific_ne (f : Format) (n : Nat) (e : ℤ) :
    UnpackedFloat.ofScientific f n e ≠ .notANumber := by
  unfold UnpackedFloat.ofScientific
  split
  · exact ne_of_isNaN rfl
  · split
    · exact ne_of_isNaN rfl
    · split
      · exact ne_of_isNaN rfl
      · split
        · exact mul_finite_ne (ne_of_isNaN rfl) _ _ _ _
        · exact div_finite_ne (ne_of_isNaN rfl) _ _ _ _

/-- the powers of ten that are kept in a table are finite and not zero -/
theorem exists_finite_power {e : Nat} (h : e < Float.exactlyRepresentablePowersOfTen.size) :
    ∃ s m k hm, (Float.exactlyRepresentablePowersOfTen[e]).toModel.unpack = .finite s m k hm := by
  have hall : ∀ x ∈ Float.exactlyRepresentablePowersOfTen.toList,
      x.toModel.unpack.isFinite = true ∧
        x.toModel.unpack.compare (.zero .positive) ≠ some .eq := by
    decide +kernel
  obtain ⟨hfinite, hzero⟩ := hall _ (Array.getElem_mem_toList h)
  generalize (Float.exactlyRepresentablePowersOfTen[e]).toModel.unpack = u at *
  cases u with
  | finite s m k hm => exact ⟨s, m, k, hm, rfl⟩
  | zero => exact absurd rfl hzero
  | infinity | notANumber => exact Bool.noConfusion hfinite

theorem isNaN_ofScientific (n : Nat) (down : Bool) (e : Nat) :
    (Float.ofScientific n down e).isNaN = false := by
  unfold Float.ofScientific
  split
  · rename_i hsmall
    have hn : n.toUInt64.toFloat.toModel.unpack ≠ .notANumber := unpack_pack_ne (ofNat_ne _ _)
    obtain ⟨s, m, k, hm, hpower⟩ := exists_finite_power (e := e) (by
      simp [Float.exactlyRepresentablePowersOfTen]; omega)
    dsimp only
    split
    · refine isNaN_pack ?_
      rw [hpower]
      exact div_finite_ne hn _ _ _ _
    · refine isNaN_pack ?_
      rw [hpower]
      exact mul_finite_ne hn _ _ _ _
  · exact isNaN_pack (ofScientific_ne _ _ _)

end Double

end TaskPool
