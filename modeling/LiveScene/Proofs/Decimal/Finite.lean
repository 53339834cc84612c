import Mathlib

/-!
# Finite floats

Taking the negative of a float keeps it finite (`isFinite_neg`), and a whole
number of 64 bits becomes a finite float (`isFinite_ofInt`).

A float is packed from a sign, a mantissa and an exponent. `UpTo top` bounds
the exponent, and what is packed below 972 is finite (`isFinite_pack`).
Rounding raises an exponent by no more than about twice the digits of the
mantissa (`upTo_roundWithAccuracy`). That is a rough bound, but numbers of 64
bits are far from the end of the range.
-/

namespace LiveScene.Decimal

open Float.Model (UnpackedFloat Format totalExponent)
open Float.Model.UnpackedFloat

/-- A zero, or a finite number with an exponent up to `top`. -/
def UpTo (top : Int) : UnpackedFloat → Prop
  | .zero _ => True
  | .finite _ _ e _ => e ≤ top
  | .infinity _ | .notANumber => False

theorem UpTo.mono {a b : Int} {x : UnpackedFloat} (h : UpTo a x) (hab : a ≤ b) : UpTo b x := by
  cases x with
  | finite => exact le_trans h hab
  | zero => trivial
  | infinity => exact h
  | notANumber => exact h

theorem UpTo.neg {top : Int} {x : UnpackedFloat} (h : UpTo top x) : UpTo top x.neg := by
  cases x <;> exact h

/-! ## Packing -/

/-- The exponent as it stands in the bits of a float. -/
abbrev exponentOf (b : BitVec 64) : BitVec 11 := @unpackExponent Format.binary64 b

/-- A float is finite unless its exponent is the last one. -/
theorem isFinite_unpack {b : BitVec 64} :
    (unpack Format.binary64 b).isFinite = true ↔ exponentOf b ≠ -1#11 := by
  unfold unpack
  by_cases h : exponentOf b = -1#11
  · simp only [h]
    split_ifs <;> simp_all [UnpackedFloat.isFinite]
  · simp only [h]
    split_ifs <;> simp_all [UnpackedFloat.isFinite]

/-- The bound that the bits of a finite float give. -/
theorem upTo_unpack {b : BitVec 64} (h : exponentOf b ≠ -1#11) :
    UpTo (max ((exponentOf b).toNat - 1075) (-1074)) (unpack Format.binary64 b) := by
  unfold unpack
  simp only [h, if_false]
  split_ifs with h0 h1
  · trivial
  · simp only [UpTo, h0]
    decide
  · exact le_max_left _ _

/-- An unpacked mantissa has at most 53 digits. -/
theorem log2_le_of_unpack {b : BitVec 64} {s : Sign} {m : Nat} {e : Int} {hm : 0 < m}
    (h : unpack Format.binary64 b = .finite s m e hm) : m.log2 ≤ 52 := by
  have hlt {w : Nat} (v : BitVec w) (hw : w ≤ 53) : v.toNat < 2 ^ 53 :=
    v.isLt.trans_le (Nat.pow_le_pow_right (by decide) hw)
  refine Nat.lt_succ_iff.1 ((Nat.log2_lt hm.ne').2 ?_)
  simp only [unpack] at h
  split_ifs at h
  · cases h
    exact hlt _ (by decide)
  · cases h
    exact hlt _ (by decide)

/-- Packing keeps an exponent below its bound. -/
theorem toNat_exponentOf_pack {top : Int} {x : UnpackedFloat} (h : UpTo top x)
    (htop : top ≤ 971) : (exponentOf (pack Format.binary64 x)).toNat ≤ (top + 1075).toNat := by
  cases x with
  | infinity => exact h.elim
  | notANumber => exact h.elim
  | zero => simp [pack, packedZero]
  | finite s m e hm =>
    have he : e ≤ top := h
    have hbias : (e + Format.binary64.exponentBias +
        Format.binary64.mantissaBitsWithoutImplicit).toNat = (e + 1075).toNat := by
      show (e + 1023 + 52).toNat = _
      omega
    have hsmall : ¬ 2 ^ Format.binary64.exponentBits ≤ (e + 1075).toNat + 1 := by
      show ¬ 2048 ≤ _
      omega
    simp only [pack, hbias, if_neg hsmall]
    split_ifs
    · rw [exponentOf, unpackExponent_packComponents, BitVec.toNat_ofNat]
      have := Nat.mod_le (e + 1075).toNat (2 ^ Format.binary64.exponentBits)
      omega
    · rw [exponentOf, unpackExponent_packComponents]
      exact Nat.zero_le _

/-- An exponent below 972 does not come to the last one. -/
theorem exponentOf_pack_ne {top : Int} {x : UnpackedFloat} (h : UpTo top x) (htop : top ≤ 971) :
    exponentOf (pack Format.binary64 x) ≠ -1#11 := by
  intro heq
  have := toNat_exponentOf_pack h htop
  rw [heq] at this
  change 2047 ≤ _ at this
  omega

/-- What is packed within the range of floats is finite. -/
theorem isFinite_pack {x : UnpackedFloat} (h : UpTo 971 x) :
    (Float.Model.pack x).isFinite = true :=
  isFinite_unpack.2 (exponentOf_pack_ne h le_rfl)

/-- A number is bounded by its bound when it is packed and read again. -/
theorem upTo_unpack_pack {top : Int} {x : UnpackedFloat} (h : UpTo top x) (htop : top ≤ 971)
    (hmin : -1074 ≤ top) : UpTo top (Float.Model.pack x).unpack := by
  refine (upTo_unpack (exponentOf_pack_ne h htop)).mono ?_
  have := toNat_exponentOf_pack h htop
  omega

/-- Finite floats have exponents up to 971. -/
theorem upTo_of_isFinite {x : Float.Model} (h : x.isFinite = true) : UpTo 971 x.unpack := by
  have hne := isFinite_unpack.1 h
  refine (upTo_unpack hne).mono ?_
  have hlt := (exponentOf x.toBits.toBitVec).isLt
  have : (exponentOf x.toBits.toBitVec).toNat ≠ 2047 := fun heq =>
    hne (BitVec.eq_of_toNat_eq heq)
  omega

theorem isFinite_neg {x : Float} (h : x.isFinite = true) : (-x).isFinite = true :=
  isFinite_pack (upTo_of_isFinite h).neg

/-! ## Rounding -/

theorem log2_succ_le (m : Nat) : (m + 1).log2 ≤ m.log2 + 1 := by
  refine Nat.lt_succ_iff.1 ((Nat.log2_lt (Nat.succ_ne_zero m)).2 ?_)
  have hm := @Nat.lt_log2_self m
  rw [Nat.pow_succ']
  omega

theorem log2_mono {m n : Nat} (h : m ≤ n) : m.log2 ≤ n.log2 := by
  simpa [Nat.log2_eq_log_two] using Nat.log_mono_right h

theorem log2_mul_le (m n : Nat) : (m * n).log2 ≤ m.log2 + n.log2 + 1 := by
  rcases Nat.eq_zero_or_pos (m * n) with h | h
  · simp [h]
  refine Nat.lt_succ_iff.1 ((Nat.log2_lt h.ne').2 ?_)
  calc m * n < 2 ^ (m.log2 + 1) * 2 ^ (n.log2 + 1) :=
        Nat.mul_lt_mul'' Nat.lt_log2_self Nat.lt_log2_self
    _ = 2 ^ (m.log2 + n.log2 + 1).succ := by
        rw [← Nat.pow_add]
        congr 1
        omega

/-- Shifting digits out makes no mantissa greater. -/
theorem mantissa_shiftRight (k : Nat) (m : ExtendedMantissa) :
    (m >>> k).mantissa ≤ m.mantissa := by
  induction k with
  | zero => exact le_rfl
  | succ k ih => exact (Nat.div_le_self _ _).trans ih

/-- Rounding adds at most one. -/
theorem roundedMantissa_le (m : ExtendedMantissa) : m.roundedMantissa ≤ m.mantissa + 1 := by
  unfold ExtendedMantissa.roundedMantissa
  rcases m.accuracy with _ | (_ | _ | _) <;> simp [Accuracy.roundToNearestEven]
  omega

/-- Shifting a mantissa raises the exponent by no more than its digits, and the mantissa not at
all. -/
theorem shiftToTargetExponent_le {m k : Nat} {e : Int} {a : Accuracy} (hm : m.log2 ≤ k) :
    (shiftToTargetExponent Format.binary64 m e a).2 ≤ max e (-1074) + k ∧
      (shiftToTargetExponent Format.binary64 m e a).1.mantissa ≤ m := by
  have ht : Format.binary64.targetExponent (totalExponent m e) =
      max (m.log2 + 1 + e - 53) (-1074) := rfl
  have hof : (ExtendedMantissa.ofMantissaAndAccuracy m a).mantissa = m := by
    rcases a with _ | (_ | _ | _) <;> rfl
  constructor
  · simp only [shiftToTargetExponent, shiftToExponent, ht]
    omega
  · exact (mantissa_shiftRight _ _).trans_eq hof

/-- Rounding a mantissa of few digits does not raise the exponent by much. -/
theorem upTo_roundWithAccuracy {s : Sign} {m k : Nat} {e : Int} {a : Accuracy} (hm : m.log2 ≤ k) :
    UpTo (max e (-1074) + 2 * k + 1) (roundWithAccuracy Format.binary64 s m e a) := by
  obtain ⟨he₁, hm₁⟩ := shiftToTargetExponent_le (e := e) (a := a) hm
  unfold roundWithAccuracy
  generalize shiftToTargetExponent Format.binary64 m e a = first at he₁ hm₁ ⊢
  obtain ⟨em, e₁⟩ := first
  have hr : em.roundedMantissa.log2 ≤ k + 1 := by
    have h1 := log2_mono ((roundedMantissa_le em).trans (Nat.add_le_add_right hm₁ 1))
    have h2 := log2_succ_le m
    omega
  -- The second shift makes room for a digit that rounding may have added.
  have he₂ := (shiftToTargetExponent_le (e := e₁) (a := .exact) hr).1
  simp only at he₁ he₂ ⊢
  split_ifs
  · trivial
  · simp only [UpTo]
    omega

/-- A product is bounded by the sum of the bounds and twice the digits of a mantissa. -/
theorem upTo_mul {x y : Float.Model} {top top' : Int} (hx : UpTo top x.unpack)
    (hy : UpTo top' y.unpack) :
    UpTo (max (top + top') (-1074) + 211) (mul Format.binary64 x.unpack y.unpack) := by
  generalize hxu : x.unpack = xu at hx ⊢
  generalize hyu : y.unpack = yu at hy ⊢
  cases xu with
  | infinity => exact hx.elim
  | notANumber => exact hx.elim
  | zero =>
    cases yu with
    | infinity => exact hy.elim
    | notANumber => exact hy.elim
    | zero => trivial
    | finite => trivial
  | finite s m e hm =>
    cases yu with
    | infinity => exact hy.elim
    | notANumber => exact hy.elim
    | zero => trivial
    | finite s' m' e' hm' =>
      have h1 := log2_le_of_unpack hxu
      have h2 := log2_le_of_unpack hyu
      have h3 := log2_mul_le m m'
      refine (upTo_roundWithAccuracy (k := 105) (by omega)).mono ?_
      simp only [UpTo] at hx hy
      omega

/-! ## Whole numbers -/

theorem log2_le_of_le {n : Nat} (hn : n ≤ 2 ^ 64) : n.log2 ≤ 64 :=
  (log2_mono hn).trans_eq Nat.log2_two_pow

/-- A number of 64 bits is far below the end of the range. -/
theorem upTo_ofNat {n : Nat} (hn : n ≤ 2 ^ 64) : UpTo 300 (ofNat Format.binary64 n) := by
  have hlog := log2_le_of_le hn
  have ht : Format.binary64.targetExponent (totalExponent n 0) =
      max ((n.log2 : Int) + 1 + 0 - 53) (-1074) := rfl
  unfold ofNat ofInt UnpackedFloat.normalize
  split
  case h_1 hneg =>
    have := compare_lt_iff_lt.1 hneg
    omega
  case h_2 => trivial
  case h_3 =>
    simp only [UnpackedFloat.round, decreaseExponent, Int.toNat_natCast, ht]
    generalize hshift : (0 - max ((n.log2 : Int) + 1 + 0 - 53) (-1074)).toNat = shift
    have hdigits : (n <<< shift).log2 ≤ 117 := by
      have h := log2_mul_le n (2 ^ shift)
      rw [Nat.log2_two_pow] at h
      rw [Nat.shiftLeft_eq]
      omega
    refine (upTo_roundWithAccuracy hdigits).mono ?_
    omega

/-- So it is where it is written without an exponent. -/
theorem upTo_ofScientific {n : Nat} (hn : n ≤ 2 ^ 64) :
    UpTo 300 (ofScientific Format.binary64 n 0) := by
  have hlog := log2_le_of_le hn
  have hdigits : (n <<< Format.binary64.mantissaBits * 10 ^ Int.toNat 0).log2 ≤ 118 := by
    have h := log2_mul_le n (2 ^ 53)
    rw [Nat.log2_two_pow] at h
    rw [Nat.shiftLeft_eq, Int.toNat_zero, Nat.pow_zero, Nat.mul_one]
    exact h.trans (by omega)
  by_cases h0 : n = 0
  · simp [ofScientific, h0, UpTo]
  · have hbits : (2 : Int) ^ Format.binary64.exponentBits = 2048 := rfl
    rw [ofScientific, dif_neg h0, hbits, if_neg (by omega), if_neg (by omega), if_pos le_rfl]
    simp only [mul]
    generalize n <<< Format.binary64.mantissaBits * 10 ^ Int.toNat 0 = m at hdigits ⊢
    exact (upTo_roundWithAccuracy hdigits).mono (by decide)

/-- The two ways in which a whole number becomes a float. -/
theorem ofNat_eq (n : Nat) : Float.ofNat n =
    if n < 2 ^ 53 then n.toUInt64.toFloat * Float.ofBits 0x3FF0000000000000
    else .ofModel (.ofScientific n 0) := by
  show Float.ofScientific n false 0 = _
  unfold Float.ofScientific
  by_cases h : n < 2 ^ 53
  · rw [dif_pos ⟨h, by decide⟩, if_pos h]
    rfl
  · rw [dif_neg fun hn => h hn.1, if_neg h]
    rfl

/-- A natural number of 64 bits becomes a finite float. -/
theorem isFinite_ofNat {n : Nat} (hn : n ≤ 2 ^ 64) : (Float.ofNat n).isFinite = true := by
  rw [ofNat_eq]
  split_ifs
  · have hcast : UpTo 300 n.toUInt64.toFloat.toModel.unpack :=
      upTo_unpack_pack (upTo_ofNat (UInt64.toNat_lt _).le) (by decide) (by decide)
    have hone : UpTo 0 (Float.ofBits 0x3FF0000000000000).toModel.unpack := by
      rw [show (Float.ofBits 0x3FF0000000000000).toModel.unpack =
        .finite .positive (2 ^ 52) (-52) (by decide) from rfl]
      show (-52 : Int) ≤ 0
      decide
    exact isFinite_pack ((upTo_mul hcast hone).mono (by decide))
  · exact isFinite_pack ((upTo_ofScientific hn).mono (by decide))

/-- A whole number of 64 bits is a finite float. -/
theorem isFinite_ofInt {n : Int} (hn : n.natAbs ≤ 2 ^ 64) : (Float.ofInt n).isFinite = true := by
  cases n with
  | ofNat n => exact isFinite_ofNat hn
  | negSucc n => exact isFinite_neg (isFinite_ofNat hn)

end LiveScene.Decimal
