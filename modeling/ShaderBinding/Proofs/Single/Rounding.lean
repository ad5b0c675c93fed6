import Mathlib
import ShaderBinding.ThirdParty.Matrix

/-! # Rounding

A mantissa that has lost bits is rounded to the nearest one by two bits that stand for all that
was lost. What results is the nearest natural number to a quotient, and ties go to the even one.
-/

namespace ShaderBinding

open Float.Model Float.Model.UnpackedFloat

/-- The natural number nearest to a quotient; of two equally near ones, the even one. -/
def nearest (n d : Nat) : Nat :=
  if 2 * (n % d) < d then n / d
  else if 2 * (n % d) = d then n / d + n / d % 2
  else n / d + 1

section Nearest

variable {n d t : Nat}

theorem nearest_of_dvd (h : d ∣ n) (hd : 0 < d) : nearest n d = n / d := by
  rw [nearest, Nat.mod_eq_zero_of_dvd h, if_pos hd]

theorem div_le_nearest (n d : Nat) : n / d ≤ nearest n d := by
  unfold nearest
  split_ifs <;> omega

theorem nearest_le_succ (n d : Nat) : nearest n d ≤ n / d + 1 := by
  unfold nearest
  split_ifs <;> omega

theorem le_nearest_iff (ht : t % 2 = 0) (hd : 0 < d) :
    t ≤ nearest n d ↔ 2 * (t * d) ≤ 2 * n + d := by
  have hdiv : n / d * d + n % d = n := Nat.div_add_mod' n d
  have hlt : n % d < d := Nat.mod_lt n hd
  unfold nearest
  generalize n / d = q at *
  generalize n % d = r at *
  have hmul {i j : Nat} (h : i ≤ j) : i * d ≤ j * d := Nat.mul_le_mul_right d h
  have hone : (q + 1) * d = q * d + d := Nat.succ_mul q d
  have htwo : (q + 2) * d = q * d + d + d := by rw [Nat.succ_mul, hone]
  split_ifs with hbelow htie
  · rcases Nat.lt_or_ge q t with h | h
    · have habove := hmul (show q + 1 ≤ t from h)
      omega
    · have hle := hmul h
      omega
  · -- The even neighbour is the only even number between the two.
    rcases Nat.lt_or_ge (q + q % 2) t with h | h
    · have habove := hmul (show q + 2 ≤ t by omega)
      omega
    · have hle := hmul (show t ≤ q + 1 by omega)
      omega
  · rcases Nat.lt_or_ge (q + 1) t with h | h
    · have habove := hmul (show q + 2 ≤ t from h)
      omega
    · have hle := hmul h
      omega

theorem nearest_le_iff (ht : t % 2 = 0) (hd : 0 < d) :
    nearest n d ≤ t ↔ 2 * n ≤ 2 * (t * d) + d := by
  have hdiv : n / d * d + n % d = n := Nat.div_add_mod' n d
  have hlt : n % d < d := Nat.mod_lt n hd
  unfold nearest
  generalize n / d = q at *
  generalize n % d = r at *
  have hmul {i j : Nat} (h : i ≤ j) : i * d ≤ j * d := Nat.mul_le_mul_right d h
  have hone : (q + 1) * d = q * d + d := Nat.succ_mul q d
  have hnext : (t + 1) * d = t * d + d := Nat.succ_mul t d
  split_ifs with hbelow htie
  · rcases Nat.lt_or_ge t q with h | h
    · have habove := hmul (show t + 1 ≤ q from h)
      omega
    · have hle := hmul h
      omega
  · rcases Nat.lt_or_ge t (q + q % 2) with h | h
    · have habove := hmul (show t + 1 ≤ q by omega)
      omega
    · have hle := hmul (show q ≤ t by omega)
      omega
  · rcases Nat.lt_or_ge t (q + 1) with h | h
    · have hle := hmul (Nat.le_of_lt_succ h)
      omega
    · have habove := hmul h
      omega

end Nearest

namespace Rounding

theorem log2_mul_two_pow {n : Nat} (h : n ≠ 0) (s : Nat) : (n * 2 ^ s).log2 = n.log2 + s := by
  have hne : n * 2 ^ s ≠ 0 := Nat.mul_ne_zero h (Nat.two_pow_pos s).ne'
  rw [Nat.log2_eq_iff hne, Nat.pow_add, Nat.add_right_comm, Nat.pow_add]
  exact ⟨Nat.mul_le_mul_right _ (Nat.log2_self_le h),
    Nat.mul_lt_mul_of_pos_right Nat.lt_log2_self (Nat.two_pow_pos s)⟩

/-- What is known of the bits lost from a quotient: whether they make half a unit or more, and
whether they make anything else than nothing or half a unit. -/
def residue (n d : Nat) : ExtendedMantissa :=
  ⟨n / d, decide (d ≤ 2 * (n % d)), decide (n % d ≠ 0 ∧ 2 * (n % d) ≠ d)⟩

theorem ofMantissaAndAccuracy_eq {n d : Nat} (hd : 0 < d) :
    .ofMantissaAndAccuracy (n / d) (accuracyOfFraction (n % d) d) = residue n d := by
  unfold accuracyOfFraction residue
  split_ifs with hzero
  · simp [ExtendedMantissa.ofMantissaAndAccuracy, hzero, hd.ne']
  · rcases Nat.lt_trichotomy (2 * (n % d)) d with h | h | h
    · simp [Nat.compare_eq_lt.mpr h, ExtendedMantissa.ofMantissaAndAccuracy, hzero, h.ne,
        Nat.not_le.mpr h]
    · simp [ExtendedMantissa.ofMantissaAndAccuracy, h]
    · simp [Nat.compare_eq_gt.mpr h, ExtendedMantissa.ofMantissaAndAccuracy, hzero, h.ne', h.le]

theorem shiftRightOne_residue {n d : Nat} (hd : 0 < d) :
    (residue n d).shiftRightOne = residue n (d * 2) := by
  have hlt : n % d < d := Nat.mod_lt n hd
  have hmod : n % (d * 2) = n % d + d * (n / d % 2) := Nat.mod_mul
  have hbit : n / d % 2 = 0 ∨ n / d % 2 = 1 := Nat.mod_two_eq_zero_or_one _
  unfold residue ExtendedMantissa.shiftRightOne
  rw [← Nat.div_div_eq_div_mul, hmod]
  generalize n / d % 2 = bit at *
  congr 1
  · apply Bool.eq_iff_iff.mpr
    rcases hbit with rfl | rfl <;> simp <;> omega
  · apply Bool.eq_iff_iff.mpr
    simp only [Bool.or_eq_true, decide_eq_true_eq]
    rcases hbit with rfl | rfl <;> omega

theorem shiftRight_residue {n d : Nat} (hd : 0 < d) (s : Nat) :
    residue n d >>> s = residue n (d * 2 ^ s) := by
  change s.repeat ExtendedMantissa.shiftRightOne (residue n d) = _
  induction s with
  | zero => rw [Nat.pow_zero, Nat.mul_one]; rfl
  | succ s ih =>
    rw [Nat.repeat, ih, shiftRightOne_residue (Nat.mul_pos hd (Nat.two_pow_pos s)), Nat.pow_succ,
      Nat.mul_assoc]

theorem roundedMantissa_residue {n d : Nat} (hd : 0 < d) :
    (residue n d).roundedMantissa = nearest n d := by
  unfold residue nearest ExtendedMantissa.roundedMantissa
  split_ifs with hbelow htie
  · have hround : ¬ d ≤ 2 * (n % d) := Nat.not_le.mpr hbelow
    simp only [hround, decide_false]
    cases decide (n % d ≠ 0 ∧ 2 * (n % d) ≠ d) <;> rfl
  · simp [htie, ExtendedMantissa.accuracy, Accuracy.roundToNearestEven]
  · have hround : d ≤ 2 * (n % d) := Nat.not_lt.mp hbelow
    have hsticky : n % d ≠ 0 ∧ 2 * (n % d) ≠ d := ⟨by omega, htie⟩
    simp [hround, hsticky, ExtendedMantissa.accuracy, Accuracy.roundToNearestEven]

/-- Shifting a quotient to the right and rounding it gives the nearest number. -/
theorem roundedMantissa_shiftRight {n d : Nat} (hd : 0 < d) (s : Nat) :
    (ExtendedMantissa.ofMantissaAndAccuracy (n / d) (accuracyOfFraction (n % d) d) >>>
      s).roundedMantissa = nearest n (d * 2 ^ s) := by
  rw [ofMantissaAndAccuracy_eq hd, shiftRight_residue hd,
    roundedMantissa_residue (Nat.mul_pos hd (Nat.two_pow_pos s))]

/-- A mantissa shortened to 24 bits needs no more room than that, but for a carry. -/
structure Carried (r : Nat) (e : Int) (m : Nat) (e' : Int) : Prop where
  lower : 2 ^ 23 ≤ m
  upper : m < 2 ^ 24
  eq : m = r ∧ e' = e ∨ r = 2 ^ 24 ∧ m = 2 ^ 23 ∧ e' = e + 1

theorem shiftToTargetExponent_eq {m s : Nat} {e : Int} (hlog : m.log2 = 23 + s)
    (he : -149 ≤ e + s) (accuracy : Accuracy) :
    shiftToTargetExponent .binary32 m e accuracy =
      (ExtendedMantissa.ofMantissaAndAccuracy m accuracy >>> s, e + s) := by
  have htarget : Format.binary32.targetExponent (totalExponent m e) - e = s := by
    simp only [Format.targetExponent, totalExponent, hlog, Format.mantissaBits, Format.minExponent]
    omega
  simp only [shiftToTargetExponent, shiftToExponent, htarget, Int.toNat_natCast]

theorem finite_of_shifted {shifted : ExtendedMantissa × Int} {sign : Sign} {m : Nat} {e : Int}
    (hm : shifted.1.mantissa = m) (he : shifted.2 = e) (hpos : 0 < m) :
    (if h : shifted.1.mantissa = 0 then .zero sign
      else .finite sign shifted.1.mantissa shifted.2 (Nat.pos_of_ne_zero h)) =
      UnpackedFloat.finite sign m e hpos := by
  subst hm he
  exact dif_neg hpos.ne'

/-- A number that does not underflow is rounded to 24 bits. -/
theorem roundWithAccuracy_eq {n d s : Nat} {e : Int} (hd : 0 < d) (hlog : (n / d).log2 = 23 + s)
    (he : -149 ≤ e + s) (sign : Sign) :
    ∃ m e' h, roundWithAccuracy .binary32 sign (n / d) e (accuracyOfFraction (n % d) d) =
        .finite sign m e' h ∧ Carried (nearest n (d * 2 ^ s)) (e + s) m e' := by
  have hne : n / d ≠ 0 := by
    intro h
    rw [h, Nat.log2_zero] at hlog
    omega
  obtain ⟨hlow, hhigh⟩ := (Nat.log2_eq_iff hne).mp hlog
  have hquot : n / (d * 2 ^ s) = n / d / 2 ^ s := (Nat.div_div_eq_div_mul ..).symm
  have hlower : 2 ^ 23 ≤ n / (d * 2 ^ s) := by
    rw [hquot, Nat.le_div_iff_mul_le (Nat.two_pow_pos s), ← Nat.pow_add]
    exact hlow
  have hupper : n / (d * 2 ^ s) < 2 ^ 24 := by
    rw [hquot, Nat.div_lt_iff_lt_mul (Nat.two_pow_pos s), ← Nat.pow_add]
    exact Nat.lt_of_lt_of_le hhigh (Nat.pow_le_pow_right (by decide) (by omega))
  have hleast := div_le_nearest n (d * 2 ^ s)
  have hmost := nearest_le_succ n (d * 2 ^ s)
  have hround : (ExtendedMantissa.ofMantissaAndAccuracy (n / d) (accuracyOfFraction (n % d) d) >>>
      s).roundedMantissa = nearest n (d * 2 ^ s) := roundedMantissa_shiftRight hd s
  unfold roundWithAccuracy
  rw [shiftToTargetExponent_eq hlog he]
  dsimp only
  rw [hround]
  generalize nearest n (d * 2 ^ s) = r at hleast hmost ⊢
  rcases Nat.lt_or_ge r (2 ^ 24) with hr | hr
  · have hlog : r.log2 = 23 + 0 := (Nat.log2_eq_iff (by omega)).mpr ⟨by omega, hr⟩
    have hshift := shiftToTargetExponent_eq hlog (e := e + s) (by omega) .exact
    refine ⟨r, e + s, by omega, finite_of_shifted ?_ ?_ _, ⟨by omega, hr, .inl ⟨rfl, rfl⟩⟩⟩
    · rw [hshift]; rfl
    · rw [hshift]; exact Int.add_zero _
  · obtain rfl : r = 2 ^ 24 := by omega
    have hlog : (2 ^ 24).log2 = 23 + 1 := Nat.log2_two_pow
    have hshift := shiftToTargetExponent_eq hlog (e := e + s) (by omega) .exact
    refine ⟨2 ^ 23, e + s + 1, by decide, finite_of_shifted ?_ ?_ _,
      ⟨by decide, by decide, .inr ⟨rfl, rfl, rfl⟩⟩⟩
    · rw [hshift]; rfl
    · rw [hshift]; rfl

theorem roundWithAccuracy_exact {n s : Nat} {e : Int} (hlog : n.log2 = 23 + s)
    (he : -149 ≤ e + s) (sign : Sign) :
    ∃ m e' h, roundWithAccuracy .binary32 sign n e .exact = .finite sign m e' h ∧
      Carried (nearest n (2 ^ s)) (e + s) m e' := by
  obtain ⟨m, e', h, hround, hcarried⟩ :=
    roundWithAccuracy_eq Nat.one_pos ((Nat.div_one n).symm ▸ hlog) he sign
  rw [Nat.div_one, Nat.mod_one] at hround
  rw [Nat.one_mul] at hcarried
  exact ⟨m, e', h, hround, hcarried⟩

structure Normal (m : Nat) (e : Int) : Prop where
  lower : 2 ^ 23 ≤ m
  upper : m < 2 ^ 24
  least : -149 ≤ e
  most : e ≤ 104

theorem Normal.pos {m : Nat} {e : Int} (h : Normal m e) : 0 < m :=
  Nat.lt_of_lt_of_le (by decide) h.lower

theorem Carried.normal {r m : Nat} {e e' : Int} (h : Carried r e m e') (hleast : -149 ≤ e)
    (hmost : e ≤ 103) : Normal m e' := by
  obtain ⟨hlower, hupper, ⟨-, rfl⟩ | ⟨-, -, rfl⟩⟩ := h
  · exact ⟨hlower, hupper, hleast, by omega⟩
  · exact ⟨hlower, hupper, by omega, by omega⟩

theorem roundWithAccuracy_mul_two_pow {m s : Nat} {e : Int} (h : Normal m (e + s)) (sign : Sign) :
    roundWithAccuracy .binary32 sign (m * 2 ^ s) e .exact = .finite sign m (e + s) h.pos := by
  have hlower := h.lower
  have hupper := h.upper
  have hlog : (m * 2 ^ s).log2 = 23 + s := by
    rw [log2_mul_two_pow h.pos.ne', (Nat.log2_eq_iff h.pos.ne').mpr ⟨hlower, hupper⟩]
  obtain ⟨m', e', hpos, hround, hcarried⟩ := roundWithAccuracy_exact hlog h.least sign
  rw [nearest_of_dvd (Nat.dvd_mul_left ..) (Nat.two_pow_pos s),
    Nat.mul_div_cancel _ (Nat.two_pow_pos s)] at hcarried
  obtain ⟨rfl, rfl⟩ | ⟨hcarry, -⟩ := hcarried.eq
  · exact hround
  · omega

theorem unpack_pack {m : Nat} {e : Int} (h : Normal m e) (sign : Sign) (hpos : 0 < m) :
    UnpackedFloat.unpack .binary32 (UnpackedFloat.pack .binary32 (.finite sign m e hpos)) =
      .finite sign m e hpos := by
  obtain ⟨hlower, hupper, hleast, hmost⟩ := h
  have hlog : m.log2 = 23 := (Nat.log2_eq_iff hpos.ne').mpr ⟨hlower, hupper⟩
  have hexponent : (BitVec.ofNat 8 (e + 150).toNat).toNat = (e + 150).toNat := by
    rw [BitVec.toNat_ofNat]
    omega
  have hones : BitVec.ofNat 8 (e + 150).toNat ≠ -1#8 := by
    intro h
    have h := congrArg BitVec.toNat h
    rw [hexponent] at h
    have : (-1#8).toNat = 255 := rfl
    omega
  have hzeros : BitVec.ofNat 8 (e + 150).toNat ≠ 0#8 := by
    intro h
    have h := congrArg BitVec.toNat h
    rw [hexponent] at h
    have : (0#8).toNat = 0 := rfl
    omega
  have hmantissa : (1#1 ++ BitVec.ofNat 23 m).toNat = m := by
    have hfraction : (BitVec.ofNat 23 m).toNat = m % 2 ^ 23 := BitVec.toNat_ofNat m 23
    have hone : (1#1).toNat = 1 := rfl
    rw [BitVec.toNat_append, ← Nat.shiftLeft_add_eq_or_of_lt (BitVec.isLt _), Nat.shiftLeft_eq,
      hfraction, hone]
    omega
  have hpack : UnpackedFloat.pack .binary32 (.finite sign m e hpos) =
      packComponents .binary32 sign (.ofNat 8 (e + 150).toNat) (.ofNat 23 m) := by
    have hbiased : (e + (Format.binary32.exponentBias : Int) + (23 : Nat)).toNat =
        (e + 150).toNat := by
      have hbias : (Format.binary32.exponentBias : Int) = 127 := rfl
      omega
    have hfinite : ¬ 2 ^ 8 ≤ (e + 150).toNat + 1 := by omega
    have hnormal : m.log2 + 1 = Format.binary32.mantissaBits := by rw [hlog]; rfl
    simp only [UnpackedFloat.pack, hbiased, hnormal, hfinite, if_true, if_false]
  rw [hpack]
  unfold UnpackedFloat.unpack
  simp only [unpackMantissa_packComponents, unpackExponent_packComponents,
    unpackSign_packComponents, Sign.ofBitVec_toBitVec]
  rw [if_neg hones, if_neg hzeros]
  congr 1
  · have hbias : (Format.binary32.exponentBias : Int) = 127 := rfl
    rw [hexponent, hbias]
    omega

theorem nearest_exact {n L : Nat} (h : L < 24) :
    nearest (n * 2 ^ 24) (2 ^ (L + 1)) = n * 2 ^ (23 - L) := by
  have hfactor : n * 2 ^ 24 = n * 2 ^ (23 - L) * 2 ^ (L + 1) := by
    rw [Nat.mul_assoc, ← Nat.pow_add]
    congr 2
    omega
  rw [hfactor, nearest_of_dvd (Nat.dvd_mul_left ..) (Nat.two_pow_pos _),
    Nat.mul_div_cancel _ (Nat.two_pow_pos _)]

theorem normal_of_lt {n : Nat} (h : 0 < n) (hlt : n < 2 ^ 23) :
    Normal (n * 2 ^ (23 - n.log2)) (n.log2 - 23) := by
  obtain ⟨hlower, hupper⟩ := (Nat.log2_eq_iff h.ne').mp rfl
  have hlog : n.log2 < 23 := (Nat.log2_lt h.ne').mpr hlt
  have hpow : 2 ^ n.log2 * 2 ^ (23 - n.log2) = 2 ^ 23 := by
    rw [← Nat.pow_add, Nat.add_sub_cancel' hlog.le]
  refine ⟨?_, ?_, by omega, by omega⟩
  · rw [← hpow]
    exact Nat.mul_le_mul_right _ hlower
  · have hmul := Nat.mul_lt_mul_of_pos_right hupper (Nat.two_pow_pos (23 - n.log2))
    rw [Nat.pow_succ, Nat.mul_right_comm, hpow] at hmul
    exact hmul

theorem ofNat_eq {n : Nat} (h : 0 < n) (hlt : n < 2 ^ 23) :
    UnpackedFloat.ofNat .binary32 n = .finite .positive (n * 2 ^ (23 - n.log2)) (n.log2 - 23)
      (normal_of_lt h hlt).pos := by
  have hlog : n.log2 < 23 := (Nat.log2_lt h.ne').mpr hlt
  have hshift : (0 - Format.binary32.targetExponent (totalExponent n 0)).toNat = 23 - n.log2 := by
    simp only [Format.targetExponent, totalExponent, Format.mantissaBits, Format.minExponent]
    omega
  have hdecrease : decreaseExponent n 0 (Format.binary32.targetExponent (totalExponent n 0)) =
      (n * 2 ^ (23 - n.log2) * 2 ^ 0, (n.log2 - 23 : Int)) := by
    simp only [decreaseExponent, hshift, Nat.shiftLeft_eq, Nat.pow_zero, Nat.mul_one]
    congr 1
    omega
  have hround := roundWithAccuracy_mul_two_pow (s := 0) (e := n.log2 - 23)
    (by simpa using normal_of_lt h hlt) .positive
  have hsign : compare (n : Int) 0 = .gt := Int.compare_eq_gt.mpr (by omega)
  rw [UnpackedFloat.ofNat, UnpackedFloat.ofInt, UnpackedFloat.normalize, hsign]
  dsimp only
  rw [Int.toNat_natCast, UnpackedFloat.round, hdecrease]
  dsimp only
  rw [hround]
  congr 1
  exact Int.add_zero _

theorem ofScientific_eq {n : Nat} (h : 0 < n) :
    UnpackedFloat.ofScientific .binary32 n 0 =
      roundWithAccuracy .binary32 .positive (n * 2 ^ 24) (-24) .exact := by
  have hlow : ¬ (0 : Int) > 2 ^ Format.binary32.exponentBits := by decide
  have hlog : ¬ (0 : Int) < -((2 ^ Format.binary32.exponentBits : Int) + n.log2) := by
    have : (2 ^ Format.binary32.exponentBits : Int) = 256 := rfl
    omega
  have hexact : n <<< Format.binary32.mantissaBits * 10 ^ (0 : Int).toNat = n * 2 ^ 24 := by
    rw [Nat.shiftLeft_eq]
    exact Nat.mul_one _
  have hexponent : -(Format.binary32.mantissaBits : Int) + 0 = -24 := rfl
  rw [UnpackedFloat.ofScientific, dif_neg h.ne', if_neg hlow, if_neg hlog, if_pos (Int.le_refl 0),
    UnpackedFloat.mul]
  · rw [hexact, hexponent]
    congr 1

/-- Mantissas of 24 bits are compared by their exponents first. -/
theorem mul_two_pow_le_iff {m₁ m₂ a b : Nat} {e₁ e₂ : Int} (h₁ : Normal m₁ e₁)
    (h₂ : Normal m₂ e₂) : m₁ * 2 ^ a ≤ m₂ * 2 ^ b ↔ a < b ∨ a = b ∧ m₁ ≤ m₂ := by
  have hbelow {m m' i j : Nat} (hupper : m < 2 ^ 24) (hlower : 2 ^ 23 ≤ m') (hlt : i < j) :
      m * 2 ^ i < m' * 2 ^ j := calc
    m * 2 ^ i < 2 ^ 24 * 2 ^ i := Nat.mul_lt_mul_of_pos_right hupper (Nat.two_pow_pos i)
    _ = 2 ^ 23 * 2 ^ (i + 1) := by rw [Nat.pow_succ]; omega
    _ ≤ m' * 2 ^ j := Nat.mul_le_mul hlower (Nat.pow_le_pow_right (by decide) hlt)
  rcases Nat.lt_trichotomy a b with h | rfl | h
  · simp [h, (hbelow h₁.upper h₂.lower h).le]
  · simp [Nat.mul_le_mul_right_iff (Nat.two_pow_pos a)]
  · simp [h.ne', Nat.not_lt.mpr h.le, hbelow h₂.upper h₁.lower h]

end Rounding

end ShaderBinding
