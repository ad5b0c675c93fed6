import ShaderBinding.Proofs.Single.Rounding

/-! # Numbers of extents

A positive natural number that has 32 bits is held rounded to 24. Such a number divided by another
is taken for zero exactly if it is at most `2 ^ -23` of it, after both were rounded.
-/

namespace ShaderBinding

open Float.Model Float.Model.UnpackedFloat Rounding

/-- A float is positive and holds a mantissa and an exponent. -/
def Holds (f : Float32) (m : Nat) (e : Int) : Prop :=
  ∃ hpos, f.toModel.unpack = .finite .positive m e hpos

namespace Holds

variable {f g : Float32} {m m' : Nat} {e e' : Int}

theorem ofModel_pack (h : Normal m e) (hpos : 0 < m) :
    Holds (.ofModel (.pack (.finite .positive m e hpos))) m e :=
  ⟨hpos, unpack_pack h .positive hpos⟩

theorem abs (hf : Holds f m e) (h : Normal m e) : Holds f.abs m e := by
  obtain ⟨hpos, hf⟩ := hf
  have hmodel : f.abs = .ofModel (.pack f.toModel.unpack.abs) := rfl
  rw [hmodel, hf]
  exact ofModel_pack h hpos

theorem sub_zero (hf : Holds f m e) (h : Normal m e) {sign : Sign}
    (hg : g.toModel.unpack = .zero sign) : Holds (f - g) m e := by
  obtain ⟨hpos, hf⟩ := hf
  have hmodel : f - g = .ofModel (.pack (.sub .binary32 f.toModel.unpack g.toModel.unpack)) := rfl
  rw [hmodel, hf, hg]
  exact ofModel_pack h hpos

theorem le_iff (hf : Holds f m e) (hg : Holds g m' e') :
    f ≤ g ↔ e < e' ∨ e = e' ∧ m ≤ m' := by
  obtain ⟨hpos, hf⟩ := hf
  obtain ⟨hpos', hg⟩ := hg
  have hmodel : f ≤ g ↔ UnpackedFloat.le f.toModel.unpack g.toModel.unpack = true :=
    decide_eq_true_iff
  rw [hmodel, hf, hg]
  change ((compare e e').then (compare m m')).isLE = true ↔ _
  rcases Int.lt_trichotomy e e' with h | rfl | h
  · simp [Int.compare_eq_lt.mpr h, h]
  · simp [Nat.isLE_compare]
  · simp [Int.compare_eq_gt.mpr h, h.ne', Int.not_lt.mpr h.le]

theorem not_lt_zero (hf : Holds f m e) {sign : Sign} (hg : g.toModel.unpack = .zero sign) :
    ¬ f < g := by
  obtain ⟨hpos, hf⟩ := hf
  have hmodel : f < g ↔ UnpackedFloat.lt f.toModel.unpack g.toModel.unpack = true :=
    decide_eq_true_iff
  rw [hmodel, hf, hg]
  exact Bool.false_ne_true

theorem not_beq_zero (hf : Holds f m e) {sign : Sign} (hg : g.toModel.unpack = .zero sign) :
    (f == g) = false := by
  obtain ⟨hpos, hf⟩ := hf
  have hmodel : (f == g) = UnpackedFloat.beq f.toModel.unpack g.toModel.unpack := rfl
  rw [hmodel, hf, hg]
  rfl

theorem isInf (hf : Holds f m e) : f.isInf = false := by
  obtain ⟨hpos, hf⟩ := hf
  have hmodel : f.isInf = f.toModel.unpack.isInf := rfl
  rw [hmodel, hf]
  rfl

theorem mul_two_pow {k : Int} (hf : Holds f m e) (hg : Holds g (2 ^ 23) k)
    (h : Normal m (e + k + (23 : Nat))) : Holds (f * g) m (e + k + (23 : Nat)) := by
  obtain ⟨hpos, hf⟩ := hf
  obtain ⟨hpos', hg⟩ := hg
  have hmodel : f * g = .ofModel (.pack (.mul .binary32 f.toModel.unpack g.toModel.unpack)) := rfl
  have hmul : UnpackedFloat.mul .binary32 (.finite .positive m e hpos)
      (.finite .positive (2 ^ 23) k hpos') =
      roundWithAccuracy .binary32 .positive (m * 2 ^ 23) (e + k) .exact := rfl
  rw [hmodel, hf, hg, hmul, roundWithAccuracy_mul_two_pow h]
  exact ofModel_pack h h.pos

/-- A quotient of normal numbers is one, and is at most `2 ^ -23` if the mantissas and exponents
of the two say so. -/
theorem div {m₁ m₂ : Nat} {e₁ e₂ : Int} (hf : Holds f m₁ e₁) (hg : Holds g m₂ e₂)
    (h₁ : Normal m₁ e₁) (h₂ : Normal m₂ e₂) (hleast : -100 ≤ e₁ - e₂) (hmost : e₁ - e₂ ≤ 100) :
    ∃ m e, Holds (f / g) m e ∧ Normal m e ∧ (e < -46 ∨ e = -46 ∧ m ≤ 2 ^ 23 ↔
      e₁ + 23 < e₂ ∨ e₁ + 23 = e₂ ∧ m₁ ≤ m₂) := by
  obtain ⟨hpos₁, hf⟩ := hf
  obtain ⟨hpos₂, hg⟩ := hg
  have hmodel : f / g = .ofModel (.pack (.div .binary32 f.toModel.unpack g.toModel.unpack)) := rfl
  have hlower₁ := h₁.lower
  have hupper₁ := h₁.upper
  have hlower₂ := h₂.lower
  have hupper₂ := h₂.upper
  have hlog₁ : m₁.log2 = 23 := (Nat.log2_eq_iff (by omega)).mpr ⟨hlower₁, hupper₁⟩
  have hlog₂ : m₂.log2 = 23 := (Nat.log2_eq_iff (by omega)).mpr ⟨hlower₂, hupper₂⟩
  have hcore : divCore .binary32 m₁ e₁ m₂ e₂ = (m₁ * 2 ^ 24 / m₂, e₁ - e₂ - 24,
      accuracyOfFraction (m₁ * 2 ^ 24 % m₂) m₂) := by
    have htarget : min (e₁ - e₂) (Format.binary32.targetExponent
        (totalExponent m₁ e₁ - totalExponent m₂ e₂)) = e₁ - e₂ - 24 := by
      simp only [Format.targetExponent, totalExponent, hlog₁, hlog₂, Format.mantissaBits,
        Format.minExponent]
      omega
    have hshift : (e₁ - e₂ - (e₁ - e₂ - 24)).toNat = 24 := by omega
    simp only [divCore, htarget, hshift, Nat.shiftLeft_eq]
  -- The quotient of the mantissas has 25 bits if it is at least one, and 24 otherwise.
  obtain ⟨s, hs, hlog⟩ : ∃ s, (s = 1 ∧ m₂ ≤ m₁ ∨ s = 0 ∧ m₁ < m₂) ∧
      (m₁ * 2 ^ 24 / m₂).log2 = 23 + s := by
    rcases Nat.lt_or_ge m₁ m₂ with hlt | hle
    · have hlower : 2 ^ 23 ≤ m₁ * 2 ^ 24 / m₂ := (Nat.le_div_iff_mul_le hpos₂).mpr (by omega)
      have hupper : m₁ * 2 ^ 24 / m₂ < 2 ^ 24 := (Nat.div_lt_iff_lt_mul hpos₂).mpr (by omega)
      exact ⟨0, .inr ⟨rfl, hlt⟩, (Nat.log2_eq_iff (by omega)).mpr ⟨hlower, hupper⟩⟩
    · have hlower : 2 ^ 24 ≤ m₁ * 2 ^ 24 / m₂ := (Nat.le_div_iff_mul_le hpos₂).mpr (by omega)
      have hupper : m₁ * 2 ^ 24 / m₂ < 2 ^ 25 := (Nat.div_lt_iff_lt_mul hpos₂).mpr (by omega)
      exact ⟨1, .inl ⟨rfl, hle⟩, (Nat.log2_eq_iff (by omega)).mpr ⟨hlower, hupper⟩⟩
  obtain ⟨m, e, hpos, hround, hcarried⟩ :=
    roundWithAccuracy_eq (e := e₁ - e₂ - 24) hpos₂ hlog (by omega) .positive
  have hdiv : UnpackedFloat.div .binary32 (.finite .positive m₁ e₁ hpos₁)
      (.finite .positive m₂ e₂ hpos₂) = .finite .positive m e hpos := by
    rw [← hround, UnpackedFloat.div, hcore]
    rfl
  have hnormal : Normal m e := hcarried.normal (by omega) (by omega)
  refine ⟨m, e, ?_, hnormal, ?_⟩
  · rw [hmodel, hf, hg, hdiv]
    exact ofModel_pack hnormal hpos
  · have hsmall := nearest_le_iff (n := m₁ * 2 ^ 24) (t := 2 ^ 23) rfl
      (Nat.mul_pos hpos₂ (Nat.two_pow_pos s))
    have hcarry := hcarried.eq
    generalize nearest (m₁ * 2 ^ 24) (m₂ * 2 ^ s) = r at hsmall hcarry
    rcases hs with ⟨rfl, hle⟩ | ⟨rfl, hlt⟩
    · rcases hcarry with ⟨rfl, rfl⟩ | ⟨rfl, rfl, rfl⟩ <;> omega
    · rcases hcarry with ⟨rfl, rfl⟩ | ⟨rfl, rfl, rfl⟩ <;> omega

theorem holds_one : Holds (.ofBits 0x3F800000) (2 ^ 23) (-23) := ⟨by decide, rfl⟩

theorem ofNat {n : Nat} (h : 0 < n) (hlt : n < 2 ^ 64) :
    ∃ m e, Holds (.ofNat n) m e ∧
      Carried (nearest (n * 2 ^ 24) (2 ^ (n.log2 + 1))) (n.log2 - 23) m e := by
  have hlog : n.log2 < 64 := (Nat.log2_lt h.ne').mpr hlt
  rcases Nat.lt_or_ge n (2 ^ 23) with hsmall | hlarge
  · have hnormal := normal_of_lt h hsmall
    have hnumber : n.toUInt64.toNat = n := Nat.mod_eq_of_lt hlt
    have hconvert : Holds n.toUInt64.toFloat32 (n * 2 ^ (23 - n.log2)) (n.log2 - 23) := by
      have hmodel : n.toUInt64.toFloat32 =
          .ofModel (.pack (UnpackedFloat.ofNat .binary32 n.toUInt64.toNat)) := rfl
      rw [hmodel, hnumber, ofNat_eq h hsmall]
      exact ofModel_pack hnormal hnormal.pos
    have hproduct : Float32.ofNat n = n.toUInt64.toFloat32 * .ofBits 0x3F800000 := by
      change Float32.ofScientific n false 0 = _
      rw [Float32.ofScientific, dif_pos ⟨hsmall, by decide⟩]
      rfl
    have hlog : n.log2 < 23 := (Nat.log2_lt h.ne').mpr hsmall
    have hexponent : (n.log2 - 23 : Int) + -23 + (23 : Nat) = n.log2 - 23 := by omega
    have hholds := hconvert.mul_two_pow holds_one (by rwa [hexponent])
    rw [hexponent, ← hproduct] at hholds
    have hexact := (nearest_exact (n := n) (by omega : n.log2 < 24)).symm
    exact ⟨_, _, hholds, hnormal.lower, hnormal.upper, .inl ⟨hexact, rfl⟩⟩
  · have hmodel : Float32.ofNat n = .ofModel (.ofScientific n 0) := by
      change Float32.ofScientific n false 0 = _
      rw [Float32.ofScientific, dif_neg (by omega)]
      rfl
    have hpack : Float32.Model.ofScientific n 0 =
        .pack (UnpackedFloat.ofScientific .binary32 n 0) := rfl
    have hlog' : (n * 2 ^ 24).log2 = 23 + (n.log2 + 1) := by
      rw [log2_mul_two_pow h.ne']
      omega
    obtain ⟨m, e, hpos, hround, hcarried⟩ :=
      roundWithAccuracy_exact hlog' (e := -24) (by omega) .positive
    have hexponent : -24 + ((n.log2 + 1 : Nat) : Int) = n.log2 - 23 := by omega
    rw [hexponent] at hcarried
    refine ⟨m, e, ?_, hcarried⟩
    rw [hmodel, hpack, ofScientific_eq h, hround]
    exact ofModel_pack (hcarried.normal (by omega) (by omega)) hpos

end Holds

namespace Single

def unpacked (x : Single) : UnpackedFloat := UnpackedFloat.unpack .binary32 x.bits.toBitVec

theorem toNat_unpackExponent (b : BitVec Format.binary32.numBits) :
    (unpackExponent b).toNat = b.toNat / 2 ^ 23 % 2 ^ 8 := by
  simp only [unpackExponent, BitVec.toNat_cast, BitVec.extractLsb_toNat, Nat.shiftRight_eq_div_pow]

theorem toNat_unpackMantissa (b : BitVec Format.binary32.numBits) :
    (unpackMantissa b).toNat = b.toNat % 2 ^ 23 := by
  simp only [unpackMantissa, BitVec.toNat_cast, BitVec.extractLsb_toNat, Nat.shiftRight_zero]

theorem unpacked_of_isNaN {x : Single} (h : x.isNaN = true) : x.unpacked = .notANumber := by
  have hand : (x.bits &&& 0x7FFFFFFF).toNat = x.bits.toNat % 2 ^ 31 :=
    Nat.and_two_pow_sub_one_eq_mod x.bits.toNat 31
  have hgt : 0x7F800000 < x.bits.toNat % 2 ^ 31 := hand ▸ of_decide_eq_true h
  have hbits : x.bits.toBitVec.toNat = x.bits.toNat := rfl
  have hexponent : @unpackExponent .binary32 x.bits.toBitVec = -1#8 := by
    apply BitVec.eq_of_toNat_eq
    rw [toNat_unpackExponent, hbits]
    change _ = 255
    omega
  have hmantissa : @unpackMantissa .binary32 x.bits.toBitVec ≠ 0#23 := by
    intro hzero
    have hzero := congrArg BitVec.toNat hzero
    rw [toNat_unpackMantissa, hbits] at hzero
    change _ = 0 at hzero
    omega
  unfold unpacked UnpackedFloat.unpack
  rw [if_pos hexponent, if_neg hmantissa]

def Is (x : Single) (m : Nat) (e : Int) : Prop := ∃ hpos, x.unpacked = .finite .positive m e hpos

variable {x y : Single} {m : Nat} {e : Int}

theorem Is.isNaN (h : x.Is m e) : x.isNaN = false := by
  obtain ⟨hpos, h⟩ := h
  by_contra hnan
  rw [unpacked_of_isNaN (Bool.not_eq_false _ ▸ hnan)] at h
  cases h

theorem Is.toFloat (h : x.Is m e) (hnormal : Normal m e) : Holds x.toFloat m e := by
  obtain ⟨hpos, h⟩ := h
  have hmodel : x.toFloat = .ofModel (.pack x.unpacked) := rfl
  rw [hmodel, h]
  exact Holds.ofModel_pack hnormal hpos

theorem is_ofFloat {f : Float32} (h : Holds f m e) : (ofFloat f).Is m e := by
  obtain ⟨hpos, h⟩ := h
  have hnumber : f.isNaN = false := by
    have hmodel : f.isNaN = f.toModel.unpack.isNaN := rfl
    rw [hmodel, h]
    rfl
  refine ⟨hpos, ?_⟩
  rw [ofFloat, hnumber]
  exact h

theorem unpack_zero : zero.toFloat.toModel.unpack = .zero .positive := rfl

theorem holds_epsilon : Holds epsilon (2 ^ 23) (-46) := ⟨by decide, rfl⟩

theorem near_zero_iff (h : x.Is m e) (hnormal : Normal m e) :
    x.near zero = true ↔ e < -46 ∨ e = -46 ∧ m ≤ 2 ^ 23 := by
  have hx := h.toFloat hnormal
  have hdifference := (hx.sub_zero hnormal unpack_zero).abs hnormal
  have hnumber : zero.toFloat.isInf = false := rfl
  have hlargest : ¬ x.toFloat.abs < zero.toFloat.abs := (hx.abs hnormal).not_lt_zero rfl
  have hsmall : x.near zero = true ↔ (x.toFloat - zero.toFloat).abs ≤ epsilon ∨
      (x.toFloat - zero.toFloat).abs ≤ x.toFloat.abs * epsilon := by
    unfold near
    dsimp only
    rw [if_neg hlargest, hx.not_beq_zero unpack_zero, hx.isInf, hnumber]
    simp
  rw [hsmall, hdifference.le_iff holds_epsilon, or_iff_left_iff_imp]
  intro hrelative
  by_contra hgreater
  -- A number above `2 ^ -23` is greater than its product with it.
  have hproduct := (hx.abs hnormal).mul_two_pow holds_epsilon
    ⟨hnormal.lower, hnormal.upper, by omega, by have := hnormal.most; omega⟩
  rw [hdifference.le_iff hproduct] at hrelative
  omega

section Ratio

variable {n w h : Nat}

theorem is_ofNat (hpos : 0 < n) (hlt : n < 2 ^ 32) :
    ∃ m E : Nat, (ofNat n).Is m (E - 23) ∧ Normal m (E - 23) ∧ n.log2 ≤ E ∧ E ≤ 32 ∧
      m * 2 ^ E = nearest (n * 2 ^ 24) (2 ^ (n.log2 + 1)) * 2 ^ n.log2 := by
  have hlog : n.log2 < 32 := (Nat.log2_lt hpos.ne').mpr hlt
  obtain ⟨m, e, hholds, hcarried⟩ := Holds.ofNat hpos (by omega)
  have hnormal : Normal m e := hcarried.normal (by omega) (by omega)
  obtain ⟨rfl, rfl⟩ | ⟨hround, rfl, rfl⟩ := hcarried.eq
  · exact ⟨_, n.log2, is_ofFloat hholds, hnormal, by omega, by omega, rfl⟩
  · have hexponent : (n.log2 : Int) - 23 + 1 = (n.log2 + 1 : Nat) - 23 := by omega
    rw [hexponent] at hholds hnormal
    refine ⟨_, n.log2 + 1, is_ofFloat hholds, hnormal, by omega, by omega, ?_⟩
    rw [hround, Nat.pow_succ]
    omega

theorem binary_of_isNaN_eq_false {op : Float32 → Float32 → Float32} {x y : Single}
    (hx : x.isNaN = false) (hy : y.isNaN = false) :
    binary op x y = ofFloat (op x.toFloat y.toFloat) := by
  simp [binary, hx, hy]

/-- The least numbers whose leading 24 bits are at least those of a multiple of `2 ^ 23`. -/
theorem mul_le_nearest_iff {L : Nat} (hL : L < 32) :
    w * 2 ^ 46 ≤ nearest (h * 2 ^ 24) (2 ^ (L + 1)) * 2 ^ L ↔ 2 ^ 23 * w ≤ h + 2 ^ L / 2 ^ 24 := by
  have hfactor : w * 2 ^ 46 = w * 2 ^ (45 - L) * 2 * 2 ^ L := by
    rw [Nat.mul_assoc _ 2, ← Nat.pow_succ', Nat.mul_assoc, ← Nat.pow_add]
    congr 2
    omega
  have hdouble : w * 2 ^ (45 - L) * 2 * 2 ^ (L + 1) = w * 2 ^ 47 := by
    rw [Nat.pow_succ, ← Nat.mul_assoc, ← hfactor]
    omega
  have hsplit : 2 ^ (L + 1) = 2 * 2 ^ L := Nat.pow_succ'
  rw [hfactor, Nat.mul_le_mul_right_iff (Nat.two_pow_pos L),
    le_nearest_iff (Nat.mul_mod_left ..) (Nat.two_pow_pos (L + 1)), hdouble, hsplit]
  omega

theorem zero_div {x : Single} {m : Nat} {e : Int} (h : x.Is m e) (hf : Holds x.toFloat m e) :
    zero / x = zero := by
  obtain ⟨hpos, hf⟩ := hf
  have hmodel : zero.toFloat / x.toFloat = .ofModel (.pack (.div .binary32
      zero.toFloat.toModel.unpack x.toFloat.toModel.unpack)) := rfl
  have hdiv : UnpackedFloat.div .binary32 (.zero .positive) (.finite .positive m e hpos) =
      .zero .positive := rfl
  change binary _ _ _ = zero
  rw [binary_of_isNaN_eq_false rfl h.isNaN, hmodel, hf, unpack_zero, hdiv]
  decide +kernel

theorem ofNat_zero : ofNat 0 = zero := by decide +kernel

theorem ofNat_div_near_zero_iff (hw : w < 2 ^ 32) (hpos : 0 < h) (hh : h < 2 ^ 32) :
    (ofNat w / ofNat h).near zero = true ↔ 2 ^ 23 * w ≤ h + 2 ^ h.log2 / 2 ^ 24 := by
  have hlog : h.log2 < 32 := (Nat.log2_lt hpos.ne').mpr hh
  obtain ⟨m₂, E₂, his₂, hnormal₂, hleast₂, hmost₂, heq₂⟩ := is_ofNat hpos hh
  rcases Nat.eq_zero_or_pos w with rfl | hwpos
  · have hquotient : ofNat 0 / ofNat h = zero := ofNat_zero ▸ zero_div his₂ (his₂.toFloat hnormal₂)
    rw [hquotient]
    exact iff_of_true (by decide +kernel) (Nat.zero_le _)
  · obtain ⟨m₁, E₁, his₁, hnormal₁, hleast₁, hmost₁, heq₁⟩ := is_ofNat hwpos hw
    obtain ⟨m, e, hholds, hnormal, hiff⟩ := (his₁.toFloat hnormal₁).div (his₂.toFloat hnormal₂)
      hnormal₁ hnormal₂ (by omega) (by omega)
    have hquotient : (ofNat w / ofNat h).Is m e := by
      change (binary _ _ _).Is m e
      rw [binary_of_isNaN_eq_false his₁.isNaN his₂.isNaN]
      exact is_ofFloat hholds
    have hcompare : near (ofNat w / ofNat h) zero = true ↔
        E₁ + 23 < E₂ ∨ E₁ + 23 = E₂ ∧ m₁ ≤ m₂ := by
      rw [near_zero_iff hquotient hnormal, hiff]
      omega
    rcases Nat.lt_or_ge w (2 ^ 24) with hexact | hlarge
    · have hlog₁ : w.log2 < 24 := (Nat.log2_lt hwpos.ne').mpr hexact
      have hexact : m₁ * 2 ^ (E₁ + 23) = w * 2 ^ 46 := by
        rw [Nat.pow_add, ← Nat.mul_assoc, heq₁, nearest_exact hlog₁, Nat.mul_assoc, Nat.mul_assoc,
          ← Nat.pow_add, ← Nat.pow_add]
        congr 2
        omega
      rw [hcompare, ← mul_two_pow_le_iff hnormal₁ hnormal₂, heq₂, hexact, mul_le_nearest_iff hlog]
    · have hlog₁ : 24 ≤ w.log2 := (Nat.le_log2 hwpos.ne').mpr hlarge
      have hpow : 2 ^ h.log2 < 2 ^ 32 := Nat.pow_lt_pow_right (by decide) hlog
      rw [hcompare]
      omega

end Ratio

end Single

end ShaderBinding
