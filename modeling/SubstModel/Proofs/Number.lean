import Mathlib
import SubstModel.Number.Text

/-!
# Numbers of words — infinite perhaps, but never undefined

Digits are scaled by a power of ten, and a number is undefined only where zeros or infinities meet.  So every word of
the language spells a number that is finite or infinite.  The facts on how a float is packed into bits are in no module
of the library that could be imported by itself, so the whole library is.

* `IsNumber` — the number is not undefined;
* `IsNumber.magnitude_ne` — the same said by its bits;
* `isNumber_ofScientific`, `isNumber_neg` — digits with an exponent, and a change of sign;
* `isNumber_ofWord?` — **no word spells an undefined number**.
-/

namespace SubstModel.Number

open Float.Model Float.Model.UnpackedFloat

/-- The number is one: finite or infinite, but not undefined. -/
def IsNumber (x : Float) : Prop :=
  x.toModel.unpack ≠ .notANumber

/-! ### Bits -/

theorem magnitude_eq_undefined {bits : Nat} (h : Magnitude.ofBits bits = .undefined) :
    bits / Nat.pow 2 52 % Nat.pow 2 11 = 2047 ∧ bits % Nat.pow 2 52 ≠ 0 := by
  unfold Magnitude.ofBits at h
  extract_lets biased fraction at h
  repeat' split at h
  all_goals cases h
  next hbiased hfraction => exact ⟨hbiased, hfraction⟩

theorem IsNumber.magnitude_ne {x : Float} (h : IsNumber x) : magnitude x ≠ .undefined := by
  intro hundefined
  obtain ⟨hbiased, hfraction⟩ := magnitude_eq_undefined hundefined
  have hexponent : @unpackExponent Format.binary64 x.toBits.toBitVec = -1 := by
    apply BitVec.eq_of_toNat_eq
    rw [unpackExponent_def, BitVec.extractLsb'_toNat, Nat.shiftRight_eq_div_pow]
    exact hbiased
  have hmantissa : @unpackMantissa Format.binary64 x.toBits.toBitVec ≠ 0 := by
    intro hzero
    apply hfraction
    rw [unpackMantissa_def] at hzero
    have hvalue := congrArg BitVec.toNat hzero
    rw [BitVec.extractLsb'_toNat, Nat.shiftRight_zero] at hvalue
    exact hvalue
  refine h ?_
  show UnpackedFloat.unpack Format.binary64 x.toBits.toBitVec = .notANumber
  exact (if_pos hexponent).trans (if_neg hmantissa)

/-! ### Packing -/

theorem mantissa_packedNaN : unpackMantissa (packedNaN Format.binary64) ≠ 0 := by
  rw [packedNaN, unpackMantissa_packComponents]
  decide

theorem exponent_packedNaN : unpackExponent (packedNaN Format.binary64) = -1 := by
  rw [packedNaN, unpackExponent_packComponents]
  rfl

theorem packedInfinity_ne (s : Sign) : packedInfinity Format.binary64 s ≠ packedNaN Format.binary64 := by
  intro h
  have hmantissa := mantissa_packedNaN
  rw [← h, packedInfinity, unpackMantissa_packComponents] at hmantissa
  exact hmantissa rfl

theorem packComponents_ne (s : Sign) {e : BitVec Format.binary64.exponentBits}
    (m : BitVec Format.binary64.mantissaBitsWithoutImplicit) (he : e ≠ -1) :
    packComponents Format.binary64 s e m ≠ packedNaN Format.binary64 := by
  intro h
  have hexponent := exponent_packedNaN
  rw [← h, unpackExponent_packComponents] at hexponent
  exact he hexponent

/-- Packing makes nothing undefined: a finite number with too large an exponent becomes infinite. -/
theorem isNumber_pack {u : UnpackedFloat} (h : u ≠ .notANumber) : IsNumber ⟨Float.Model.pack u⟩ := by
  intro hnan
  have hbits := (unpack_eq_notANumber_iff_of_valid (Float.Model.pack u).valid (by decide)).1 hnan
  revert hbits
  show UnpackedFloat.pack Format.binary64 u ≠ packedNaN Format.binary64
  cases u with
  | notANumber => exact absurd rfl h
  | infinity s => exact packedInfinity_ne s
  | zero s => exact packComponents_ne s _ (by decide)
  | finite s m e hm =>
    unfold UnpackedFloat.pack
    extract_lets mantissaBits biased
    split
    · exact packedInfinity_ne s
    · next hbiased =>
      split
      · refine packComponents_ne s _ fun hall => ?_
        have hvalue : biased % 2 ^ 11 = 2047 := congrArg BitVec.toNat hall
        have hsmall : ¬2 ^ 11 ≤ biased + 1 := hbiased
        omega
      · exact packComponents_ne s _ (by decide)

/-! ### Arithmetic -/

theorem roundWithAccuracy_ne (spec : Format) (s : Sign) (m : Nat) (e : Int) (acc : Accuracy) :
    roundWithAccuracy spec s m e acc ≠ .notANumber := by
  fun_cases roundWithAccuracy <;> simp

section Finite

variable (spec : Format) {u : UnpackedFloat} (h : u ≠ .notANumber) (s : Sign) (m : Nat) (e : Int) (hm : 0 < m)

include h

theorem mul_finite_ne : UnpackedFloat.mul spec u (.finite s m e hm) ≠ .notANumber := by
  cases u with
  | notANumber => exact absurd rfl h
  | infinity | zero => simp [UnpackedFloat.mul]
  | finite => apply roundWithAccuracy_ne

theorem div_finite_ne : UnpackedFloat.div spec u (.finite s m e hm) ≠ .notANumber := by
  cases u with
  | notANumber => exact absurd rfl h
  | infinity | zero => simp [UnpackedFloat.div]
  | finite => apply roundWithAccuracy_ne

end Finite

theorem ofNat_ne (spec : Format) (n : Nat) : UnpackedFloat.ofNat spec n ≠ .notANumber := by
  rw [UnpackedFloat.ofNat, UnpackedFloat.ofInt]
  fun_cases UnpackedFloat.normalize
  · apply roundWithAccuracy_ne
  · simp
  · apply roundWithAccuracy_ne

theorem ofScientific_ne (spec : Format) (m : Nat) (e : Int) : UnpackedFloat.ofScientific spec m e ≠ .notANumber := by
  fun_cases UnpackedFloat.ofScientific
  · simp
  · simp
  · simp
  · exact mul_finite_ne spec (by simp) _ _ _ _
  · exact div_finite_ne spec (by simp) _ _ _ _

/-- The powers of ten that are represented exactly are finite, and none is zero. -/
theorem exists_powerOfTen_finite (e : Fin 23) :
    ∃ s m k hm, Float.exactlyRepresentablePowersOfTen[e].toModel.unpack = .finite s m k hm := by
  have hpowers : ∀ e : Fin 23, (match Float.exactlyRepresentablePowersOfTen[e].toModel.unpack with
      | .finite .. => true
      | _ => false) = true := by
    decide +kernel
  have he := hpowers e
  split at he
  · next s m k hm heq => exact ⟨s, m, k, hm, heq⟩
  · cases he

theorem isNumber_ofScientific (m : Nat) (s : Bool) (e : Nat) : IsNumber (Float.ofScientific m s e) := by
  unfold Float.ofScientific
  split
  · next h =>
    have hm : IsNumber m.toUInt64.toFloat := isNumber_pack (ofNat_ne _ _)
    obtain ⟨s', m', k, hm', hpower⟩ := exists_powerOfTen_finite ⟨e, by omega⟩
    extract_lets power
    have hfinite : power.toModel.unpack = .finite s' m' k hm' := hpower
    split
    · refine isNumber_pack ?_
      rw [hfinite]
      exact div_finite_ne _ hm s' m' k hm'
    · refine isNumber_pack ?_
      rw [hfinite]
      exact mul_finite_ne _ hm s' m' k hm'
  · exact isNumber_pack (ofScientific_ne _ _ _)

theorem isNumber_neg {x : Float} (h : IsNumber x) : IsNumber (-x) := by
  refine isNumber_pack ?_
  cases hx : x.toModel.unpack with
  | notANumber => exact absurd hx h
  | _ => simp [UnpackedFloat.neg]

/-! ### Words -/

theorem isNumber_ofUnsigned? {cs : List Char} {x : Float} (h : ofUnsigned? cs = some x) : IsNumber x := by
  unfold ofUnsigned? at h
  extract_lets whole at h
  repeat' split at h
  all_goals cases h
  all_goals exact isNumber_ofScientific _ _ _

theorem isNumber_ofDecimal? {cs : List Char} {x : Float} (h : ofDecimal? cs = some x) : IsNumber x := by
  unfold ofDecimal? at h
  split at h
  · exact isNumber_ofUnsigned? h
  · obtain ⟨y, hy, rfl⟩ := Option.map_eq_some_iff.1 h
    exact isNumber_neg (isNumber_ofUnsigned? hy)
  · exact isNumber_ofUnsigned? h

theorem isNumber_ofHexadecimal? {cs : List Char} {x : Float} (h : ofHexadecimal? cs = some x) : IsNumber x := by
  unfold ofHexadecimal? at h
  repeat' split at h
  all_goals cases h
  exact isNumber_ofScientific _ _ _

/-- **No word spells an undefined number.** -/
theorem isNumber_ofWord? {cs : List Char} {x : Float} (h : ofWord? cs = some x) : IsNumber x := by
  rw [ofWord?, Option.or_eq_some_iff] at h
  rcases h with h | ⟨-, h⟩
  · exact isNumber_ofHexadecimal? h
  · exact isNumber_ofDecimal? h

end SubstModel.Number
