import Mathlib
import PrivateQuery.Binary64.Integral

/-!
# What packed doubles denote

A double is packed into three fields, and arithmetic works on doubles that are unpacked from them.
Reading a double and unpacking it agree (`ofUnpacked_unpack`), the significand and the exponent that
are read are canonical (`canonical_read`), and packing a canonical result is read as that result,
or as an infinity where the exponent does not fit (`read_ofModel_pack`).
-/
namespace PrivateQuery.Binary64

open Float.Model (UnpackedFloat Format)
open Float.Model.UnpackedFloat (Sign packComponents)

/-- Whether a sign is the negative one. -/
def isNegative : Sign → Bool
  | .negative => true
  | .positive => false

/-- What an unpacked double denotes. -/
def Reading.ofUnpacked : UnpackedFloat → Reading
  | .notANumber => .nan
  | .infinity s => .infinite (isNegative s)
  | .zero s => .finite (isNegative s) 0 (-1074)
  | .finite s m e _ => .finite (isNegative s) m e

/-- What the fields of a packed double denote. -/
def Reading.ofFields (negative : Bool) (scale fraction : Nat) : Reading :=
  if scale = 2047 then
    if fraction = 0 then .infinite negative else .nan
  else if scale = 0 then .finite negative fraction (-1074)
  else .finite negative (fraction + 2 ^ 52) ((scale : Int) - 1075)

/-- What the bits of a double denote. -/
def Reading.ofBits (n : Nat) : Reading :=
  .ofFields (n / 2 ^ 63 % 2 == 1) (n / 2 ^ 52 % 2 ^ 11) (n % 2 ^ 52)

/-! ## Reading and unpacking -/

theorem read_eq_ofBits (x : Float) : read x = .ofBits x.toBits.toNat := by
  have negative : (x.toBits >>> 63 == 1) = (x.toBits.toNat / 2 ^ 63 % 2 == 1) := by
    have bound := x.toBits.toNat_lt
    rw [Bool.eq_iff_iff, beq_iff_eq, beq_iff_eq, ← UInt64.toNat_inj]
    simp only [UInt64.toNat_shiftRight, Nat.shiftRight_eq_div_pow, UInt64.reduceToNat,
      Nat.reduceMod]
    omega
  have scale : ((x.toBits >>> 52) &&& 0x7FF).toNat = x.toBits.toNat / 2 ^ 52 % 2 ^ 11 := by
    simp only [UInt64.toNat_and, UInt64.toNat_shiftRight, Nat.shiftRight_eq_div_pow,
      UInt64.reduceToNat]
    exact Nat.and_two_pow_sub_one_eq_mod _ 11
  have fraction : (x.toBits &&& 0xFFFFFFFFFFFFF).toNat = x.toBits.toNat % 2 ^ 52 := by
    simp only [UInt64.toNat_and, UInt64.reduceToNat]
    exact Nat.and_two_pow_sub_one_eq_mod _ 52
  simp only [read, Reading.ofBits, Reading.ofFields, negative, scale, fraction, beq_iff_eq]
  rfl

theorem ofUnpacked_unpack (b : BitVec 64) :
    Reading.ofUnpacked (UnpackedFloat.unpack Format.binary64 b) = .ofBits b.toNat := by
  have mantissa : (@UnpackedFloat.unpackMantissa Format.binary64 b).toNat =
      b.toNat % 2 ^ 52 := by
    simp [UnpackedFloat.unpackMantissa, BitVec.extractLsb_toNat]
  have exponent : (@UnpackedFloat.unpackExponent Format.binary64 b).toNat =
      b.toNat / 2 ^ 52 % 2 ^ 11 := by
    simp [UnpackedFloat.unpackExponent, BitVec.extractLsb_toNat, Nat.shiftRight_eq_div_pow]
  have sign : isNegative (Sign.ofBitVec (@UnpackedFloat.unpackSign Format.binary64 b)) =
      (b.toNat / 2 ^ 63 % 2 == 1) := by
    have bit : (@UnpackedFloat.unpackSign Format.binary64 b).toNat =
        b.toNat / 2 ^ 63 % 2 := by
      simp [UnpackedFloat.unpackSign, BitVec.extractLsb_toNat, Nat.shiftRight_eq_div_pow]
    simp only [Sign.ofBitVec, ← BitVec.toNat_inj, bit]
    rcases Nat.mod_two_eq_zero_or_one (b.toNat / 2 ^ 63) with h | h <;> rw [h] <;> rfl
  have full : @UnpackedFloat.unpackExponent Format.binary64 b = -1#_ ↔
      b.toNat / 2 ^ 52 % 2 ^ 11 = 2047 := by
    rw [← BitVec.toNat_inj, exponent]
    rfl
  have empty : @UnpackedFloat.unpackExponent Format.binary64 b = 0#_ ↔
      b.toNat / 2 ^ 52 % 2 ^ 11 = 0 := by
    rw [← BitVec.toNat_inj, exponent]
    rfl
  have round : @UnpackedFloat.unpackMantissa Format.binary64 b = 0#_ ↔
      b.toNat % 2 ^ 52 = 0 := by
    rw [← BitVec.toNat_inj, mantissa]
    rfl
  have implicit : (1#1 ++ @UnpackedFloat.unpackMantissa Format.binary64 b).toNat =
      b.toNat % 2 ^ 52 + 2 ^ 52 := by
    rw [BitVec.toNat_append, mantissa, ← Nat.shiftLeft_add_eq_or_of_lt (Nat.mod_lt _ (by decide))]
    exact Nat.add_comm _ _
  unfold UnpackedFloat.unpack Reading.ofBits Reading.ofFields
  simp only [full, empty, round]
  split_ifs with h1 h2 h3 h4
  · simp only [Reading.ofUnpacked, sign]
  · rfl
  · simp only [Reading.ofUnpacked, sign, h4]
  · simp only [Reading.ofUnpacked, sign, mantissa, exponent, h3]
    rfl
  · simp only [Reading.ofUnpacked, sign, exponent, implicit]
    rfl

theorem read_eq_ofUnpacked (x : Float) : read x = .ofUnpacked x.toModel.unpack := by
  rw [read_eq_ofBits]
  exact (ofUnpacked_unpack _).symm

/-! ## Canonical readings -/

/-- The significand has 53 bits, or less at the least exponent. -/
def Reading.Canonical : Reading → Prop
  | .finite _ significand exponent =>
    significand < 2 ^ 53 ∧ -1074 ≤ exponent ∧ (exponent = -1074 ∨ 2 ^ 52 ≤ significand)
  | _ => True

/-- The exponent can be packed. -/
def Reading.Bounded : Reading → Prop
  | .finite _ _ exponent => exponent ≤ 971
  | _ => True

theorem canonical_ofBits (n : Nat) : (Reading.ofBits n).Canonical ∧ (Reading.ofBits n).Bounded := by
  unfold Reading.ofBits Reading.ofFields
  have fraction := Nat.mod_lt n (show 2 ^ 52 > 0 by decide)
  have scale := Nat.mod_lt (n / 2 ^ 52) (show 2 ^ 11 > 0 by decide)
  split_ifs with full round empty
  · exact ⟨trivial, trivial⟩
  · exact ⟨trivial, trivial⟩
  · exact ⟨⟨by omega, le_rfl, .inl rfl⟩, by simp [Reading.Bounded]⟩
  · refine ⟨⟨by omega, by omega, .inr (by omega)⟩, ?_⟩
    simp only [Reading.Bounded]
    omega

theorem canonical_read (x : Float) : (read x).Canonical := by
  rw [read_eq_ofBits]
  exact (canonical_ofBits _).1

theorem bounded_read (x : Float) : (read x).Bounded := by
  rw [read_eq_ofBits]
  exact (canonical_ofBits _).2

/-! ## Packing -/

/-- A reading whose exponent cannot be packed becomes an infinity. -/
def Reading.packed : Reading → Reading
  | .finite negative significand exponent =>
    if 972 ≤ exponent then .infinite negative else .finite negative significand exponent
  | r => r

theorem packed_of_bounded {r : Reading} (h : r.Bounded) : r.packed = r := by
  cases r with
  | finite negative significand exponent =>
    simp only [Reading.Bounded] at h
    rw [Reading.packed, if_neg (by omega)]
  | _ => rfl

theorem ofBits_of_fields (bit scale fraction : Nat) (hb : bit < 2) (hs : scale < 2 ^ 11)
    (hf : fraction < 2 ^ 52) :
    Reading.ofBits (bit * 2 ^ 63 + scale * 2 ^ 52 + fraction) =
      .ofFields (bit == 1) scale fraction := by
  have h1 : (bit * 2 ^ 63 + scale * 2 ^ 52 + fraction) / 2 ^ 63 % 2 = bit := by omega
  have h2 : (bit * 2 ^ 63 + scale * 2 ^ 52 + fraction) / 2 ^ 52 % 2 ^ 11 = scale := by omega
  have h3 : (bit * 2 ^ 63 + scale * 2 ^ 52 + fraction) % 2 ^ 52 = fraction := by omega
  rw [Reading.ofBits, h1, h2, h3]

theorem ofBits_packComponents (s : Sign) (scale : BitVec 11) (fraction : BitVec 52) :
    Reading.ofBits (packComponents Format.binary64 s scale fraction).toNat =
      .ofFields (isNegative s) scale.toNat fraction.toNat := by
  have bits : (packComponents Format.binary64 s scale fraction).toNat =
      s.toBitVec.toNat * 2 ^ 63 + scale.toNat * 2 ^ 52 + fraction.toNat := by
    rw [packComponents, BitVec.toNat_append, BitVec.toNat_append,
      ← Nat.shiftLeft_add_eq_or_of_lt fraction.isLt, ← Nat.shiftLeft_add_eq_or_of_lt scale.isLt,
      Nat.shiftLeft_eq, Nat.shiftLeft_eq]
    omega
  rw [bits, ofBits_of_fields _ _ _ s.toBitVec.isLt scale.isLt fraction.isLt]
  cases s <;> rfl

/-- A canonical result is packed as what it denotes, if its exponent fits. -/
theorem ofBits_pack {u : UnpackedFloat} (canonical : (Reading.ofUnpacked u).Canonical) :
    Reading.ofBits (UnpackedFloat.pack Format.binary64 u).toNat =
      (Reading.ofUnpacked u).packed := by
  cases u with
  | notANumber => rfl
  | infinity s => exact ofBits_packComponents s _ _
  | zero s => exact ofBits_packComponents s _ _
  | finite s m e positive =>
    obtain ⟨small, least, normal⟩ := canonical
    simp only [UnpackedFloat.pack, Reading.ofUnpacked, Reading.packed]
    have biased : e + (Format.binary64.exponentBias : Int) +
        (Format.binary64.mantissaBitsWithoutImplicit : Int) = e + 1075 := by
      simp [Format.exponentBias]
      omega
    rw [biased]
    by_cases large : 972 ≤ e
    · rw [if_pos (by simp only [Nat.reducePow]; omega), if_pos large]
      exact ofBits_packComponents s _ _
    · rw [if_neg (by simp only [Nat.reducePow]; omega), if_neg large]
      by_cases full : 2 ^ 52 ≤ m
      · have log : m.log2 = 52 := (Nat.log2_eq_iff positive.ne').2 ⟨full, small⟩
        rw [if_pos (by simp [log, Format.mantissaBits]), ofBits_packComponents, Reading.ofFields]
        have scale : (BitVec.ofNat 11 (e + 1075).toNat).toNat = (e + 1075).toNat := by
          rw [BitVec.toNat_ofNat]
          omega
        have fraction : (BitVec.ofNat 52 m).toNat = m - 2 ^ 52 := by
          rw [BitVec.toNat_ofNat]
          omega
        rw [scale, fraction, if_neg (by omega), if_neg (by omega)]
        congr 1 <;> omega
      · obtain rfl : e = -1074 := normal.resolve_right full
        have log : m.log2 ≠ 52 := fun h => full ((Nat.log2_eq_iff positive.ne').1 h).1
        rw [if_neg (by simp [log, Format.mantissaBits]), ofBits_packComponents,
          Reading.ofFields]
        have fraction : (BitVec.ofNat 52 m).toNat = m := by
          rw [BitVec.toNat_ofNat]
          omega
        rw [fraction]
        rfl

/-- **`read_ofModel_pack`**: a canonical result is read back as what it denotes, if its exponent
fits. -/
theorem read_ofModel_pack {u : UnpackedFloat} (canonical : (Reading.ofUnpacked u).Canonical) :
    read (.ofModel (.pack u)) = (Reading.ofUnpacked u).packed := by
  rw [read_eq_ofBits]
  exact ofBits_pack canonical

/-- Making a double of bits keeps what the bits denote. -/
theorem read_ofBits (bits : UInt64) : read (Float.ofBits bits) = .ofBits bits.toNat := by
  have unpacked := ofUnpacked_unpack bits.toBitVec
  have whole := canonical_ofBits bits.toBitVec.toNat
  rw [← unpacked] at whole
  have := read_ofModel_pack whole.1
  rw [packed_of_bounded whole.2, unpacked] at this
  exact this

end PrivateQuery.Binary64
