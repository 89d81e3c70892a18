import Reputation.Store.Cell
import Reputation.Trust
/-!
Sums of weights. A weight that counts is not negative, so adding weights up from zero never gives a
negative zero or a float that is not a number, and a column of floats holds the sum as it is.
-/
namespace Reputation

open Float.Model (UnpackedFloat Format)
open Float.Model.UnpackedFloat (Sign packComponents unpackSign unpackExponent unpackMantissa
  unpackExponent_packComponents unpackMantissa_packComponents)

/-- Zero, finite or infinite, and without a minus sign. -/
inductive Upright : UnpackedFloat → Prop where
  | infinity : Upright (.infinity .positive)
  | zero : Upright (.zero .positive)
  | finite (m : Nat) (e : Int) (hm : 0 < m) : Upright (.finite .positive m e hm)

theorem upright_dite {p : Prop} [Decidable p] {x : p → UnpackedFloat} {y : ¬p → UnpackedFloat}
    (hx : ∀ h, Upright (x h)) (hy : ∀ h, Upright (y h)) : Upright (dite p x y) := by
  by_cases h : p
  · rw [dif_pos h]
    exact hx h
  · rw [dif_neg h]
    exact hy h

theorem upright_round (mantissa : Nat) (exponent : Int) :
    Upright (UnpackedFloat.round Format.binary64 .positive mantissa exponent) :=
  upright_dite (fun _ => .zero) fun _ => .finite _ _ _

theorem upright_normalize {mantissa : Int} (h : 0 ≤ mantissa) (exponent : Int) :
    Upright (UnpackedFloat.normalize Format.binary64 mantissa exponent .positive) := by
  unfold UnpackedFloat.normalize
  split
  · rename_i hlt
    have hnegative := Int.compare_eq_lt.mp hlt
    omega
  · exact .zero
  · exact upright_round _ _

/-- A negative zero is the only number with a minus sign that may be added. -/
theorem Upright.add {x y : UnpackedFloat} (hx : Upright x)
    (hy : Upright y ∨ y = .zero .negative) :
    Upright (UnpackedFloat.add Format.binary64 x y) := by
  rcases hy with hy | rfl
  · cases hx with
    | infinity => cases hy <;> exact .infinity
    | zero => cases hy <;> first | exact .infinity | exact .zero | exact .finite _ _ _
    | finite m e hm =>
      cases hy with
      | infinity => exact .infinity
      | zero => exact .finite m e hm
      | finite m' e' hm' =>
        apply upright_normalize
        exact Int.add_nonneg (Int.natCast_nonneg _) (Int.natCast_nonneg _)
  · cases hx <;> first | exact .infinity | exact .zero | exact .finite _ _ _

theorem unpackSign_positive {spec : Format} (exponent : BitVec spec.exponentBits)
    (mantissa : BitVec spec.mantissaBitsWithoutImplicit) :
    unpackSign (packComponents spec .positive exponent mantissa) = 0#1 := by
  change BitVec.cast _ (BitVec.extractLsb _ _ (0#1 ++ exponent ++ mantissa)) = _
  ext i hi
  obtain rfl : i = 0 := by omega
  simp [BitVec.getLsbD_append, BitVec.getElem_append]

theorem upright_unpack {exponent : BitVec Format.binary64.exponentBits}
    {mantissa : BitVec Format.binary64.mantissaBitsWithoutImplicit}
    (h : exponent = (-1#_) → mantissa = 0#_) :
    Upright (UnpackedFloat.unpack Format.binary64
      (packComponents Format.binary64 .positive exponent mantissa)) := by
  have hsign : Sign.ofBitVec (unpackSign
      (packComponents Format.binary64 .positive exponent mantissa)) = .positive := by
    rw [unpackSign_positive]
    rfl
  refine iteInduction (motive := Upright) ?_ ?_
  · intro hones
    rw [unpackExponent_packComponents] at hones
    rw [hsign, if_pos (unpackMantissa_packComponents.trans (h hones))]
    exact .infinity
  · intro _
    rw [hsign]
    refine iteInduction (motive := Upright) ?_ fun _ => .finite _ _ _
    exact fun _ => upright_dite (fun _ => .zero) fun _ => .finite _ _ _

theorem Upright.unpack_pack {x : UnpackedFloat} (h : Upright x) :
    Upright (Float.Model.pack x).unpack := by
  change Upright (UnpackedFloat.unpack _ (UnpackedFloat.pack Format.binary64 x))
  cases h with
  | infinity => exact upright_unpack fun _ => rfl
  | zero => exact upright_unpack fun _ => rfl
  | finite m e hm =>
    unfold UnpackedFloat.pack
    dsimp only
    split
    · exact upright_unpack fun _ => rfl
    · rename_i hfits
      split
      · apply upright_unpack
        intro hones
        -- The exponent would have been too great to be packed.
        have hexponent := congrArg BitVec.toNat hones
        rw [BitVec.toNat_ofNat, Nat.mod_eq_of_lt (by omega)] at hexponent
        rw [hexponent] at hfits
        exact absurd (by decide) hfits
      · exact upright_unpack fun hones => nomatch hones

theorem Upright.isNaN_eq_false {x : Float} (h : Upright x.toModel.unpack) : x.isNaN = false := by
  change x.toModel.unpack.isNaN = false
  generalize x.toModel.unpack = u at h
  cases h <;> rfl

/-- Zero has neither a sign nor any other bit. -/
theorem fields_of_zero {b : BitVec Format.binary64.numBits}
    (h : UnpackedFloat.unpack Format.binary64 b = .zero .positive) :
    unpackSign b = 0#1 ∧ unpackExponent b = 0#_ ∧ unpackMantissa b = 0#_ := by
  unfold UnpackedFloat.unpack at h
  dsimp only at h
  by_cases hones : unpackExponent b = (-1#_)
  · rw [if_pos hones] at h
    by_cases hzero : unpackMantissa b = 0#_
    · rw [if_pos hzero] at h
      cases h
    · rw [if_neg hzero] at h
      cases h
  rw [if_neg hones] at h
  by_cases hexponent : unpackExponent b = 0#_
  · rw [if_pos hexponent] at h
    by_cases hmantissa : unpackMantissa b = 0#_
    · rw [dif_pos hmantissa] at h
      refine ⟨Decidable.byContradiction fun hne => ?_, hexponent, hmantissa⟩
      have hpositive : (if _ = 0#1 then Sign.positive else .negative) = .positive :=
        UnpackedFloat.zero.inj h
      rw [if_neg hne] at hpositive
      cases hpositive
    · rw [dif_neg hmantissa] at h
      cases h
  · rw [if_neg hexponent] at h
    cases h

theorem bits_eq_zero {b : BitVec 64}
    (h : UnpackedFloat.unpack Format.binary64 b = .zero .positive) : b = 0#64 := by
  obtain ⟨hsign, hexponent, hmantissa⟩ := fields_of_zero h
  replace hsign : b.toNat >>> 63 % 2 ^ 1 = 0 := congrArg BitVec.toNat hsign
  replace hexponent : b.toNat >>> 52 % 2 ^ 11 = 0 := congrArg BitVec.toNat hexponent
  replace hmantissa : b.toNat >>> 0 % 2 ^ 52 = 0 := congrArg BitVec.toNat hmantissa
  bv_omega

theorem Upright.eq_zero {x : Float} (h : Upright x.toModel.unpack) (hzero : (x == 0.0) = true) :
    x = 0.0 := by
  have hunpacked : x.toModel.unpack = .zero .positive := by
    replace hzero : x.toModel.unpack.beq (.zero .positive) = true := hzero
    generalize x.toModel.unpack = u at h hzero
    cases h with
    | zero => rfl
    | infinity => cases hzero
    | finite m e hm => cases hzero
  have hbits := bits_eq_zero hunpacked
  rcases x with ⟨⟨bits, hvalid⟩⟩
  obtain rfl : bits = 0 := UInt64.toBitVec_inj.mp hbits
  rfl

theorem storedReal_of_upright {x : Float} (h : Upright x.toModel.unpack) :
    Store.storedReal x = some x := by
  unfold Store.storedReal
  rw [h.isNaN_eq_false]
  by_cases hzero : (x == 0.0) = true
  · simp [h.eq_zero hzero]
  · simp [hzero]

theorem usableWeight_upright (w : Float) : Upright (usableWeight w).toModel.unpack ∨
    (usableWeight w).toModel.unpack = .zero .negative := by
  unfold usableWeight
  split
  · rename_i husable
    obtain ⟨hfinite, hle⟩ := Bool.and_eq_true_iff.mp husable
    replace hfinite : w.toModel.unpack.isFinite = true := hfinite
    replace hle : (UnpackedFloat.zero .positive).le w.toModel.unpack = true :=
      of_decide_eq_true (of_decide_eq_true hle)
    generalize w.toModel.unpack = u at hfinite hle
    cases u with
    | infinity sign => cases hfinite
    | notANumber => cases hfinite
    | zero sign =>
      cases sign with
      | negative => exact .inr rfl
      | positive => exact .inl .zero
    | finite sign m e hm =>
      cases sign with
      | negative => cases hle
      | positive => exact .inl (.finite m e hm)
  · exact .inl .zero

theorem upright_foldl_usableWeight {α : Type} (weight : α → Float) (xs : List α) {sum : Float}
    (hsum : Upright sum.toModel.unpack) :
    Upright ((xs.map fun x => usableWeight (weight x)).foldl (· + ·) sum).toModel.unpack := by
  induction xs generalizing sum with
  | nil => exact hsum
  | cons x xs ih => exact ih (hsum.add (usableWeight_upright (weight x))).unpack_pack

end Reputation
