import Mathlib
import PagePrep.Gray.Unsharp
import PagePrep.Proofs.Gray.BoxFilter
import PagePrep.Proofs.Number.Truncation

-- A sharpened sample is never moved towards the mean of its surroundings. Half a level is added to
-- it and what is behind the point is cut off, so a sample that is the mean stays as it is.

namespace PagePrep

open Layout Float.Model

section Sharpening

variable {fract p : Float32} {sample blurred : UInt8} {n : Nat} {z : Int} {r : ℝ}

theorem holds_intCast (hz : z.natAbs < 2 ^ 24) : single.Holds ((z : ℝ) : EReal) := by
  obtain ⟨n, rfl | rfl⟩ := z.eq_nat_or_neg
  case inl => exact_mod_cast describes_single.holds_natCast hz
  case inr =>
    rw [Int.natAbs_neg] at hz
    rw [Int.cast_neg, EReal.coe_neg]
    exact_mod_cast (describes_single.holds_natCast hz).neg

theorem rounds_toFloat32 (v : UInt8) :
    single.Rounds ((v.toNat : ℝ) : EReal) v.toFloat32.toModel.unpack :=
  describes_single.rounds_ofNat v.toNat

theorem value_toFloat32 (v : UInt8) :
    value v.toFloat32.toModel.unpack = (((v.toNat : Int) : ℝ) : EReal) := by
  have hv := describes_single.value_eq_of_holds (rounds_toFloat32 v)
    (describes_single.holds_natCast (Nat.lt_trans v.toNat_lt (by decide)))
  exact_mod_cast hv

theorem value_half : value (0.5 : Float32).toModel.unpack = ((1 / 2 : ℝ) : EReal) := by
  have hhalf : (0.5 : Float32).toModel.unpack = .finite .positive (2 ^ 23) (-24) (by decide) := rfl
  rw [hhalf, value, UnpackedFloat.Sign.apply]
  norm_num

theorem isNumber_half : single.IsNumber (0.5 : Float32).toModel.unpack :=
  describes_single.isNumber_unpack fun h => nomatch h

-- How far a sample is from the mean of its surroundings.
def offset (sample blurred : UInt8) : Int :=
  sample.toNat - blurred.toNat

theorem rounds_offset : single.Rounds ((offset sample blurred : ℝ) : EReal)
    (sample.toFloat32 - blurred.toFloat32).toModel.unpack := by
  have hs := value_toFloat32 sample
  have hb := value_toFloat32 blurred
  have hd := describes_single.rounds_sub (rounds_toFloat32 sample).isNumber
    (rounds_toFloat32 blurred).isNumber (.inl (hs ▸ EReal.coe_ne_bot _))
    (.inl (hs ▸ EReal.coe_ne_top _))
  rw [hs, hb, ← EReal.coe_sub, ← Int.cast_sub] at hd
  exact hd

theorem value_offset : value (sample.toFloat32 - blurred.toFloat32).toModel.unpack =
    ((offset sample blurred : ℝ) : EReal) := by
  have hs := sample.toNat_lt
  have hb := blurred.toNat_lt
  exact describes_single.value_eq_of_holds rounds_offset (holds_intCast (by rw [offset]; omega))

-- The product may be too large for a number that is not infinite.
theorem rounds_mul_offset (h : fract.isFinite) (hr : value fract.toModel.unpack = (r : EReal)) :
    single.Rounds ((r * offset sample blurred : ℝ) : EReal)
      (fract * (sample.toFloat32 - blurred.toFloat32)).toModel.unpack := by
  have hd := @value_offset sample blurred
  have hm := describes_single.rounds_mul (isNumber_of_isFinite h)
    (@rounds_offset sample blurred).isNumber
    (fun _ => hd ▸ ⟨EReal.coe_ne_top _, EReal.coe_ne_bot _⟩)
    (fun _ => hr ▸ ⟨EReal.coe_ne_top _, EReal.coe_ne_bot _⟩)
  rw [hd, hr, ← EReal.coe_mul] at hm
  exact hm

-- A sample that is moved and rounded.
def moved (sample : UInt8) (p : Float32) : UInt8 :=
  (sample.toFloat32 + p + 0.5).toUInt8

theorem rounds_sample_add (hp : single.IsNumber p.toModel.unpack) :
    single.Rounds (((sample.toNat : Int) : ℝ) + value p.toModel.unpack)
      (sample.toFloat32 + p).toModel.unpack := by
  have hs := value_toFloat32 sample
  have ha := describes_single.rounds_add (rounds_toFloat32 sample).isNumber hp
    (.inl (hs ▸ EReal.coe_ne_bot _)) (.inl (hs ▸ EReal.coe_ne_top _))
  rw [hs] at ha
  exact ha

theorem rounds_add_half (hp : single.IsNumber p.toModel.unpack) :
    single.Rounds (value p.toModel.unpack + ((1 / 2 : ℝ) : EReal)) (p + 0.5).toModel.unpack := by
  have ha := describes_single.rounds_add hp isNumber_half
    (.inr (value_half ▸ EReal.coe_ne_top _)) (.inr (value_half ▸ EReal.coe_ne_bot _))
  rw [value_half] at ha
  exact ha

theorem le_moved (hp : single.IsNumber p.toModel.unpack)
    (hz : ((z : ℝ) : EReal) ≤ value p.toModel.unpack) (hn : n ≤ sample.toNat + z)
    (hlt : n < UInt8.size) : n ≤ (moved sample p).toNat := by
  have hholds := describes_single.holds_natCast (Nat.lt_trans hlt (by decide))
  have hsum := @rounds_sample_add p sample hp
  have hhalf := rounds_add_half hsum.isNumber
  have hle : ((n : ℝ) : EReal) ≤ ((sample.toNat : Int) : ℝ) + value p.toModel.unpack := by
    refine le_trans ?_ (add_le_add_right hz _)
    rw [← EReal.coe_add, EReal.coe_le_coe_iff]
    exact_mod_cast hn
  have hle := describes_single.le_value_of_holds hsum hholds hle
  have hle : ((n : ℝ) : EReal) ≤
      value (sample.toFloat32 + p).toModel.unpack + ((1 / 2 : ℝ) : EReal) :=
    le_add_of_le_of_nonneg hle (EReal.coe_nonneg.mpr (by norm_num))
  exact Truncation.le_toNat_toUInt8 hhalf.isNumber
    (describes_single.le_value_of_holds hhalf hholds hle) hlt

theorem moved_le (hp : single.IsNumber p.toModel.unpack)
    (hz : value p.toModel.unpack ≤ ((z : ℝ) : EReal)) (hn : sample.toNat + z ≤ n)
    (hlt : n < UInt8.size) : (moved sample p).toNat ≤ n := by
  have hholds := describes_single.holds_natCast (Nat.lt_trans hlt (by decide))
  have hholds' : single.Holds ((n + 1 / 2 : ℝ) : EReal) := by
    have hh := @Describes.holds_div_two_pow _ _ describes_single (2 * n + 1) 1
      (Nat.lt_trans (by omega : 2 * n + 1 < 2 * UInt8.size) (by decide)) (by decide)
    have he : ((2 * n + 1 : Nat) / 2 ^ 1 : ℝ) = n + 1 / 2 := by
      push_cast
      ring
    rwa [he] at hh
  have hsum := @rounds_sample_add p sample hp
  have hhalf := rounds_add_half hsum.isNumber
  have hle : ((sample.toNat : Int) : ℝ) + value p.toModel.unpack ≤ ((n : ℝ) : EReal) := by
    refine le_trans (add_le_add_right hz _) ?_
    rw [← EReal.coe_add, EReal.coe_le_coe_iff]
    exact_mod_cast hn
  have hle := add_le_add_left (describes_single.value_le_of_holds hsum hholds hle)
    ((1 / 2 : ℝ) : EReal)
  rw [← EReal.coe_add] at hle
  have hle := describes_single.value_le_of_holds hhalf hholds' hle
  refine Truncation.toNat_toUInt8_le hhalf.isNumber (lt_of_le_of_lt hle ?_)
  rw [EReal.coe_lt_coe_iff]
  linarith

-- The number is cut down to a word with a sign, of which a byte is made that does not wrap.
theorem toNat_sharpen : (GrayImage.sharpen fract sample blurred).toNat =
    (max 0 (min 255 (sample.toFloat32 + fract * (sample.toFloat32 - blurred.toFloat32) +
      0.5).toModel.toInt32.toInt)).toNat :=
  Truncation.toNat_toUInt8_eq _

section Finite

variable (h : fract.isFinite) (hr : value fract.toModel.unpack = (r : EReal))
include h hr

theorem le_sharpen (hz : z.natAbs < 2 ^ 24) (hle : z ≤ r * offset sample blurred)
    (hn : n ≤ sample.toNat + z) (hlt : n < UInt8.size) :
    n ≤ (GrayImage.sharpen fract sample blurred).toNat :=
  have hm := rounds_mul_offset h hr
  le_moved hm.isNumber
    (describes_single.le_value_of_holds hm (holds_intCast hz) (EReal.coe_le_coe hle)) hn hlt

theorem sharpen_le (hz : z.natAbs < 2 ^ 24) (hle : r * offset sample blurred ≤ z)
    (hn : sample.toNat + z ≤ n) (hlt : n < UInt8.size) :
    (GrayImage.sharpen fract sample blurred).toNat ≤ n :=
  have hm := rounds_mul_offset h hr
  moved_le hm.isNumber
    (describes_single.value_le_of_holds hm (holds_intCast hz) (EReal.coe_le_coe hle)) hn hlt

theorem le_sharpen_of_le (hpos : 0 ≤ r) (hle : blurred ≤ sample) :
    sample ≤ GrayImage.sharpen fract sample blurred := by
  have hoffset : 0 ≤ offset sample blurred :=
    Int.sub_nonneg_of_le (Int.ofNat_le.mpr (UInt8.le_iff_toNat_le.mp hle))
  have hmul : ((0 : Int) : ℝ) ≤ r * offset sample blurred := by
    rw [Int.cast_zero]
    exact mul_nonneg hpos (Int.cast_nonneg hoffset)
  exact UInt8.le_iff_toNat_le.mpr (le_sharpen h hr (by decide) hmul (by omega) sample.toNat_lt)

theorem sharpen_le_of_le (hpos : 0 ≤ r) (hle : sample ≤ blurred) :
    GrayImage.sharpen fract sample blurred ≤ sample := by
  have hoffset : offset sample blurred ≤ 0 :=
    Int.sub_nonpos_of_le (Int.ofNat_le.mpr (UInt8.le_iff_toNat_le.mp hle))
  have hmul : r * offset sample blurred ≤ ((0 : Int) : ℝ) := by
    rw [Int.cast_zero]
    exact mul_nonpos_of_nonneg_of_nonpos hpos (Int.cast_nonpos.mpr hoffset)
  exact UInt8.le_iff_toNat_le.mpr (sharpen_le h hr (by decide) hmul (by omega) sample.toNat_lt)

-- A large fraction makes white of what is lighter, and black of what is darker.
theorem sharpen_eq_white (hlarge : 255 ≤ r) (hlt : blurred < sample) :
    GrayImage.sharpen fract sample blurred = 255 := by
  have hoffset : 1 ≤ offset sample blurred := by
    have hlt := UInt8.lt_iff_toNat_lt.mp hlt
    rw [offset]
    omega
  have hmul : ((255 : Int) : ℝ) ≤ r * offset sample blurred := by
    have hone : (1 : ℝ) ≤ offset sample blurred := by exact_mod_cast hoffset
    rw [Int.cast_ofNat]
    nlinarith
  have hle : 255 ≤ (GrayImage.sharpen fract sample blurred).toNat :=
    le_sharpen h hr (by decide) hmul (by omega) (by decide)
  exact UInt8.toNat_inj.mp (Nat.le_antisymm (Nat.le_of_lt_succ (UInt8.toNat_lt _)) hle)

theorem sharpen_eq_black (hlarge : 255 ≤ r) (hlt : sample < blurred) :
    GrayImage.sharpen fract sample blurred = 0 := by
  have hlt := UInt8.lt_iff_toNat_lt.mp hlt
  have hoffset : offset sample blurred ≤ -1 := by
    rw [offset]
    omega
  have hmul : r * offset sample blurred ≤ ((-255 : Int) : ℝ) := by
    have hone : (offset sample blurred : ℝ) ≤ -1 := by exact_mod_cast hoffset
    push_cast
    nlinarith
  have hsample := sample.toNat_lt
  have hle : (GrayImage.sharpen fract sample blurred).toNat ≤ 0 :=
    sharpen_le h hr (by decide) hmul (by omega) (by decide)
  exact UInt8.toNat_inj.mp (Nat.le_zero.mp hle)

end Finite

end Sharpening

-- What becomes of a sample whose surroundings have a mean.
structure MovesAway (fract : Float32) (mean sample result : UInt8) : Prop where
  notDarker  : mean ≤ sample → sample ≤ result
  notLighter : sample ≤ mean → result ≤ sample
  white      : 255 ≤ fract → mean < sample → result = 255
  black      : 255 ≤ fract → sample < mean → result = 0

theorem MovesAway.eq_of_mean_eq {fract : Float32} {mean sample result : UInt8}
    (h : MovesAway fract mean sample result) (he : mean = sample) : result = sample :=
  UInt8.le_antisymm (h.notLighter (he ▸ UInt8.le_refl _)) (h.notDarker (he ▸ UInt8.le_refl _))

namespace GrayImage

variable {image : GrayImage} {halfwidth x y : UInt32} {fract : Float32} {v mean : UInt8}

theorem value_255 : value (255 : Float32).toModel.unpack = ((255 : ℝ) : EReal) := by
  have h255 : (255 : Float32).toModel.unpack = .finite .positive (255 * 2 ^ 16) (-16) (by decide) :=
    rfl
  rw [h255, value, UnpackedFloat.Sign.apply]
  norm_num

theorem movesAway_sharpen (h : fract.isFinite) (hpos : ¬fract ≤ 0) :
    MovesAway fract mean v (sharpen fract v mean) := by
  obtain ⟨r, hr⟩ := exists_value_eq_of_isFinite h
  have hpos : 0 ≤ r := by
    by_contra hneg
    refine hpos ((single_le_iff_value_le (isNumber_of_isFinite h) single_isNumber_zero).mpr ?_)
    rw [hr]
    exact EReal.coe_nonpos.mpr (le_of_not_ge hneg)
  have hlarge (hle : 255 ≤ fract) : 255 ≤ r := by
    have hle := value_le_of_single_le hle
    rwa [value_255, hr, EReal.coe_le_coe_iff] at hle
  constructor
  case notDarker  => exact le_sharpen_of_le h hr hpos
  case notLighter => exact sharpen_le_of_le h hr hpos
  case white      => exact fun hle => sharpen_eq_white h hr (hlarge hle)
  case black      => exact fun hle => sharpen_eq_black h hr (hlarge hle)

-- The mean of a window of one value is that value.
theorem boxFilter_of_const
    (hc : ∀ a b, Near halfwidth a x → Near halfwidth b y → ∀ u ∈ image.get? a b, u = v)
    (hb : (image.boxFilter halfwidth halfwidth).get? x y = some mean) : mean = v := by
  have hbetween : v ≤ mean ∧ mean ≤ v := by
    refine boxFilter_between (fun a b ha hb u hu => ?_) mean hb
    exact hc a b ha hb u hu ▸ ⟨UInt8.le_refl _, UInt8.le_refl _⟩
  exact UInt8.le_antisymm hbetween.right hbetween.left

theorem exists_get?_boxFilter (h : image.Contains x y) :
    ∃ mean, (image.boxFilter halfwidth halfwidth).get? x y = some mean :=
  Option.isSome_iff_exists.mp (Grid.isSome_get?_iff.mpr h)

theorem not_le_zero_of_large (h : 255 ≤ fract) : ¬fract ≤ 0 := by
  intro hle
  have hle := (value_le_of_single_le h).trans (value_le_of_single_le hle)
  rw [value_255] at hle
  exact absurd (EReal.coe_nonpos.mp hle) (by norm_num)

-- Without a neighbourhood, or without a fraction, nothing is moved.
theorem movesAway_self (hmask : halfwidth = 0 ∨ fract ≤ 0) (hv : image.get? x y = some v)
    (hmean : (image.boxFilter halfwidth halfwidth).get? x y = some mean) :
    MovesAway fract mean v v := by
  have hsame (hlarge : 255 ≤ fract) : mean = v := by
    have hz := hmask.resolve_right (not_le_zero_of_large hlarge)
    subst hz
    refine boxFilter_of_const (fun a b ha hb u hu => ?_) hmean
    have ha : a = x := UInt32.toNat_inj.mp (Nat.le_antisymm ha.left ha.right)
    have hb : b = y := UInt32.toNat_inj.mp (Nat.le_antisymm hb.left hb.right)
    exact Option.some.inj ((ha ▸ hb ▸ hu : image.get? x y = some u).symm.trans hv)
  constructor
  case notDarker  => exact fun _ => UInt8.le_refl v
  case notLighter => exact fun _ => UInt8.le_refl v
  case white      => exact fun hlarge hlt => absurd (hsame hlarge ▸ hlt) (UInt8.lt_irrefl v)
  case black      => exact fun hlarge hlt => absurd (hsame hlarge ▸ hlt) (UInt8.lt_irrefl v)

-- Each pixel of a picture is moved away from the mean of its neighbourhood, and stays as it is if
-- that is of one value.
theorem unsharpMask_movesAway (image : GrayImage) (halfwidth : UInt32) (h : fract.isFinite) :
    ∃ out, image.unsharpMask halfwidth fract = .ok out ∧ out.width = image.width ∧
      out.height = image.height ∧ ∀ x y, ∀ v ∈ image.get? x y,
        ∃ mean ∈ (image.boxFilter halfwidth halfwidth).get? x y, ∃ o ∈ out.get? x y,
          MovesAway fract mean v o ∧
          ((∀ a b, Near halfwidth a x → Near halfwidth b y → ∀ u ∈ image.get? a b, u = v) →
            o = v) := by
  have hfinite : ¬(!fract.isFinite) = true := by rw [h]; decide
  rw [unsharpMask, if_neg hfinite]
  by_cases hmask : halfwidth = 0 ∨ fract ≤ 0
  case pos =>
    rw [if_pos hmask]
    refine ⟨image, rfl, rfl, rfl, fun x y v hv => ?_⟩
    obtain ⟨mean, hmean⟩ :=
      exists_get?_boxFilter (Grid.isSome_get?_iff.mp (Option.isSome_of_mem hv))
    exact ⟨mean, hmean, v, hv, movesAway_self hmask hv hmean, fun _ => rfl⟩
  case neg =>
    rw [if_neg hmask]
    refine ⟨_, rfl, rfl, rfl, fun x y v hv => ?_⟩
    have hc : image.Contains x y := Grid.isSome_get?_iff.mp (Option.isSome_of_mem hv)
    have hin : x < image.width ∧ y < image.height := hc
    obtain ⟨mean, hmean⟩ := @exists_get?_boxFilter image halfwidth x y hc
    have hsample : image.get x y hc = v :=
      Option.some.inj ((Grid.get?_eq_some_get hc).symm.trans hv)
    have haway := @movesAway_sharpen fract v mean h fun hle => hmask (.inr hle)
    refine ⟨mean, hmean, _, ?_, haway, fun hwindow => ?_⟩
    case refine_1 =>
      rw [Option.mem_def, Grid.get?_ofFn, dif_pos hin, hsample, Grid.getD, hmean, Option.getD_some]
    case refine_2 => exact haway.eq_of_mean_eq (boxFilter_of_const hwindow hmean)

def edgePicture : GrayImage :=
  ⟨2, 1, #[100, 150], rfl⟩

theorem unsharpMask_movesAway_edgePicture :
    ∃ out, edgePicture.unsharpMask 1 300 = .ok out ∧ out.get? 0 0 = some 0 ∧
      out.get? 1 0 = some 255 := by
  have hdark : (edgePicture.boxFilter 1 1).get? 0 0 = some 116 := by decide +kernel
  have hlight : (edgePicture.boxFilter 1 1).get? 1 0 = some 133 := by decide +kernel
  have hfinite : (300 : Float32).isFinite := by decide +kernel
  have hlarge : (255 : Float32) ≤ 300 := by decide +kernel
  obtain ⟨out, hok, -, -, hout⟩ := unsharpMask_movesAway edgePicture 1 hfinite
  refine ⟨out, hok, ?_, ?_⟩
  case refine_1 =>
    obtain ⟨mean, hmean, o, ho, haway, -⟩ := hout 0 0 100 (by decide +kernel)
    cases hdark.symm.trans hmean
    rw [ho, haway.black hlarge (by decide)]
  case refine_2 =>
    obtain ⟨mean, hmean, o, ho, haway, -⟩ := hout 1 0 150 (by decide +kernel)
    cases hlight.symm.trans hmean
    rw [ho, haway.white hlarge (by decide)]

end GrayImage

end PagePrep
