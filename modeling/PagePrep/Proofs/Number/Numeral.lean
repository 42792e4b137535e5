import Mathlib
import PagePrep.Number.Text
import PagePrep.Text.Value
import PagePrep.Proofs.Number.Shortest

-- The text of a number is made of digits, a point with more digits, and an exponent. These say what
-- the digits say that the number was written from.

namespace PagePrep

open Scan

section DecimalValue

variable {n k : Nat} {c : Char} {ds : List Char}

theorem value_of_isDigit (h : c.isDigit) : digitsValue.value c = c.toNat - '0'.toNat :=
  if_pos h

theorem decimalValue_append_zeros :
    decimalValue (ds ++ List.replicate k '0') = decimalValue ds * 10 ^ k := by
  induction k
  case zero => simp
  case succ k ih =>
    rw [List.replicate_succ', ← List.append_assoc, decimalValue, digitsValue, List.foldl_concat,
      ← digitsValue, ← decimalValue, ih, pow_succ, ← Nat.mul_assoc]
    rfl

theorem decimalValue_zeros_append :
    decimalValue (List.replicate k '0' ++ ds) = decimalValue ds := by
  induction k
  case zero      => rfl
  case succ k ih => exact ih

theorem decimalValue_toDigits : decimalValue (Nat.toDigits 10 n) = n := by
  calc decimalValue (Nat.toDigits 10 n)
    _ = (Nat.toDigits 10 n).foldl (fun v c => 10 * v + (c.toNat - '0'.toNat)) 0 := by
      refine List.foldl_ext _ _ _ fun v c hc => ?_
      rw [value_of_isDigit (Nat.isDigit_of_mem_toDigits (by decide) (by decide) hc), Nat.mul_comm]
    _ = Nat.ofDigitChars 10 (Nat.toDigits 10 n) 0 := Nat.ofDigitChars_eq_foldl.symm
    _ = n := Nat.ofDigitChars_ten_toDigits

theorem length_toDigits (n : Nat) : (Nat.toDigits 10 n).length = digitCount n := by
  fun_induction digitCount n
  case case1 n h    => rw [Nat.toDigits_of_lt_base h, List.length_singleton]
  case case2 n h ih =>
    rw [Nat.toDigits_of_base_le (by decide) (Nat.not_lt.mp h), List.length_append, ih,
      List.length_singleton]

theorem head?_toDigits (h : n ≠ 0) : (Nat.toDigits 10 n).head? ≠ some '0' := by
  fun_induction digitCount n
  case case1 n hn =>
    rw [Nat.toDigits_of_lt_base hn, List.head?_singleton, ne_eq, Option.some.injEq]
    interval_cases n <;> first | exact absurd rfl h | decide
  case case2 n hn ih =>
    rw [Nat.toDigits_of_base_le (by decide) (Nat.not_lt.mp hn),
      List.head?_append_of_ne_nil _ Nat.toDigits_ne_nil]
    exact ih (by omega)

end DecimalValue

-- A number as it is written, without its sign.
structure Numeral where
  whole         : List Char
  places        : List Char
  exponent      : Option Int
  whole_digits  : ∀ c ∈ whole, c.isDigit
  places_digits : ∀ c ∈ places, c.isDigit
  whole_ne_nil  : whole ≠ []
  -- Zero is the only number that begins with one.
  whole_head    : whole.head? = some '0' → whole.length = 1

namespace Numeral

def fraction (n : Numeral) : List Char :=
  if n.places = [] then [] else '.' :: n.places

def scale (n : Numeral) : List Char :=
  n.exponent.elim [] fun e =>
    'e' :: (if e < 0 then '-' else '+') :: Nat.toDigits 10 e.natAbs

def chars (n : Numeral) : List Char :=
  n.whole ++ n.fraction ++ n.scale

-- Whether it is written without a point and without an exponent.
def IsWhole (n : Numeral) : Prop :=
  n.places = [] ∧ n.exponent = none

-- What it says.
def decimal (n : Numeral) (negative : Bool) : Decimal :=
  ⟨negative, decimalValue (n.whole ++ n.places), n.exponent.getD 0 - n.places.length⟩

section OfNat

variable {n : Nat}

theorem head?_toDigits_eq_zero (h : (Nat.toDigits 10 n).head? = some '0') :
    (Nat.toDigits 10 n).length = 1 := by
  obtain rfl : n = 0 := by
    by_contra hn
    exact head?_toDigits hn h
  rfl

def ofNat (n : Nat) : Numeral where
  whole         := Nat.toDigits 10 n
  places        := []
  exponent      := none
  whole_digits  := fun _ => Nat.isDigit_of_mem_toDigits (by decide) (by decide)
  places_digits := fun _ h => nomatch h
  whole_ne_nil  := Nat.toDigits_ne_nil
  whole_head    := head?_toDigits_eq_zero

theorem chars_ofNat (n : Nat) : (ofNat n).chars = (toString n).toList := by
  simp [chars, fraction, scale, ofNat]

end OfNat

end Numeral

section Written

variable {l : Layout} {style : NumberStyle} {bits : Nat} {d : Digits} {negative : Bool}

theorem toList_zeros (n : Nat) : (NumberStyle.zeros n).toList = List.replicate n '0' :=
  String.toList_ofList

theorem toList_digits (n : Nat) : (toString n).toList = Nat.toDigits 10 n :=
  Nat.toList_repr

theorem length_digits (n : Nat) : (toString n).length = digitCount n := by
  rw [← String.length_toList, toList_digits, length_toDigits]

theorem isDigit_of_mem_zeros_append {n k : Nat} {c : Char}
    (h : c ∈ List.replicate k '0' ++ Nat.toDigits 10 n) : c.isDigit := by
  obtain h | h := List.mem_append.mp h
  case inl => rw [List.eq_of_mem_replicate h]; rfl
  case inr => exact Nat.isDigit_of_mem_toDigits (by decide) (by decide) h

-- The zeros up to the point are digits of the number, and so is the one behind it.
theorem exists_numeral_whole (hd : d.digits ≠ 0) (he : 0 ≤ d.exponent) (hm : style.marksWhole) :
    ∃ n : Numeral, (style.plain d).toList = n.chars ∧ ¬n.IsWhole ∧
      ∀ negative, n.decimal negative =
        ⟨negative, d.digits * 10 ^ (d.exponent.toNat + 1), -1⟩ := by
  refine ⟨⟨Nat.toDigits 10 d.digits ++ List.replicate d.exponent.toNat '0', ['0'], none,
    fun c hc => ?_, by simp, by simp, fun h => ?_⟩, ?_, by simp [Numeral.IsWhole], fun _ => ?_⟩
  · exact isDigit_of_mem_zeros_append <| List.mem_append.mpr (List.mem_append.mp hc).symm
  · rw [List.head?_append_of_ne_nil _ Nat.toDigits_ne_nil] at h
    exact absurd h (head?_toDigits hd)
  · simp [NumberStyle.plain, he, hm, Numeral.chars, Numeral.fraction, Numeral.scale, toList_zeros]
  · have h := @decimalValue_append_zeros (d.exponent.toNat + 1) (Nat.toDigits 10 d.digits)
    rw [List.replicate_succ', ← List.append_assoc, decimalValue_toDigits] at h
    rw [List.append_assoc] at h
    simp [Numeral.decimal, h]

-- The digits with enough zeros in front of them for one digit in front of the point.
def paddedDigits (places n : Nat) : List Char :=
  List.replicate (places + 1 - digitCount n) '0' ++ Nat.toDigits 10 n

theorem length_paddedDigits (places n : Nat) :
    (paddedDigits places n).length = places + 1 - digitCount n + digitCount n := by
  rw [paddedDigits, List.length_append, List.length_replicate, length_toDigits]

theorem toList_plain_places {places : Nat} (hp : d.exponent = -places) (h : 0 < places) :
    (style.plain d).toList =
      (paddedDigits places d.digits).take ((paddedDigits places d.digits).length - places) ++
        '.' :: (paddedDigits places d.digits).drop
          ((paddedDigits places d.digits).length - places) := by
  have hn : ¬0 ≤ d.exponent := by omega
  have ht : (-d.exponent).toNat = places := by omega
  have hpad : (NumberStyle.zeros (places + 1 - digitCount d.digits) ++ toString d.digits).toList =
      paddedDigits places d.digits := by
    rw [String.toList_append, toList_zeros, toList_digits, paddedDigits]
  simp only [NumberStyle.plain, if_neg hn, ht, length_digits]
  rw [← String.length_toList, hpad]
  simp

-- There are zeros in front of the digits only if there is no digit in front of the point.
theorem exists_numeral_places (hd : d.digits ≠ 0) (he : d.exponent < 0) :
    ∃ n : Numeral, (style.plain d).toList = n.chars ∧ ¬n.IsWhole ∧
      ∀ negative, n.decimal negative = ⟨negative, d.digits, d.exponent⟩ := by
  obtain ⟨places, hp⟩ : ∃ places : Nat, d.exponent = -places := ⟨(-d.exponent).toNat, by omega⟩
  have hpos : 0 < places := by omega
  have htext := @toList_plain_places style d places hp hpos
  have hlen := length_paddedDigits places d.digits
  have hdigits (c : Char) (hc : c ∈ paddedDigits places d.digits) : c.isDigit :=
    isDigit_of_mem_zeros_append hc
  have hvalue : decimalValue (paddedDigits places d.digits) = d.digits :=
    decimalValue_zeros_append.trans decimalValue_toDigits
  have hhead (h : (paddedDigits places d.digits).head? = some '0') :
      (paddedDigits places d.digits).length - places = 1 := by
    by_cases hk : places + 1 - digitCount d.digits = 0
    case pos =>
      rw [paddedDigits, hk] at h
      exact absurd h (head?_toDigits hd)
    case neg => omega
  generalize paddedDigits places d.digits = padded at *
  have hne : padded.drop (padded.length - places) ≠ [] := by
    rw [ne_eq, List.drop_eq_nil_iff]
    omega
  refine ⟨⟨padded.take (padded.length - places), padded.drop (padded.length - places), none,
    fun c hc => hdigits c (List.mem_of_mem_take hc),
    fun c hc => hdigits c (List.mem_of_mem_drop hc), ?_, fun h => ?_⟩, ?_, ?_, fun _ => ?_⟩
  · rw [ne_eq, List.take_eq_nil_iff, ← List.length_eq_zero_iff]
    omega
  · rw [List.head?_take, if_neg (by omega)] at h
    rw [List.length_take, hhead h]
    omega
  · simp [htext, Numeral.chars, Numeral.fraction, Numeral.scale, hne]
  · simp [Numeral.IsWhole, hne]
  · have hl : padded.length - (padded.length - places) = places := by omega
    simp [Numeral.decimal, hvalue, hp, hl]

theorem exists_numeral_scientific (d : Digits) :
    ∃ n : Numeral, (NumberStyle.scientific d).toList = n.chars ∧ ¬n.IsWhole ∧
      ∀ negative, n.decimal negative = ⟨negative, d.digits, d.exponent⟩ := by
  obtain ⟨c, cs, hc⟩ := List.exists_cons_of_ne_nil (@Nat.toDigits_ne_nil d.digits 10)
  have hdigits (c' : Char) (h : c' ∈ c :: cs) : c'.isDigit :=
    Nat.isDigit_of_mem_toDigits (by decide) (by decide) (hc ▸ h)
  have hlen : cs.length + 1 = digitCount d.digits := by rw [← length_toDigits, hc, List.length_cons]
  have hvalue : decimalValue (c :: cs) = d.digits := hc ▸ decimalValue_toDigits
  refine ⟨⟨[c], cs, some d.leading, fun c' h => ?_, fun c' h => ?_, by simp, fun _ => rfl⟩, ?_,
    by simp [Numeral.IsWhole], fun _ => ?_⟩
  · exact hdigits c' (List.mem_singleton.mp h ▸ List.mem_cons_self)
  · exact hdigits c' (List.mem_cons_of_mem _ h)
  · simp only [NumberStyle.scientific, toList_digits, hc]
    by_cases hcs : cs = [] <;> by_cases he : d.leading < 0 <;>
      simp [Numeral.chars, Numeral.fraction, Numeral.scale, hcs, he]
  · have he : d.leading - cs.length = d.exponent := by
      rw [Digits.leading]
      omega
    simp [Numeral.decimal, hvalue, he]

-- All that a number is written with, if a number without a fraction is marked as well.
theorem exists_numeral_magnitude (hl : l.Sound) (hm : style.marksWhole) (hi : bits < l.infinity) :
    ∃ n : Numeral, (style.magnitude l bits).toList = n.chars ∧ ¬n.IsWhole ∧
      ∀ negative, (n.decimal negative).magnitude l = bits := by
  rw [NumberStyle.magnitude]
  by_cases hz : bits = 0
  case pos =>
    refine ⟨⟨['0'], ['0'], none, by simp, by simp, by simp, fun _ => rfl⟩, ?_,
      by simp [Numeral.IsWhole], fun _ => ?_⟩
    · simp [hz, hm, Numeral.chars, Numeral.fraction, Numeral.scale]
    · have h0 : decimalValue ['0', '0'] = 0 := rfl
      simp [hz, Numeral.decimal, Decimal.magnitude, h0]
  case neg =>
    have hb := Nat.pos_of_ne_zero hz
    have hd := @Layout.digits_shortest_ne_zero l style.tie bits hl hb hi
    have hv (negative : Bool) : Decimal.magnitude l ⟨negative, (l.shortest style.tie bits).digits,
        (l.shortest style.tie bits).exponent⟩ = bits := Layout.magnitude_shortest hl hb hi
    simp only [if_neg hz]
    generalize l.shortest style.tie bits = d at *
    split
    case isFalse =>
      obtain ⟨n, hn, hw, he⟩ := exists_numeral_scientific d
      exact ⟨n, hn, hw, fun negative => (he negative).symm ▸ hv negative⟩
    case isTrue =>
      by_cases he : 0 ≤ d.exponent
      case neg =>
        obtain ⟨n, hn, hw, he⟩ := exists_numeral_places hd (Int.not_le.mp he)
        exact ⟨n, hn, hw, fun negative => (he negative).symm ▸ hv negative⟩
      case pos =>
        obtain ⟨n, hn, hw, hn'⟩ := exists_numeral_whole hd he hm
        refine ⟨n, hn, hw, fun negative => ?_⟩
        have hk : (-1 : Int) + (d.exponent.toNat + 1 : Nat) = d.exponent := by omega
        rw [hn', Layout.magnitude_mul_pow hl, hk]
        exact hv negative

theorem exists_numeral (hl : l.Sound) (hm : style.marksWhole) (hi : bits < l.infinity)
    (negative : Bool) :
    ∃ n : Numeral, (style.write l negative bits).toList =
        (if negative then ['-'] else []) ++ n.chars ∧
      ¬n.IsWhole ∧ (n.decimal negative).magnitude l = bits := by
  obtain ⟨n, hn, hw, hv⟩ := exists_numeral_magnitude hl hm hi
  refine ⟨n, ?_, hw, hv negative⟩
  rw [NumberStyle.write, if_neg (Nat.lt_asymm hi), if_neg (Nat.ne_of_lt hi)]
  cases negative
  case false => exact hn
  case true  => simp [hn]

end Written

end PagePrep
