import Mathlib
import PagePrep.Netpbm.Encode
import PagePrep.Proofs.Grid

-- A bitmap or a graymap that was written is read back as the picture it was written from. The
-- header is read word by word, and the pixels of a bitmap bit by bit.

namespace PagePrep

theorem Bytes.ofAscii_append {s t : String} :
    Bytes.ofAscii (s ++ t) = Bytes.ofAscii s ++ Bytes.ofAscii t := by
  simp [ofAscii]

theorem Picture.toGray_ofGray {image : GrayImage} : (ofGray image).toGray = image := by
  have hv (v : UInt8) : Channels.gray.toGray (#v[v].map Depth.byte.shade) = v :=
    Vector.getElem_map Depth.byte.shade Nat.zero_lt_one
  refine Grid.ext rfl rfl ?_
  calc (image.cells.map fun v => #v[v]).map _
    _ = image.cells.map fun v => Channels.gray.toGray (#v[v].map Depth.byte.shade) :=
      Array.map_map
    _ = image.cells.map id := congrArg (Array.map · image.cells) (funext hv)
    _ = image.cells        := Array.map_id image.cells

namespace Netpbm

section Header

variable {n : UInt32} {b space : UInt8} {word done rest bytes : Bytes}
variable {samples : Grid UInt8} {image : GrayImage}

def decimal (n : UInt32) : Bytes :=
  .ofAscii (toString n)

theorem decimal_eq : decimal n = (Nat.toDigits 10 n.toNat).map fun c => UInt8.ofNat c.toNat := by
  rw [decimal, Bytes.ofAscii, ←Nat.toList_repr]
  rfl

theorem decimal_ne_nil : decimal n ≠ [] := by
  simp [decimal_eq]

theorem toNat_of_mem_toDigits {c : Char} (h : c ∈ Nat.toDigits 10 n.toNat) :
    (UInt8.ofNat c.toNat).toNat = c.toNat ∧ 48 ≤ c.toNat ∧ c.toNat ≤ 57 := by
  have hd := Nat.isDigit_of_mem_toDigits (by decide) (by decide) h
  have hc : 48 ≤ c.toNat ∧ c.toNat ≤ 57 := by
    simpa [Char.isDigit, UInt32.le_iff_toNat_le] using hd
  exact ⟨UInt8.toNat_ofNat_of_lt' (Nat.lt_of_le_of_lt hc.right (by decide)), hc⟩

theorem isDigit_iff : isDigit b ↔ 48 ≤ b.toNat ∧ b.toNat ≤ 57 := by
  simp [isDigit, UInt8.le_iff_toNat_le]

theorem isDigit_of_mem_decimal (h : b ∈ decimal n) : isDigit b := by
  rw [decimal_eq] at h
  have ⟨c, hc, hb⟩ := List.mem_map.mp h
  have ⟨he, hc⟩ := toNat_of_mem_toDigits hc
  rw [isDigit_iff, ←hb, he]
  exact hc

theorem digitsValue_decimal : digitsValue (decimal n) = n.toNat := by
  rw [digitsValue, decimal_eq, List.foldl_map]
  calc _
    _ = (Nat.toDigits 10 n.toNat).foldl (fun v c => 10 * v + (c.toNat - '0'.toNat)) 0 := by
      refine List.foldl_ext _ _ _ fun v c hc => ?_
      rw [(toNat_of_mem_toDigits hc).left, Nat.mul_comm]
      rfl
    _ = Nat.ofDigitChars 10 (Nat.toDigits 10 n.toNat) 0 := Nat.ofDigitChars_eq_foldl.symm
    _ = n.toNat := Nat.ofDigitChars_ten_toDigits

theorem number?_decimal : number? UInt32.size (decimal n) = some n.toNat := by
  have hd : (decimal n).all isDigit := List.all_eq_true.mpr fun _ => isDigit_of_mem_decimal
  rw [number?, digitsValue_decimal, if_pos]
  exact ⟨by simp [decimal_ne_nil], hd, n.toNat_lt⟩

-- Digits neither begin a comment nor end a word.
theorem word?_cons_of_isDigit (h : isDigit b) :
    word? false done (b :: rest) = word? false (b :: done) rest := by
  have hb := isDigit_iff.mp h
  have hc : b ≠ 0x23 := by
    rintro rfl
    simp at hb
  have hs : ¬isSpace b := by
    simp [isSpace, ←UInt8.toNat_inj, UInt8.le_iff_toNat_le]
    omega
  have ha : ¬0x80 ≤ b := by
    simp [UInt8.le_iff_toNat_le]
    omega
  rw [word?, if_neg hc, if_neg hs, if_neg ha]

theorem word?_digits (hw : ∀ b ∈ word, isDigit b) (hs : isSpace space)
    (hne : done.reverse ++ word ≠ []) :
    word? false done (word ++ space :: rest) = some (done.reverse ++ word, rest) := by
  induction word generalizing done
  case nil =>
    have hc : space ≠ 0x23 := by
      rintro rfl
      cases hs
    have hd : done ≠ [] := by simpa using hne
    simp [word?, hc, hs, hd]
  case cons b word ih =>
    rw [List.cons_append, word?_cons_of_isDigit (hw b List.mem_cons_self),
      ih (fun b hb => hw b (List.mem_cons_of_mem _ hb)) (by simp)]
    simp

theorem headerNumber?_decimal (space : UInt8) (hs : isSpace space) :
    headerNumber? (decimal n ++ space :: rest) = some (n, rest) := by
  have hw : word? false [] (decimal n ++ space :: rest) = some (decimal n, rest) :=
    word?_digits (fun _ => isDigit_of_mem_decimal) hs (by simp [decimal_ne_nil])
  simp [headerNumber?, hw, number?_decimal]

-- The end of the line behind the name of the format is space in front of a number.
theorem headerNumber?_newline : headerNumber? (0x0a :: bytes) = headerNumber? bytes :=
  rfl

def packedRows (samples : Grid UInt8) : Bytes :=
  (List.range samples.height.toNat).flatMap (packRow samples)

theorem header?_encodeBitmap :
    header? (encodeBitmap samples) =
      some (.bitmap .binary samples.width samples.height, packedRows samples) := by
  have he : encodeBitmap samples = 0x50 :: 0x34 :: 0x0a :: (decimal samples.width ++
      0x20 :: (decimal samples.height ++ 0x0a :: packedRows samples)) := by
    simp only [encodeBitmap, decimal, Bytes.ofAscii_append, List.append_assoc]
    rfl
  rw [he, header?, bitmapHeader?, headerNumber?_newline]
  simp [headerNumber?_decimal 0x20 rfl, headerNumber?_decimal 0x0a rfl]

theorem header?_encodeGray :
    header? (encodeGray image) =
      some (.samples .binary .gray .byte image.width image.height 255, image.cells.toList) := by
  have he : encodeGray image = 0x50 :: 0x35 :: 0x0a :: (decimal image.width ++ 0x20 ::
      (decimal image.height ++ 0x20 :: (decimal 255 ++ 0x0a :: image.cells.toList))) := by
    simp only [encodeGray, decimal, Bytes.ofAscii_append, List.append_assoc]
    rfl
  rw [he, header?, samplesHeader?, headerNumber?_newline]
  simp only [headerNumber?_decimal 0x20 rfl, headerNumber?_decimal 0x0a rfl, Option.bind_eq_bind,
    Option.bind_some]
  rfl

end Header

section Bits

variable {bit : Nat → Bool} {count k : Nat}

-- The first `count` bits as a number, the first in the highest place.
def bitsValue (bit : Nat → Bool) (count : Nat) : Nat :=
  (List.range count).foldl (fun n k => 2 * n + (bit k).toNat) 0

theorem bitsValue_succ :
    bitsValue bit (count + 1) = 2 * bitsValue bit count + (bit count).toNat := by
  simp [bitsValue, List.range_succ]

theorem bitsValue_lt : bitsValue bit count < 2 ^ count := by
  induction count
  case zero => simp [bitsValue]
  case succ count ih =>
    have hb := (bit count).toNat_le
    rw [bitsValue_succ, Nat.pow_succ]
    omega

theorem testBit_bitsValue (h : k < count) :
    (bitsValue bit count).testBit (count - 1 - k) = bit k := by
  induction count
  case zero => omega
  case succ count ih =>
    rw [bitsValue_succ, Nat.add_sub_cancel]
    by_cases hk : k = count
    case pos =>
      rw [hk, Nat.sub_self, Nat.testBit_zero]
      cases bit count <;> simp
    case neg =>
      -- The last bit takes the lowest place and shifts the others up.
      have hs : count - k = count - 1 - k + 1 := by omega
      have hv : (2 * bitsValue bit count + (bit count).toNat) / 2 = bitsValue bit count := by
        have hb := (bit count).toNat_le
        omega
      rw [hs, Nat.testBit_add_one, hv]
      exact ih (by omega)

theorem testBit_packByte (h : k < 8) : (packByte bit).toNat.testBit (7 - k) = bit k := by
  have hp : (packByte bit).toNat = bitsValue bit 8 := UInt8.toNat_ofNat_of_lt' bitsValue_lt
  rw [hp]
  exact testBit_bitsValue h

end Bits

section Bitmap

variable {samples : Grid UInt8} {page : Page} {x y : UInt32}

theorem length_packedRows :
    (packedRows samples).length = rowBytes samples.width.toNat * samples.height.toNat := by
  unfold packedRows packRow
  rw [flatMap_rows, List.length_map, List.length_range, Nat.mul_comm]

theorem bitAt_packedRows (h : samples.Contains x y) :
    bitAt (packedRows samples).toArray samples.width.toNat x.toNat y.toNat =
      (samples.get x y h == 0) := by
  have hx := UInt32.lt_iff_toNat_lt.mp h.left
  have hy := UInt32.lt_iff_toNat_lt.mp h.right
  have hb : x.toNat / 8 < rowBytes samples.width.toNat := by
    rw [rowBytes]
    omega
  have hi : (packedRows samples)[y.toNat * rowBytes samples.width.toNat + x.toNat / 8]? = _ :=
    getElem?_flatMap_rows hy hb
  have hk : x.toNat % 8 < 8 := Nat.mod_lt _ (by decide)
  rw [bitAt, Array.getD_eq_getD_getElem?, List.getElem?_toArray, hi, Option.getD_some,
    testBit_packByte hk, Nat.div_add_mod, UInt32.ofNat_toNat, UInt32.ofNat_toNat, Grid.getD,
    Grid.get?_eq_some_get h, Option.getD_some]

-- A bitmap gives every sample of 0 back as black, and every other as white.
theorem packedBits?_packedRows :
    packedBits? samples.width samples.height (packedRows samples) =
      some (.ofGray (samples.map fun v => shade (v == 0))) := by
  have hs : ¬(packedRows samples).toArray.size <
      rowBytes samples.width.toNat * samples.height.toNat := by
    simp [length_packedRows]
  refine (if_neg hs).trans <| congrArg (some <| Picture.ofGray ·) ?_
  calc _
    _ = Grid.ofFn samples.width samples.height fun x y h => shade (samples.get x y h == 0) := by
      congr
      funext x y h
      exact congrArg shade (bitAt_packedRows h)
    _ = samples.map fun v => shade (v == 0) := by
      refine Grid.ext_get? rfl rfl fun _ _ => ?_
      rw [Grid.get?_ofFn_get (f := fun _ _ v => shade (v == 0)), Grid.get?_map]

-- The samples of a page are inverted, and so is the meaning of a bit.
theorem shade_bitmapSamples :
    ((bitmapSamples page).map fun v => shade (v == 0)) = page.toGray := by
  refine Grid.ext_get? rfl rfl fun x y => ?_
  rw [bitmapSamples, Page.toGray, Grid.get?_map, Grid.get?_map, Grid.get?_map, Option.map_map]
  congr 1
  funext ink
  cases ink <;> rfl

theorem decode?_encodePage : decode? (encodePage page) = some (.ofGray page.toGray) := by
  rw [decode?, encodePage, header?_encodeBitmap, ←shade_bitmapSamples]
  exact packedBits?_packedRows

end Bitmap

section Graymap

variable {image : GrayImage}

theorem rescale_self {maxval n : Nat} : rescale maxval maxval n = n :=
  if_pos rfl

theorem ofSamples?_cells :
    Picture.ofSamples? .byte .gray image.width image.height image.cells =
      some (.ofGray image) := by
  have hc : image.cells.size = image.width.toNat * image.height.toNat * Channels.gray.count :=
    image.size_cells.trans (Nat.mul_one _).symm
  refine (dif_pos hc).trans <| congrArg some <| congrArg (Picture.mk .byte .gray) <|
    Grid.ext rfl rfl <| Array.ext ?_ fun i _ _ => Vector.ext fun k hk => ?_
  · exact (Array.size_ofFn.trans image.size_cells.symm).trans Array.size_map.symm
  · obtain rfl : k = 0 := Nat.lt_one_iff.mp hk
    simp [Grid.map, Channels.count]
    rfl

theorem samples?_cells :
    samples? .binary .gray .byte image.width image.height 255 image.cells.toList =
      some (.ofGray image) := by
  have hc : image.width.toNat * image.height.toNat * Channels.gray.count = image.cells.size :=
    (Nat.mul_one _).trans image.size_cells.symm
  have hb : binarySamples? 1 image.cells.size image.cells.toList =
      some (image.cells.map UInt8.toNat) := by
    simp [binarySamples?]
  have hs : ((image.cells.map UInt8.toNat).map (rescale 255 255)).map UInt8.ofNat =
      image.cells := by
    simp [Function.comp_def, rescale_self]
  simp only [samples?, hc, SampleSize.bytes, SampleSize.top, hb]
  exact (congrArg (Picture.ofSamples? .byte .gray image.width image.height) hs).trans
    ofSamples?_cells

theorem decode?_encodeGray : decode? (encodeGray image) = some (.ofGray image) := by
  rw [decode?, header?_encodeGray]
  exact samples?_cells

end Graymap

end Netpbm

end PagePrep
