import Mathlib
import PagePrep.Text.Document
import PagePrep.Text.Toml.Reader
import PagePrep.Proofs.Number.Bits
import PagePrep.Proofs.Text.Scan

-- What is written as a value in TOML is read as it was meant, up to the end of its line.

namespace PagePrep

namespace Scan

variable {ds rest : List Char} {x : Char} {k : Nat}

theorem word?_of_head (c : Char) (word : List Char) (h : rest.head? ≠ some c) :
    word? (c :: word) rest = none := by
  cases rest
  case nil         => rfl
  case cons d rest =>
    have hd : c ≠ d := fun hd => h (congrArg some hd.symm)
    simp [word?, hd]

-- Behind some of the digits in front there is another one, or what stands behind them all.
theorem word?_drop_digits (hd : ∀ c ∈ ds, c.isDigit) (hr : ∀ c ∈ rest.head?, ¬c.isDigit ∧ c ≠ x)
    (hx : ¬x.isDigit) (hlen : ((ds ++ rest).take k).length = k)
    (hk : ∀ c ∈ (ds ++ rest).take k, c.isDigit) : word? [x] ((ds ++ rest).drop k) = none := by
  induction ds generalizing k
  case nil =>
    cases k
    case zero   => exact word?_of_head x [] fun h => (hr x h).right rfl
    case succ k =>
      cases rest
      case nil         => simp at hlen
      case cons c rest => exact absurd (hk c List.mem_cons_self) (hr c rfl).left
  case cons d ds ih =>
    cases k
    case zero =>
      refine word?_of_head x [] fun h => ?_
      cases h
      exact hx (hd _ List.mem_cons_self)
    case succ k =>
      exact ih (fun c hc => hd c (List.mem_cons_of_mem _ hc)) (by simpa using hlen)
        fun c hc => hk c (List.mem_cons_of_mem _ hc)

end Scan

namespace Toml

open Scan

variable {ds rest : List Char} {k lo hi : Nat}

theorem of_fixed? {n : Nat} {cs : List Char} (h : fixed? k lo hi cs = some (n, rest)) :
    (cs.take k).length = k ∧ (∀ c ∈ cs.take k, c.isDigit) ∧ rest = cs.drop k := by
  simp only [fixed?] at h
  split at h
  case isTrue hc =>
    cases h
    exact ⟨hc.left, List.all_eq_true.mp hc.right.left, rfl⟩
  case isFalse => cases h

-- A number is no date and no time, as these go on with a dash or a colon.
theorem moment?_digits (hd : ∀ c ∈ ds, c.isDigit)
    (hr : ∀ c ∈ rest.head?, ¬c.isDigit ∧ c ≠ '-' ∧ c ≠ ':') : moment? (ds ++ rest) = none := by
  have hnone {x : Char} (hx : ¬x.isDigit) (hr : ∀ c ∈ rest.head?, ¬c.isDigit ∧ c ≠ x)
      {n k lo hi : Nat} {behind : List Char} (h : fixed? k lo hi (ds ++ rest) = some (n, behind)) :
      word? [x] behind = none := by
    obtain ⟨hlen, hk, rfl⟩ := of_fixed? h
    exact word?_drop_digits hd hr hx hlen hk
  have hdate : date? (ds ++ rest) = none := by
    cases h : fixed? 4 0 9999 (ds ++ rest)
    case none   => simp [date?, h]
    case some r =>
      obtain ⟨n, behind⟩ := r
      have hw := @hnone '-' (by decide) (fun c hc => ⟨(hr c hc).left, (hr c hc).right.left⟩)
        _ _ _ _ _ h
      simp [date?, h, hw]
  have htime : time? (ds ++ rest) = none := by
    cases h : fixed? 2 0 23 (ds ++ rest)
    case none   => simp [time?, h]
    case some r =>
      obtain ⟨n, behind⟩ := r
      have hw := @hnone ':' (by decide) (fun c hc => ⟨(hr c hc).left, (hr c hc).right.right⟩)
        _ _ _ _ _ h
      simp [time?, h, hw]
  rw [moment?, hdate, htime]

theorem fixed?_cons {c : Char} (h : ¬c.isDigit) : fixed? (k + 1) lo hi (c :: rest) = none := by
  simp [fixed?, h]

theorem moment?_cons {c : Char} (h : ¬c.isDigit) : moment? (c :: rest) = none := by
  simp [moment?, date?, time?, fixed?_cons h]

section Numbers

variable {n : Numeral} {negative : Bool}

theorem grouped?_go {done : List Char} (hd : ∀ c ∈ ds, c.isDigit)
    (hr : ∀ c ∈ rest.head?, ¬c.isDigit ∧ c ≠ '_') (hk : ds.length ≤ k) :
    grouped?.go Char.isDigit k done (ds ++ rest) = some (done.reverse ++ ds, rest) := by
  induction ds generalizing k done
  case nil =>
    cases k
    case zero   => simp [grouped?.go]
    case succ k =>
      rw [grouped?.go.eq_def]
      cases rest
      case nil         => simp
      case cons c rest =>
        have hc := hr c rfl
        simp [hc]
  case cons d ds ih =>
    obtain ⟨k, rfl⟩ : ∃ j, k = j + 1 := Nat.exists_eq_add_one_of_ne_zero (by rintro rfl; simp at hk)
    have hdigit := hd d List.mem_cons_self
    have hne : d ≠ '_' := by
      rintro rfl
      cases hdigit
    rw [List.cons_append, grouped?.go.eq_def]
    have htail := @ih k (d :: done) (fun c hc => hd c (List.mem_cons_of_mem _ hc))
      (Nat.le_of_succ_le_succ hk)
    simp [hdigit, hne, htail]

theorem grouped?_append (hd : ∀ c ∈ ds, c.isDigit) (hne : ds ≠ [])
    (hr : ∀ c ∈ rest.head?, ¬c.isDigit ∧ c ≠ '_') :
    grouped? Char.isDigit (ds ++ rest) = some (ds, rest) := by
  obtain ⟨d, ds, rfl⟩ := List.exists_cons_of_ne_nil hne
  have hg := @grouped?_go ds rest (ds ++ rest).length [d]
    (fun c hc => hd c (List.mem_cons_of_mem _ hc)) hr (by simp)
  rw [List.cons_append, grouped?, if_pos (hd d List.mem_cons_self), hg]
  rfl

theorem leadingInt?_numeral (hr : Follows rest) :
    leadingInt? (n.chars ++ rest) = some (n.whole, n.fraction ++ (n.scale ++ rest)) := by
  have hn : n.chars ++ rest = n.whole ++ (n.fraction ++ (n.scale ++ rest)) := by
    rw [Numeral.chars, List.append_assoc, List.append_assoc]
  have hhead (c : Char) (hc : c ∈ (n.fraction ++ (n.scale ++ rest)).head?) :
      ¬c.isDigit ∧ c ≠ '_' := by
    obtain rfl | rfl | rfl | rfl := n.head_fraction hr c hc <;> decide
  rw [hn, leadingInt?.eq_def]
  split
  case h_1 tail ht =>
    obtain ⟨c, cs, hc⟩ := List.exists_cons_of_ne_nil n.whole_ne_nil
    rw [hc, List.cons_append] at ht
    obtain ⟨rfl, rfl⟩ := List.cons.inj ht
    have hlen := n.whole_head (by rw [hc]; rfl)
    obtain rfl : cs = [] := by simpa [hc] using hlen
    rw [hc]
    rfl
  case h_2 => exact grouped?_append n.whole_digits n.whole_ne_nil hhead

theorem fraction?_numeral (hr : Follows rest) :
    fraction? (n.fraction ++ (n.scale ++ rest)) = some (n.places, n.scale ++ rest) := by
  have hhead := n.head_scale hr
  by_cases hp : n.places = []
  case pos =>
    have hf : n.fraction = [] := if_pos hp
    rw [hf, List.nil_append, fraction?.eq_def, hp]
    split
    case h_1 tail ht =>
      rw [ht] at hhead
      simp at hhead
    case h_2 => rfl
  case neg =>
    have hf : n.fraction = '.' :: n.places := if_neg hp
    rw [hf]
    refine grouped?_append n.places_digits hp fun c hc => ?_
    obtain rfl | rfl | rfl := hhead c hc <;> decide

theorem exponent?_numeral (hr : Follows rest) :
    exponent? (n.scale ++ rest) = some (n.exponent, rest) := by
  cases he : n.exponent
  case none =>
    have hs : n.scale = [] := by rw [Numeral.scale, he]; rfl
    rw [hs, List.nil_append, exponent?.eq_def]
    split
    case h_1 => simp [Follows] at hr
    case h_2 => simp [Follows] at hr
    case h_3 => rfl
  case some e =>
    have hs : n.scale = 'e' :: (if e < 0 then '-' else '+') :: Nat.toDigits 10 e.natAbs := by
      rw [Numeral.scale, he]
      rfl
    have hd : grouped? Char.isDigit (Nat.toDigits 10 e.natAbs ++ rest) =
        some (Nat.toDigits 10 e.natAbs, rest) := by
      refine grouped?_append (fun _ => Nat.isDigit_of_mem_toDigits (by decide) (by decide))
        Nat.toDigits_ne_nil fun c hc => ?_
      obtain rfl | rfl := hr c hc <;> decide
    have hv := Numeral.signed_natAbs e
    simp [hs, exponent?, Numeral.sign_exponent, hd, decimalValue_toDigits, -Nat.cast_natAbs, hv]

-- The value of a number.
def numeralValue? (negative : Bool) (n : Numeral) : Option Value :=
  if n.places.isEmpty ∧ n.exponent.isNone then
    int? (if negative then -decimalValue n.whole else decimalValue n.whole)
  else
    float? (n.decimal negative)

theorem special?_numeral : special? negative (n.chars ++ rest) = none := by
  obtain ⟨c, cs, hc, hcs⟩ := n.exists_digit
  have hw {d : Char} {word : List Char} (hd : ¬d.isDigit) :
      word? (d :: word) (n.chars ++ rest) = none := by
    refine word?_of_head d word fun h => ?_
    rw [hcs] at h
    cases h
    exact hd hc
  rw [special?, hw (by decide), hw (by decide)]

theorem sign_numeral :
    sign ((if negative then ['-'] else []) ++ n.chars ++ rest) = (negative, n.chars ++ rest) := by
  cases negative
  case true => rfl
  case false =>
    obtain ⟨c, cs, hc, hcs⟩ := n.exists_digit
    rw [sign.eq_def]
    split
    case h_1 ht => rw [hcs] at ht; cases ht; cases hc
    case h_2 ht => rw [hcs] at ht; cases ht; cases hc
    case h_3    => rfl

theorem decimal?_numeral (hr : Follows rest) :
    decimal? ((if negative then ['-'] else []) ++ n.chars ++ rest) =
      (numeralValue? negative n).map fun v => (v, rest) := by
  simp only [decimal?, sign_numeral, special?_numeral, leadingInt?_numeral hr, Option.bind_eq_bind,
    Option.bind_some, fraction?_numeral hr, exponent?_numeral hr]
  rw [numeralValue?]
  split <;> exact Option.map_eq_bind.symm

-- No letter for another base stands behind a zero in front.
theorem behind_zero {c : Char} {tail : List Char} (hr : Follows rest)
    (h : (if negative then ['-'] else []) ++ n.chars ++ rest = '0' :: c :: tail) :
    c = '.' ∨ c = 'e' ∨ c = ',' ∨ c = '\n' := by
  cases negative
  case true => cases h
  case false =>
    obtain ⟨d, cs, hd⟩ := List.exists_cons_of_ne_nil n.whole_ne_nil
    have hc : d :: (cs ++ (n.fraction ++ (n.scale ++ rest))) = '0' :: c :: tail := by
      rw [← h]
      simp [Numeral.chars, hd]
    obtain ⟨rfl, hcs⟩ := List.cons.inj hc
    have hlen := n.whole_head (by rw [hd]; rfl)
    obtain rfl : cs = [] := by simpa [hd] using hlen
    refine n.head_fraction hr c ?_
    rw [← List.nil_append (n.fraction ++ _), hcs]
    rfl

theorem number?_numeral (hr : Follows rest) :
    number? ((if negative then ['-'] else []) ++ n.chars ++ rest) =
      (numeralValue? negative n).map fun v => (v, rest) := by
  rw [← decimal?_numeral hr, number?.eq_def]
  split
  case h_4 => rfl
  all_goals
    case _ h => exact absurd (behind_zero hr h) (by decide)

theorem moment?_numeral (hr : Follows rest) :
    moment? ((if negative then ['-'] else []) ++ n.chars ++ rest) = none := by
  cases negative
  case true  => exact moment?_cons (by decide)
  case false =>
    have hn : n.chars ++ rest = n.whole ++ (n.fraction ++ (n.scale ++ rest)) := by
      rw [Numeral.chars, List.append_assoc, List.append_assoc]
    simp only [Bool.false_eq_true, if_false, List.nil_append, hn]
    refine moment?_digits n.whole_digits fun c hc => ?_
    obtain rfl | rfl | rfl | rfl := n.head_fraction hr c hc <;> decide

theorem scalar?_numeral (hr : Follows rest) :
    scalar? ((if negative then ['-'] else []) ++ n.chars ++ rest) =
      (numeralValue? negative n).map fun v => (v, rest) := by
  have hm := @moment?_numeral rest n negative hr
  have hn := @number?_numeral rest n negative hr
  obtain ⟨c, cs, hc, hcs⟩ : ∃ c cs, (c = '-' ∨ c.isDigit) ∧
      (if negative then ['-'] else []) ++ n.chars ++ rest = c :: cs := by
    cases negative
    case true  => exact ⟨'-', _, .inl rfl, rfl⟩
    case false =>
      obtain ⟨c, cs, hc, hcs⟩ := n.exists_digit
      exact ⟨c, cs ++ rest, .inr hc, by rw [hcs]; rfl⟩
  rw [hcs] at hm hn ⊢
  rw [scalar?.eq_def]
  split
  case h_5 => rw [hm]; exact hn
  all_goals
    case _ h =>
      obtain ⟨rfl, -⟩ := List.cons.inj h
      exact absurd hc (by decide)

end Numbers

section Values

-- A text is read as a value if it ends the line.
def ReadsAs (text : String) (v : Value) : Prop :=
  ∀ rest : List Char,
    value? ((skipBlanks (text.toList ++ '\n' :: rest)).length + 1) maxDepth.pred
      (skipBlanks (text.toList ++ '\n' :: rest)) = some (v, '\n' :: rest)

theorem ReadsAs.unique {text : String} {v v' : Value} (h : ReadsAs text v) (h' : ReadsAs text v') :
    v = v' :=
  (Prod.mk.inj (Option.some.inj ((h []).symm.trans (h' [])))).left

theorem readsAs_of_scalar? {text : String} {v : Value} {c : Char} {cs : List Char}
    (ht : text.toList = c :: cs) (hc : c ∉ [' ', '\t', '[', '{'])
    (h : ∀ rest, scalar? (c :: cs ++ '\n' :: rest) = some (v, '\n' :: rest)) : ReadsAs text v := by
  intro rest
  simp only [List.mem_cons, List.not_mem_nil, or_false, not_or] at hc
  obtain ⟨hspace, htab, hbracket, hbrace⟩ := hc
  have hs : skipBlanks (text.toList ++ '\n' :: rest) = c :: cs ++ '\n' :: rest := by
    simp [ht, skipBlanks, isBlank, hspace, htab]
  rw [hs, value?.eq_def]
  split
  case h_1 h => cases h
  case h_2 =>
    split
    case h_1 h => exact absurd (List.cons.inj h).left hbracket
    case h_2 h => exact absurd (List.cons.inj h).left hbrace
    case h_3   => exact h rest

theorem readsAs_bool (b : Bool) : ReadsAs (if b then "true" else "false") (.bool b) := by
  cases b
  case true  => exact readsAs_of_scalar? rfl (by decide) fun _ => rfl
  case false => exact readsAs_of_scalar? rfl (by decide) fun _ => rfl

theorem readsAs_numeral {text : String} {v : Value} {n : Numeral} {negative : Bool}
    (hv : numeralValue? negative n = some v)
    (ht : text.toList = (if negative then ['-'] else []) ++ n.chars) : ReadsAs text v := by
  obtain ⟨c, cs, hc, hcs⟩ : ∃ c cs, (c = '-' ∨ c.isDigit) ∧
      (if negative then ['-'] else []) ++ n.chars = c :: cs := by
    cases negative
    case true  => exact ⟨'-', _, .inl rfl, rfl⟩
    case false =>
      obtain ⟨c, cs, hc, hcs⟩ := n.exists_digit
      exact ⟨c, cs, .inr hc, hcs⟩
  refine readsAs_of_scalar? (ht.trans hcs) (fun h => ?_) fun rest => ?_
  · simp only [List.mem_cons, List.not_mem_nil, or_false] at h
    obtain rfl | rfl | rfl | rfl := h <;> exact absurd hc (by decide)
  · rw [← hcs, scalar?_numeral (Follows.newline rest), hv]
    rfl

theorem readsAs_nat {n : Nat} (h : n < Value.signedBound) : ReadsAs (toString n) (.int n) := by
  refine @readsAs_numeral _ _ (.ofNat n) false ?_ (Numeral.chars_ofNat n).symm
  have hd : decimalValue (Numeral.ofNat n).whole = n := decimalValue_toDigits
  have hb : -(Value.signedBound : Int) ≤ (n : Int) ∧ (n : Int) < Value.signedBound := by omega
  rw [numeralValue?, if_pos ⟨rfl, rfl⟩, hd]
  exact if_pos hb

theorem readsAs_infinity (negative : Bool) :
    ReadsAs (NumberStyle.signedInf negative) (.float (if negative then -(1 / 0) else 1 / 0)) := by
  cases negative
  case true  => exact readsAs_of_scalar? rfl (by decide) fun _ => rfl
  case false => exact readsAs_of_scalar? rfl (by decide) fun _ => rfl

theorem readsAs_double {x : Float} (h : ¬x.isNaN) :
    ReadsAs (NumberStyle.toml.double x) (.float x) := by
  have hle := Nat.not_lt.mp (mt double_isNaN_iff.mpr h)
  have hx := double_ofBits_parts x
  obtain hi | hi := Nat.lt_or_eq_of_le hle
  case inl =>
    obtain ⟨n, hn, hw, hm⟩ := @exists_numeral .double .toml _ Layout.sound_double rfl hi
      (doubleParts x).1
    have hn' : (n.decimal (doubleParts x).1).toFloat = x := by rw [Decimal.toFloat, hm]; exact hx
    refine readsAs_numeral ?_ hn
    have hw : ¬(n.places.isEmpty ∧ n.exponent.isNone) := by simpa [Numeral.IsWhole] using hw
    have hinf := not_isInf_of_isFinite (double_isFinite_iff.mpr hi)
    rw [numeralValue?, if_neg hw, float?]
    simp [hn', hinf]
  case inr =>
    have ht : NumberStyle.toml.double x = NumberStyle.signedInf (doubleParts x).1 := by
      simp only [NumberStyle.double, NumberStyle.write, if_neg (Nat.not_lt.mpr hle), if_pos hi]
      rfl
    have hv : x = if (doubleParts x).1 then -(1 / 0) else 1 / 0 := by
      rw [hi] at hx
      rw [← hx]
      cases (doubleParts x).1 <;> decide +kernel
    have hr := readsAs_infinity (doubleParts x).1
    rwa [← hv, ← ht] at hr

end Values

section Names

variable {c : Char} {cs done : List Char}

theorem ne_of_isBareKeyChar {d : Char} (h : isBareKeyChar c) (hd : ¬isBareKeyChar d) : c ≠ d := by
  rintro rfl
  exact hd h

theorem space_le_of_isBareKeyChar (h : isBareKeyChar c) : ' ' ≤ c := by
  rw [isBareKeyChar] at h
  simp only [Bool.or_eq_true, decide_eq_true_eq] at h
  obtain (h | rfl) | rfl := h
  case inl.inl =>
    simp only [Char.isAlphanum, Char.isAlpha, Char.isUpper, Char.isLower, Char.isDigit,
      Bool.or_eq_true, Bool.and_eq_true, decide_eq_true_eq, ge_iff_le, UInt32.le_iff_toNat_le] at h
    rw [Char.le_def, UInt32.le_iff_toNat_le]
    have hspace : ' '.val.toNat = 32 := rfl
    have hval : c.val.toNat = c.toNat := rfl
    simp at h
    omega
  all_goals decide

theorem escaped_of_isBareKeyChar (h : isBareKeyChar c) : Json.escaped c = [c] := by
  rw [Json.escaped.eq_def]
  split
  case h_8 => exact if_neg (not_lt.mpr (space_le_of_isBareKeyChar h))
  all_goals cases h

theorem isPrintable_of_isBareKeyChar (h : isBareKeyChar c) : isPrintable c := by
  have hdel : c ≠ '\x7f' := ne_of_isBareKeyChar h (by decide)
  simp [isPrintable, space_le_of_isBareKeyChar h, hdel]

theorem basic?_append (h : ∀ c ∈ cs, isBareKeyChar c) (hk : cs.length < k) :
    basic? k done (cs ++ '"' :: rest) = some (.ofList (done.reverse ++ cs), rest) := by
  induction cs generalizing k done
  case nil =>
    obtain ⟨k, rfl⟩ := Nat.exists_eq_add_of_lt hk
    simp [basic?]
  case cons c cs ih =>
    obtain ⟨k, rfl⟩ : ∃ j, k = j + 1 := Nat.exists_eq_add_one_of_ne_zero (by omega)
    have hc := h c List.mem_cons_self
    rw [List.cons_append, basic?, if_pos (isPrintable_of_isBareKeyChar hc),
      ih (fun c hc => h c (List.mem_cons_of_mem _ hc)) (Nat.lt_of_succ_lt_succ hk)]
    · simp
    · exact ne_of_isBareKeyChar hc (by decide)
    · exact ne_of_isBareKeyChar hc (by decide)

theorem readsAs_quote {s : String} (h : ∀ c ∈ s.toList, isBareKeyChar c) :
    ReadsAs (Json.quote s) (.string s) := by
  have he : s.toList.flatMap Json.escaped = s.toList := by
    rw [List.flatMap_congr fun c hc => escaped_of_isBareKeyChar (h c hc), List.flatMap_singleton']
  have hq : (Json.quote s).toList = '"' :: (s.toList ++ ['"']) := by simp [Json.quote, he]
  refine readsAs_of_scalar? hq (by decide) fun rest => ?_
  have hb : basic? ((s.toList ++ '"' :: '\n' :: rest).length + 1) []
      (s.toList ++ '"' :: '\n' :: rest) =
      some (s, '\n' :: rest) := by
    rw [basic?_append h (by rw [List.length_append]; omega)]
    simp
  have hs : string? ('"' :: (s.toList ++ '"' :: '\n' :: rest)) = some (s, '\n' :: rest) := by
    rw [string?.eq_def]
    split
    case h_1 tail ht =>
      -- Two quotes in front are the whole string.
      have ht := (List.cons.inj ht).right
      cases hcs : s.toList
      case nil => simp [hcs] at ht
      case cons c cs =>
        rw [hcs] at ht
        have hc := h c (hcs ▸ List.mem_cons_self)
        exact absurd (List.cons.inj ht).left (ne_of_isBareKeyChar hc (by decide))
    case h_2 tail _ ht =>
      rw [← (List.cons.inj ht).right]
      exact hb
    case h_3 ht     => simp at ht
    case h_4 ht     => simp at ht
    case h_5 hn _ _ => exact (hn _ rfl).elim
  simp [scalar?, hs]

end Names

end Toml

end PagePrep
