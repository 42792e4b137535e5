import Mathlib
import PagePrep.Text.Document
import PagePrep.Proofs.Text.Scan

-- What is written in JSON is read as it was meant. Each text is read together with whatever stands
-- behind it, and as many steps as it has characters are enough.

namespace PagePrep

namespace Json

open Scan

-- A text is read as a value wherever it stands in a longer one.
def ReadsAs (text : String) (v : Value) : Prop :=
  ∀ ⦃fuel : Nat⦄ ⦃rest : List Char⦄, text.length < fuel → Follows rest →
    value? fuel (text.toList ++ rest) = some (v, rest)

section Strings

variable {fuel : Nat} {c : Char} {done cs rest : List Char}

-- A control character has an escape with its number.
theorem string?_control {n : Nat} (h : n < 32) :
    string? (fuel + 1) done
        ('\\' :: 'u' :: '0' :: '0' :: Nat.digitChar (n / 16) :: Nat.digitChar (n % 16) :: rest) =
      string? fuel (Char.ofNat n :: done) rest := by
  interval_cases n <;> rfl

theorem string?_escaped :
    string? (fuel + 1) done (escaped c ++ rest) = string? fuel (c :: done) rest := by
  rw [escaped.eq_def]
  split
  case h_8 hquote hslash _ _ _ _ _ =>
    split
    case isTrue hc =>
      have hn : c.toNat < 32 := UInt32.lt_iff_toNat_lt.mp hc
      have h := @string?_control fuel done rest c.toNat hn
      rwa [Char.ofNat_toNat] at h
    case isFalse hc =>
      rw [List.singleton_append, string?, if_neg hc]
      · exact hquote
      · exact hslash
  all_goals rfl

theorem string?_flatMap_escaped (h : cs.length < fuel) :
    string? fuel done (cs.flatMap escaped ++ '"' :: rest) =
      some (.ofList (done.reverse ++ cs), rest) := by
  induction cs generalizing fuel done
  case nil =>
    obtain ⟨fuel, rfl⟩ := Nat.exists_eq_add_of_lt h
    simp [string?]
  case cons c cs ih =>
    obtain ⟨fuel, rfl⟩ : ∃ k, fuel = k + 1 := Nat.exists_eq_add_one_of_ne_zero (by omega)
    rw [List.flatMap_cons, List.append_assoc, string?_escaped, ih (Nat.lt_of_succ_lt_succ h)]
    simp

end Strings

section Numbers

variable {n : Numeral} {negative : Bool} {rest : List Char}

-- The value of a number.
def numeralValue? (negative : Bool) (n : Numeral) : Option Value :=
  if n.places.isEmpty ∧ n.exponent.isNone then whole? negative (decimalValue n.whole)
  else float? (n.decimal negative)

theorem fraction?_numeral (hr : Follows rest) :
    fraction? (n.fraction ++ (n.scale ++ rest)) = some (n.places, n.scale ++ rest) := by
  have hhead := n.head_scale hr
  by_cases hp : n.places = []
  case pos =>
    have hf : n.fraction = [] := if_pos hp
    rw [hf, List.nil_append, fraction?.eq_def, hp]
    split
    case h_1 tail ht =>
      rw [ht] at hhead
      simp at hhead
    case h_2 => rfl
  case neg =>
    have hf : n.fraction = '.' :: n.places := if_neg hp
    rw [hf]
    refine digits?_append n.places_digits hp fun c hc => ?_
    obtain rfl | rfl | rfl := hhead c hc <;> decide

theorem exponent?_numeral (hr : Follows rest) :
    exponent? (n.scale ++ rest) = some (n.exponent, rest) := by
  cases he : n.exponent
  case none =>
    have hs : n.scale = [] := by rw [Numeral.scale, he]; rfl
    rw [hs, List.nil_append, exponent?.eq_def]
    split
    case h_1 => simp [Follows] at hr
    case h_2 => simp [Follows] at hr
    case h_3 => rfl
  case some e =>
    have hs : n.scale = 'e' :: (if e < 0 then '-' else '+') :: Nat.toDigits 10 e.natAbs := by
      rw [Numeral.scale, he]
      rfl
    have hd : digits? (Nat.toDigits 10 e.natAbs ++ rest) =
        some (Nat.toDigits 10 e.natAbs, rest) := by
      refine digits?_append (fun _ => Nat.isDigit_of_mem_toDigits (by decide) (by decide))
        Nat.toDigits_ne_nil fun c hc => ?_
      obtain rfl | rfl := hr c hc <;> decide
    have hv := Numeral.signed_natAbs e
    simp [hs, exponent?, Numeral.sign_exponent, hd, decimalValue_toDigits, -Nat.cast_natAbs, hv]

theorem number?_numeral (hr : Follows rest) :
    number? ((if negative then ['-'] else []) ++ n.chars ++ rest) =
      (numeralValue? negative n).map fun v => (v, rest) := by
  have hd : digits? (n.chars ++ rest) = some (n.whole, n.fraction ++ (n.scale ++ rest)) := by
    rw [Numeral.chars, List.append_assoc, List.append_assoc]
    exact digits?_append n.whole_digits n.whole_ne_nil (n.not_isDigit_of_head hr)
  have hz : ¬(n.whole.head? = some '0' ∧ 1 < n.whole.length) := fun h =>
    Nat.ne_of_gt h.right (n.whole_head h.left)
  obtain ⟨c, cs, hc, hcs⟩ := n.exists_digit
  have hne : c ≠ '-' := by
    rintro rfl
    cases hc
  rw [number?.eq_def]
  split
  case h_1 negative' tail ht =>
    obtain ⟨rfl, rfl⟩ : negative' = negative ∧ tail = n.chars ++ rest := by
      cases negative
      case true  => exact (Prod.mk.inj ht).imp Eq.symm Eq.symm
      case false => simpa [hcs, hne, eq_comm] using ht
    simp only [hd, Option.bind_eq_bind, Option.bind_some, if_neg hz, fraction?_numeral hr,
      exponent?_numeral hr]
    rw [numeralValue?]
    split <;> exact Option.map_eq_bind.symm

end Numbers

section Values

variable {fuel : Nat} {c : Char} {blanks cs rest : List Char} {text name : String} {v : Value}

theorem skipBlanks_append (h : ∀ c ∈ blanks, isBlank c) :
    skipBlanks (blanks ++ cs) = skipBlanks cs :=
  List.dropWhile_append_of_pos h

theorem value?_append (h : ∀ c ∈ blanks, isBlank c) :
    value? fuel (blanks ++ cs) = value? fuel cs := by
  cases fuel
  case zero => rw [value?, value?]
  case succ => simp only [value?, skipBlanks_append h]

theorem value?_quote :
    value? (fuel + 1) ('"' :: cs) =
      (string? (cs.length + 1) [] cs).map fun (s, rest) => (.string s, rest) := by
  rfl

theorem value?_number (h : c = '-' ∨ c.isDigit) :
    value? (fuel + 1) (c :: cs) = number? (c :: cs) := by
  have hb : skipBlanks (c :: cs) = c :: cs := by
    have hb : ¬isBlank c := by
      intro hb
      simp only [isBlank, Bool.or_eq_true, decide_eq_true_eq] at hb
      obtain ((rfl | rfl) | rfl) | rfl := hb <;> revert h <;> decide
    simp [skipBlanks, hb]
  rw [value?, hb]
  split
  case h_7 => rfl
  all_goals
    case _ hc =>
      obtain ⟨rfl, -⟩ := List.cons.inj hc
      exact absurd h (by decide)

theorem readsAs_null : ReadsAs "null" .null := by
  intro fuel rest hf _
  obtain ⟨fuel, rfl⟩ := Nat.exists_eq_add_of_lt hf
  rfl

theorem readsAs_bool (b : Bool) : ReadsAs (Scalar.bool b).toJson (.bool b) := by
  intro fuel rest hf _
  obtain ⟨fuel, rfl⟩ := Nat.exists_eq_add_of_lt hf
  cases b <;> rfl

theorem length_le_flatMap_escaped : cs.length ≤ (cs.flatMap escaped).length := by
  induction cs
  case nil          => exact Nat.le_refl _
  case cons c cs ih =>
    have hc : 1 ≤ (escaped c).length := by
      rw [escaped.eq_def]
      split
      case h_8 => split <;> simp
      all_goals simp
    rw [List.flatMap_cons, List.length_append, List.length_cons]
    omega

theorem readsAs_quote (s : String) : ReadsAs (quote s) (.string s) := by
  intro fuel rest hf _
  obtain ⟨fuel, rfl⟩ := Nat.exists_eq_add_of_lt hf
  have hq : (quote s).toList ++ rest = '"' :: (s.toList.flatMap escaped ++ '"' :: rest) := by
    simp [quote]
  have hlen := @length_le_flatMap_escaped s.toList
  have hs : string? ((s.toList.flatMap escaped ++ '"' :: rest).length + 1) []
      (s.toList.flatMap escaped ++ '"' :: rest) = some (s, rest) := by
    rw [string?_flatMap_escaped (by rw [List.length_append]; omega)]
    simp
  rw [hq, value?_quote, hs]
  rfl

theorem value?_numeral {negative : Bool} {n : Numeral} (hr : Follows rest) :
    value? (fuel + 1) ((if negative then ['-'] else []) ++ n.chars ++ rest) =
      (numeralValue? negative n).map fun v => (v, rest) := by
  rw [← number?_numeral hr]
  cases negative
  case true => exact value?_number (.inl rfl)
  case false =>
    obtain ⟨c, cs, hc, hcs⟩ := n.exists_digit
    rw [hcs]
    exact value?_number (.inr hc)

theorem readsAs_numeral {negative : Bool} {n : Numeral} (hv : numeralValue? negative n = some v)
    (ht : text.toList = (if negative then ['-'] else []) ++ n.chars) : ReadsAs text v := by
  intro fuel rest hf hr
  obtain ⟨fuel, rfl⟩ := Nat.exists_eq_add_of_lt hf
  rw [ht, value?_numeral hr, hv, Option.map_some]

end Values

section Objects

variable {fuel : Nat} {indent blanks cs rest : List Char} {name text : String} {v : Value}
  {entries : List (String × String)} {values : List (String × Value)}

theorem string?_quote (s : String) :
    string? ((s.toList.flatMap escaped ++ '"' :: rest).length + 1) []
      (s.toList.flatMap escaped ++ '"' :: rest) = some (s, rest) := by
  have hlen := @length_le_flatMap_escaped s.toList
  rw [string?_flatMap_escaped (by rw [List.length_append]; omega)]
  simp

section Lines

variable {indent : String} (hi : ∀ c ∈ indent.toList, isBlank c) (hb : ∀ c ∈ blanks, isBlank c)
include hi hb

theorem entries?_line (hv : ReadsAs text v) (hf : text.length < fuel) (hr : Follows rest) :
    entries? (fuel + 1) (blanks ++ (indent ++ "  " ++ quote name ++ ": " ++ text).toList ++ rest) =
      match skipBlanks rest with
      | ',' :: rest =>
        (entries? fuel rest).map fun (entries, rest) => ((name, v) :: entries, rest)
      | '}' :: rest => some ([(name, v)], rest)
      | _           => none := by
  have hq : blanks ++ (indent ++ "  " ++ quote name ++ ": " ++ text).toList ++ rest =
      blanks ++ indent.toList ++ [' ', ' '] ++
        '"' :: (name.toList.flatMap escaped ++ '"' :: ':' :: ' ' :: (text.toList ++ rest)) := by
    simp [quote]
  have hblank : ∀ c ∈ blanks ++ indent.toList ++ [' ', ' '], isBlank c := by
    simp only [List.mem_append, List.mem_cons, List.not_mem_nil, or_false]
    rintro c ((hc | hc) | rfl | rfl)
    · exact hb c hc
    · exact hi c hc
    all_goals rfl
  have hs := @string?_quote (':' :: ' ' :: (text.toList ++ rest)) name
  have hval : value? fuel (' ' :: (text.toList ++ rest)) = some (v, rest) :=
    (@value?_append fuel [' '] (text.toList ++ rest) (by simp; decide)).trans (hv hf hr)
  have hopen (cs : List Char) : word? ['"'] (skipBlanks ('"' :: cs)) = some cs := rfl
  have hcolon (cs : List Char) : word? [':'] (skipBlanks (':' :: cs)) = some cs := rfl
  rw [hq, entries?, skipBlanks_append hblank, hopen]
  simp only [Option.bind_eq_bind, Option.bind_some, hs, hcolon, hval]
  rfl

-- The lines of the entries of an object.
def entryLines (indent : String) (entries : List (String × String)) : List String :=
  entries.map fun (name, value) => indent ++ "  " ++ quote name ++ ": " ++ value

theorem entries?_entryLines
    (h : List.Forall₂ (fun e v => e.1 = v.1 ∧ ReadsAs e.2 v.2) entries values) (hne : entries ≠ [])
    (hf : (",\n".intercalate (entryLines indent entries)).length < fuel) :
    entries? fuel (blanks ++ (",\n".intercalate (entryLines indent entries)).toList ++
      '\n' :: (indent.toList ++ '}' :: rest)) = some (values, rest) := by
  induction h generalizing blanks fuel
  case nil => exact absurd rfl hne
  case cons e v entries values hev htail ih =>
    obtain ⟨fuel, rfl⟩ : ∃ k, fuel = k + 1 := Nat.exists_eq_add_one_of_ne_zero (by omega)
    obtain ⟨name, text⟩ := e
    obtain ⟨name', v⟩ := v
    obtain ⟨hname, hv⟩ : name = name' ∧ ReadsAs text v := hev
    subst hname
    have hcolon : ": ".length = 2 := rfl
    cases htail
    case nil =>
      have hclose : skipBlanks ('\n' :: (indent.toList ++ '}' :: rest)) = '}' :: rest :=
        @skipBlanks_append ('\n' :: indent.toList) ('}' :: rest) (by simpa using ⟨rfl, hi⟩)
      simp only [entryLines, List.map_cons, List.map_nil, String.intercalate_singleton,
        String.length_append] at hf ⊢
      rw [entries?_line hi hb hv (by omega) (Follows.newline _), hclose]
      rfl
    case cons e v' entries values hev' htail =>
      have hcomma (cs : List Char) : skipBlanks (',' :: cs) = ',' :: cs := rfl
      simp only [entryLines, List.map_cons, String.intercalate_cons_cons, String.length_append]
        at hf ih ⊢
      have htail := @ih fuel ['\n'] (by simp; rfl) (List.cons_ne_nil _ _) (by omega)
      have hcs (cs cs' : List Char) : cs ++ ",\n".toList ++ cs' = cs ++ ',' :: (['\n'] ++ cs') := by
        simp
      rw [String.toList_append, String.toList_append, hcs, ← List.append_assoc,
        List.append_assoc _ _ ('\n' :: _), List.cons_append,
        entries?_line hi hb hv (by omega) (Follows.comma _), hcomma]
      simp only [htail]
      rfl

end Lines

theorem entries?_skipBlanks : entries? fuel (skipBlanks cs) = entries? fuel cs := by
  cases fuel
  case zero => rw [entries?, entries?]
  case succ =>
    have hs : skipBlanks (skipBlanks cs) = skipBlanks cs := List.dropWhile_idempotent _ _
    simp only [entries?, hs]

theorem value?_entries (h : entries? fuel cs = some (values, rest)) :
    value? (fuel + 1) ('{' :: cs) = some (.table values, rest) := by
  have ho : skipBlanks ('{' :: cs) = '{' :: cs := rfl
  simp only [value?, ho]
  split
  case h_1 tail hc =>
    -- No name of an entry begins with the bracket.
    rw [← entries?_skipBlanks, hc] at h
    cases fuel
    case zero => simp [entries?] at h
    case succ =>
      have hw : word? ['"'] (skipBlanks ('}' :: tail)) = none := rfl
      simp [entries?, hw] at h
  case h_2 => rw [entries?_skipBlanks, h]; rfl

theorem value?_nil (hb : ∀ c ∈ blanks, isBlank c) :
    value? (fuel + 1) ('{' :: (blanks ++ '}' :: rest)) = some (.table [], rest) := by
  have ho (cs : List Char) : skipBlanks ('{' :: cs) = '{' :: cs := rfl
  have hc : skipBlanks ('}' :: rest) = '}' :: rest := rfl
  simp only [value?, ho, skipBlanks_append hb, hc]

-- The values of the entries make up that of the object.
theorem readsAs_jsonObject {indent : String} (hi : ∀ c ∈ indent.toList, isBlank c)
    (h : List.Forall₂ (fun e v => e.1 = v.1 ∧ ReadsAs e.2 v.2) entries values) :
    ReadsAs (Document.jsonObject indent entries) (.table values) := by
  intro fuel rest hf _
  obtain ⟨fuel, rfl⟩ : ∃ k, fuel = k + 1 := Nat.exists_eq_add_one_of_ne_zero (by omega)
  have ht : Document.jsonObject indent entries =
      "\x7b\n" ++ ",\n".intercalate (entryLines indent entries) ++ "\n" ++ indent ++ "\x7d" := rfl
  have hl : (Document.jsonObject indent entries).toList ++ rest =
      '{' :: (['\n'] ++ (",\n".intercalate (entryLines indent entries)).toList ++
        '\n' :: (indent.toList ++ '}' :: rest)) := by
    simp [ht]
  rw [hl]
  by_cases hne : entries = []
  case pos =>
    subst hne
    cases h
    have hb : ∀ c ∈ '\n' :: '\n' :: indent.toList, isBlank c := by simpa using ⟨rfl, hi⟩
    simpa [entryLines] using @value?_nil fuel ('\n' :: '\n' :: indent.toList) rest hb
  case neg =>
    refine value?_entries (entries?_entryLines hi (by simp; rfl) h hne ?_)
    have hn : "\n".length = 1 := rfl
    rw [ht] at hf
    simp only [String.length_append] at hf
    omega

theorem parse?_of_readsAs (h : ReadsAs text v) : parse? text = some v := by
  have hv : value? (text.toList.length + 1) text.toList = some (v, []) := by
    have hf : text.length < text.toList.length + 1 := by rw [String.length_toList]; omega
    simpa using h hf Follows.nil
  simp only [parse?, hv]
  rfl

-- A number that is all of a text.
theorem parse?_numeral {negative : Bool} {n : Numeral}
    (ht : text.toList = (if negative then ['-'] else []) ++ n.chars) :
    parse? text = numeralValue? negative n := by
  have hv := @value?_numeral text.length [] negative n Follows.nil
  rw [List.append_nil, ← ht] at hv
  simp only [parse?, String.length_toList, hv]
  cases numeralValue? negative n <;> rfl

end Objects

end Json

end PagePrep
