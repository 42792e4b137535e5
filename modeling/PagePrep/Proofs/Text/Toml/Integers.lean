import Mathlib
import PagePrep.Text.Toml.Reader
import PagePrep.Proofs.Text.Toml.Table

-- No integer of a text that is read as TOML needs more than 64 bits with a sign. A number is only
-- read if it fits, and neither the values nor the tables around it add any.

namespace PagePrep.Toml

open Scan

-- All integers fit.
inductive Fits : Value → Prop where
  | null : Fits .null
  | bool (b : Bool) : Fits (.bool b)
  | int {n : Int} (h : n < Value.signedBound) : Fits (.int n)
  | float (x : Float) : Fits (.float x)
  | string (s : String) : Fits (.string s)
  | moment : Fits .moment
  | array {items : List Value} (h : ∀ v ∈ items, Fits v) : Fits (.array items)
  | table {entries : List (String × Value)} (h : ∀ entry ∈ entries, Fits entry.2) :
    Fits (.table entries)

inductive FitsNode : Node → Prop where
  | value {v : Value} (h : Fits v) : FitsNode (.value v)
  | table {origin : Origin} {entries : Entries} (h : ∀ entry ∈ entries, FitsNode entry.2) :
    FitsNode (.table origin entries)
  | tables {items : List Entries} (h : ∀ entries ∈ items, ∀ entry ∈ entries, FitsNode entry.2) :
    FitsNode (.tables items)

def FitsEntries (entries : Entries) : Prop :=
  ∀ entry ∈ entries, FitsNode entry.2

section Scalars

variable {cs rest : List Char} {v : Value} {negative : Bool}

theorem fits_int? {n : Int} (h : int? n = some v) : Fits v := by
  rw [int?] at h
  split at h
  case isTrue hn => cases h; exact .int hn.right
  case isFalse   => cases h

theorem fits_float? {d : Decimal} (h : float? d = some v) : Fits v := by
  simp only [float?] at h
  split at h
  case isTrue  => cases h
  case isFalse => cases h; exact .float _

theorem fits_special? (h : special? negative cs = some (v, rest)) : Fits v := by
  rw [special?] at h
  split at h <;> cases h <;> exact .float _

theorem fits_radix? {base : Nat} {isDigit : Char → Bool}
    (h : radix? base isDigit cs = some (v, rest)) : Fits v := by
  simp only [radix?, Option.bind_eq_bind, Option.bind_eq_some_iff, Option.pure_def,
    Option.some.injEq] at h
  obtain ⟨_, -, _, hv, he⟩ := h
  cases he
  exact fits_int? hv

theorem fits_decimal? (h : decimal? cs = some (v, rest)) : Fits v := by
  simp only [decimal?] at h
  split at h
  case h_1 hs => cases h; exact fits_special? hs
  case h_2 =>
    simp only [Option.bind_eq_bind, Option.bind_eq_some_iff, Option.pure_def] at h
    obtain ⟨_, -, _, -, _, -, h⟩ := h
    split at h
    case isTrue =>
      obtain ⟨_, hv, he⟩ := Option.bind_eq_some_iff.mp h
      cases he
      exact fits_int? hv
    case isFalse =>
      obtain ⟨_, hv, he⟩ := Option.bind_eq_some_iff.mp h
      cases he
      exact fits_float? hv

theorem fits_number? (h : number? cs = some (v, rest)) : Fits v := by
  rw [number?.eq_def] at h
  split at h
  case h_4 => exact fits_decimal? h
  all_goals exact fits_radix? h

theorem fits_scalar? (h : scalar? cs = some (v, rest)) : Fits v := by
  rw [scalar?.eq_def] at h
  split at h
  case h_5 =>
    split at h
    case h_1 => cases h; exact .moment
    case h_2 => exact fits_number? h
  all_goals
    obtain ⟨_, -, he⟩ := Option.map_eq_some_iff.mp h
    cases he
  case h_1 => exact .string _
  case h_2 => exact .string _
  case h_3 => exact .bool _
  case h_4 => exact .bool _

end Scalars

section Tables

variable {entries entries' : Entries} {key : String} {node : Node} {path : List String}
  {origin : Origin} {v : Value}

theorem fits_add (h : FitsEntries entries) (hn : FitsNode node) :
    FitsEntries (entries.add key node) := by
  intro entry he
  obtain he | he := List.mem_append.mp he
  case inl => exact h entry he
  case inr => rw [List.mem_singleton.mp he]; exact hn

theorem fits_replace (h : FitsEntries entries) (hn : FitsNode node) :
    FitsEntries (entries.replace key node) := by
  intro entry he
  obtain ⟨entry', he', rfl⟩ := List.mem_map.mp he
  split
  case isTrue  => exact hn
  case isFalse => exact h entry' he'

theorem fits_of_find? (h : FitsEntries entries) (hf : entries.find? key = some node) :
    FitsNode node := by
  obtain ⟨_, _, rfl, -⟩ := List.lookup_eq_some_iff.mp hf
  exact h _ (List.mem_append_right _ List.mem_cons_self)

-- What is preserved at the end of a path is preserved around it.
theorem fits_change {viaDots : Bool} {f : Origin → Entries → Option Entries}
    (hf : ∀ {origin entries entries'}, FitsEntries entries → f origin entries = some entries' →
      FitsEntries entries')
    (h : FitsEntries entries) (hc : Entries.change viaDots f path origin entries = some entries') :
    FitsEntries entries' := by
  induction path generalizing origin entries entries'
  case nil => exact hf h hc
  case cons key path ih =>
    rw [Entries.change] at hc
    split at hc
    case h_1 =>
      obtain ⟨sub, hsub, rfl⟩ := Option.map_eq_some_iff.mp hc
      exact fits_add h (.table (ih (List.forall_mem_nil _) hsub))
    case h_2 hn =>
      split at hc
      case isTrue => cases hc
      case isFalse =>
        obtain ⟨sub, hsub, rfl⟩ := Option.map_eq_some_iff.mp hc
        cases fits_of_find? h hn
        case table hs => exact fits_replace h (.table (ih hs hsub))
    case h_3 hn =>
      split at hc
      case h_1 => cases hc
      case h_2 last hl =>
        obtain ⟨sub, hsub, rfl⟩ := Option.map_eq_some_iff.mp hc
        cases fits_of_find? h hn
        case tables hs =>
          refine fits_replace h (.tables fun entries he => ?_)
          obtain he | he := List.mem_append.mp he
          case inl => exact hs entries (List.mem_of_mem_dropLast he)
          case inr =>
            rw [List.mem_singleton.mp he]
            exact ih (hs last (List.mem_of_getLast? hl)) hsub
    case h_4 => cases hc

theorem fits_assign (hv : Fits v) (h : FitsEntries entries)
    (ha : Entries.assign path key v origin entries = some entries') : FitsEntries entries' := by
  refine fits_change (fun he hf => ?_) h ha
  split at hf
  case isTrue => cases hf
  case isFalse =>
    split at hf
    case isTrue  => cases hf
    case isFalse => cases hf; exact fits_add he (.value hv)

theorem fits_openTable (h : FitsEntries entries)
    (ho : Entries.openTable path key entries = some entries') : FitsEntries entries' := by
  refine fits_change (fun he hf => ?_) h ho
  split at hf
  case h_1 => cases hf; exact fits_add he (.table (List.forall_mem_nil _))
  case h_2 hn =>
    cases hf
    cases fits_of_find? he hn
    case table hs => exact fits_replace he (.table hs)
  case h_3 => cases hf

theorem fits_openItem (h : FitsEntries entries)
    (ho : Entries.openItem path key entries = some entries') : FitsEntries entries' := by
  have hnil : ∀ entry ∈ ([] : Entries), FitsNode entry.2 := List.forall_mem_nil _
  refine fits_change (fun he hf => ?_) h ho
  split at hf
  case h_1 =>
    cases hf
    exact fits_add he (.tables (by simp))
  case h_2 hn =>
    cases hf
    cases fits_of_find? he hn
    case tables hs =>
      refine fits_replace he (.tables fun entries hm => ?_)
      obtain hm | hm := List.mem_append.mp hm
      case inl => exact hs entries hm
      case inr => rw [List.mem_singleton.mp hm]; exact hnil
  case h_3 => cases hf

theorem FitsNode.toValue (h : FitsNode node) : Fits node.toValue := by
  induction h
  case value hv => rw [Node.toValue]; exact hv
  case table ih =>
    rw [Node.toValue, toValues_eq]
    refine .table fun entry he => ?_
    obtain ⟨entry, hm, rfl⟩ := List.mem_map.mp he
    exact ih entry hm
  case tables ih =>
    rw [Node.toValue, toTables_eq]
    refine .array fun v hv => ?_
    obtain ⟨entries, he, rfl⟩ := List.mem_map.mp hv
    rw [toValues_eq]
    refine .table fun entry hm => ?_
    obtain ⟨entry, hm', rfl⟩ := List.mem_map.mp hm
    exact ih entries he entry hm'

theorem fits_toValues (h : FitsEntries entries) : Fits (.table (toValues entries)) := by
  have hn := @FitsNode.toValue (.table .header entries) (.table h)
  rwa [Node.toValue] at hn

end Tables

section Values

variable {fuel depth : Nat} {cs rest : List Char} {v : Value}

-- The readers of a value, of items and of pairs read each other's parts with less fuel.
def ValuesFit (fuel : Nat) : Prop :=
  ∀ {depth cs v rest}, value? fuel depth cs = some (v, rest) → Fits v

def ItemsFit (fuel : Nat) : Prop :=
  ∀ {depth cs items rest}, items? fuel depth cs = some (items, rest) → ∀ v ∈ items, Fits v

def PairsFit (fuel : Nat) : Prop :=
  ∀ {depth entries cs entries' rest}, FitsEntries entries →
    pairs? fuel depth entries cs = some (entries', rest) → FitsEntries entries'

theorem valuesFit_succ (hi : ItemsFit fuel) (hp : PairsFit fuel) : ValuesFit (fuel + 1) := by
  intro depth cs v rest h
  rw [value?.eq_def] at h
  split at h
  case h_1 h' => cases h'
  case h_2 h' =>
    cases h'
    split at h
    case h_1 =>
      split at h
      case h_1 => cases h
      case h_2 =>
        obtain ⟨_, hs, he⟩ := Option.map_eq_some_iff.mp h
        cases he
        exact .array (hi hs)
    case h_2 =>
      split at h
      case h_1 => cases h
      case h_2 =>
        split at h
        case h_1 => cases h; exact .table (List.forall_mem_nil _)
        case h_2 =>
          obtain ⟨_, hs, he⟩ := Option.map_eq_some_iff.mp h
          cases he
          exact fits_toValues (hp (List.forall_mem_nil _) hs)
    case h_3 => exact fits_scalar? h

theorem itemsFit_succ (hv : ValuesFit fuel) (hi : ItemsFit fuel) : ItemsFit (fuel + 1) := by
  intro depth cs items rest h
  rw [items?] at h
  split at h
  case h_1 => cases h; exact List.forall_mem_nil _
  case h_2 =>
    split at h
    case h_1 => cases h
    case h_2 hitem =>
      split at h
      case h_1 =>
        obtain ⟨_, hs, he⟩ := Option.map_eq_some_iff.mp h
        cases he
        exact List.forall_mem_cons.mpr ⟨hv hitem, hi hs⟩
      case h_2 => cases h; exact List.forall_mem_singleton.mpr (hv hitem)
      case h_3 => cases h

theorem pairsFit_succ (hv : ValuesFit fuel) (hp : PairsFit fuel) : PairsFit (fuel + 1) := by
  intro depth entries cs entries' rest he h
  simp only [pairs?, Option.bind_eq_bind, Option.bind_eq_some_iff, Option.pure_def] at h
  obtain ⟨_, -, _, -, _, hvalue, _, ha, h⟩ := h
  have hadded := fits_assign (hv hvalue) he ha
  split at h
  case h_1 => exact hp hadded h
  case h_2 => cases h; exact hadded
  case h_3 => cases h

theorem readersFit (fuel : Nat) : ValuesFit fuel ∧ ItemsFit fuel ∧ PairsFit fuel := by
  induction fuel
  case zero =>
    refine ⟨fun h => ?_, fun h => ?_, fun _ h => ?_⟩
    · rw [value?] at h; cases h
    · rw [items?] at h; cases h
    · rw [pairs?] at h; cases h
  case succ fuel ih =>
    obtain ⟨hv, hi, hp⟩ := ih
    exact ⟨valuesFit_succ hi hp, itemsFit_succ hv hi, pairsFit_succ hv hp⟩

end Values

section Lines

variable {r r' : Reader} {fuel : Nat} {line : Line} {cs rest : List Char} {v : Value}

theorem fits_line? {path : List String} {key : String}
    (h : line? cs = some (.assign path key v, rest)) : Fits v := by
  rw [line?.eq_def] at h
  split at h
  case h_7 =>
    simp only [Option.bind_eq_bind, Option.bind_eq_some_iff, Option.pure_def] at h
    obtain ⟨_, -, _, -, _, hv, he⟩ := h
    cases he
    exact (readersFit _).left hv
  case h_5 => simp [Option.bind_eq_some_iff] at h
  case h_6 => simp [Option.bind_eq_some_iff] at h
  all_goals cases h

theorem fits_addLine (hr : FitsEntries r.root)
    (hl : ∀ path key v, line = .assign path key v → Fits v) (h : r.add line = some r') :
    FitsEntries r'.root := by
  cases line
  case blank => cases h; exact hr
  case header =>
    obtain ⟨_, hs, rfl⟩ := Option.map_eq_some_iff.mp h
    exact fits_openTable hr hs
  case itemHeader =>
    obtain ⟨_, hs, rfl⟩ := Option.map_eq_some_iff.mp h
    exact fits_openItem hr hs
  case assign path key v =>
    obtain ⟨_, hs, rfl⟩ := Option.map_eq_some_iff.mp h
    refine fits_change (fun he hf => ?_) hr hs
    exact fits_assign (hl path key v rfl) he hf

theorem fits_lines? (hr : FitsEntries r.root) (h : Reader.lines? fuel r cs = some r') :
    FitsEntries r'.root := by
  induction fuel generalizing r cs
  case zero => cases h
  case succ fuel ih =>
    simp only [Reader.lines?, Option.bind_eq_bind, Option.bind_eq_some_iff, Option.pure_def] at h
    obtain ⟨⟨line, rest⟩, hl, r₁, ha, _, -, h⟩ := h
    have hr₁ : FitsEntries r₁.root := by
      refine fits_addLine hr (fun path key v he => ?_) ha
      subst he
      exact fits_line? hl
    split at h
    case h_1 => cases h; exact hr₁
    case h_2 => exact ih hr₁ h

theorem fits_parse? {text : String} (h : parse? text = some v) : Fits v := by
  obtain ⟨_, hr, rfl⟩ := Option.map_eq_some_iff.mp h
  have hnil : FitsEntries (Reader.mk [] []).root := List.forall_mem_nil _
  exact fits_toValues (fits_lines? hnil hr)

end Lines

end PagePrep.Toml
