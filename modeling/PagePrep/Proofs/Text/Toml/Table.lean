import Mathlib
import PagePrep.Text.Toml.Table

-- Entries of a table by their names, no two of which are the same.

namespace PagePrep.Toml

section Lookup

variable {β : Type} {entries : List (String × β)} {name : String}

theorem lookup_of_notMem (h : name ∉ entries.map Prod.fst) : entries.lookup name = none := by
  refine List.lookup_eq_none_iff.mpr fun entry he => ?_
  rw [bne_iff_ne]
  rintro rfl
  exact h (List.mem_map_of_mem he)

theorem lookup_map {α : Type} (key : α → String) (value : α → β) (as : List α) :
    (as.map fun a => (key a, value a)).lookup name = (as.find? (key · = name)).map value := by
  induction as
  case nil => rfl
  case cons a as ih =>
    by_cases h : key a = name
    case pos => simp [h]
    case neg =>
      have hne : (name == key a) = false := beq_false_of_ne (Ne.symm h)
      simp [List.lookup, hne, h, ih]

theorem get?_eq_lookup {entries : List (String × Value)} (h : (entries.map Prod.fst).Nodup) :
    Value.get? entries name = entries.lookup name := by
  rw [Value.get?]
  induction entries
  case nil => rfl
  case cons entry entries ih =>
    obtain ⟨key, v⟩ := entry
    obtain ⟨hk, hn⟩ := List.nodup_cons.mp h
    rw [List.reverse_cons, List.lookup_append, ih hn]
    by_cases he : name = key
    case pos =>
      subst he
      simp [lookup_of_notMem hk]
    case neg =>
      have hne : (name == key) = false := beq_false_of_ne he
      simp [List.lookup, hne]

end Lookup

section Entries

variable {entries : Entries} {name : String} {node node' : Node} {v : Value}

theorem find?_of_notMem (h : name ∉ entries.map Prod.fst) : entries.find? name = none :=
  lookup_of_notMem h

theorem find?_last (h : name ∉ entries.map Prod.fst) :
    Entries.find? (entries ++ [(name, node)]) name = some node := by
  have hn := lookup_of_notMem h
  rw [Entries.find?, List.lookup_append, hn]
  simp

theorem replace_last (h : name ∉ entries.map Prod.fst) :
    Entries.replace (entries ++ [(name, node)]) name node' = entries ++ [(name, node')] := by
  have hr : entries.map (fun entry => if entry.1 = name then (name, node') else entry) =
      entries := by
    refine (List.map_congr_left fun entry he => if_neg ?_).trans (List.map_id entries)
    rintro rfl
    exact h (List.mem_map_of_mem he)
  rw [Entries.replace, List.map_append, hr]
  simp

theorem assign_nil (h : name ∉ entries.map Prod.fst) :
    Entries.assign [] name v .header entries = some (entries ++ [(name, .value v)]) := by
  simp [Entries.assign, Entries.change, find?_of_notMem h, Entries.add]

theorem toValues_eq (entries : Entries) :
    toValues entries = entries.map fun entry => (entry.1, entry.2.toValue) := by
  induction entries
  case nil                => rfl
  case cons entry rest ih => rw [toValues, ih, List.map_cons]

theorem toTables_eq (items : List Entries) :
    toTables items = items.map fun entries => .table (toValues entries) := by
  induction items
  case nil                  => rfl
  case cons entries rest ih => rw [toTables, ih, List.map_cons]

end Entries

end PagePrep.Toml
