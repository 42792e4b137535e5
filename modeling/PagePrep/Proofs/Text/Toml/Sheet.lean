import Mathlib
import PagePrep.Proofs.Text.Toml.Scalar
import PagePrep.Proofs.Text.Toml.Table

-- A text of sections, with a setting on each line, is read as the table of its sections. The
-- reader takes one line after the other, so what a text says is what its lines add in turn.

namespace PagePrep.Toml

open Scan

section Lines

variable {fuel : Nat} {cs cs' rest : List Char} {line : Line} {ls ls' : List Line} {r : Reader}

-- A text made of lines.
inductive Lines : List Char → List Line → Prop where
  | nil : Lines [] []
  | cons {cs cs' : List Char} {line : Line} {ls : List Line}
      (h : ∀ rest, line? (skipBlanks (cs ++ '\n' :: rest)) = some (line, '\n' :: rest))
      (tail : Lines cs' ls) : Lines (cs ++ '\n' :: cs') (line :: ls)

namespace Lines

theorem single (h : ∀ rest, line? (skipBlanks (cs ++ '\n' :: rest)) = some (line, '\n' :: rest)) :
    Lines (cs ++ ['\n']) [line] :=
  .cons h .nil

theorem blank : Lines ['\n'] [.blank] :=
  @single [] .blank fun _ => rfl

theorem append (h : Lines cs ls) (h' : Lines cs' ls') : Lines (cs ++ cs') (ls ++ ls') := by
  induction h
  case nil => exact h'
  case cons hline _ ih =>
    rw [List.append_assoc]
    exact .cons hline ih

theorem length_le (h : Lines cs ls) : ls.length ≤ cs.length := by
  induction h
  case nil => exact Nat.le_refl _
  case cons ih =>
    rw [List.length_append, List.length_cons, List.length_cons]
    omega

theorem lines?_eq (h : Lines cs ls) (hf : ls.length < fuel) :
    Reader.lines? fuel r cs = ls.foldlM Reader.add r := by
  induction h generalizing fuel r
  case nil =>
    obtain ⟨fuel, rfl⟩ := Nat.exists_eq_add_of_lt hf
    rfl
  case cons cs cs' line ls hline htail ih =>
    obtain ⟨fuel, rfl⟩ : ∃ k, fuel = k + 1 := Nat.exists_eq_add_one_of_ne_zero (by omega)
    have hend : lineEnd? ('\n' :: cs') = some cs' := rfl
    rw [Reader.lines?, hline, List.foldlM_cons]
    cases ha : r.add line
    case none => simp [ha]
    case some r' =>
      have hf' : ls.length < fuel := Nat.lt_of_succ_lt_succ hf
      have htail := @ih fuel r' hf'
      simp only [Option.bind_eq_bind, Option.bind_some, ha, hend, ← htail]
      -- At the end of the text there is one more line, which is blank.
      cases cs'
      case nil =>
        obtain ⟨fuel, rfl⟩ := Nat.exists_eq_add_of_lt hf'
        rfl
      case cons => rfl

-- No line begins with a byte order mark.
theorem head?_ne (h : Lines cs ls) : cs.head? ≠ some '\ufeff' := by
  cases h
  case nil => simp
  case cons cs cs' line ls hline _ =>
    cases cs
    case nil => simp
    case cons c cs =>
      rintro hc
      cases hc
      have hnone : line? (skipBlanks ('\ufeff' :: cs ++ '\n' :: [])) = none := rfl
      cases hnone.symm.trans (hline [])

theorem parse?_eq {text : String} (h : Lines text.toList ls) :
    parse? text = (ls.foldlM Reader.add ⟨[], []⟩).map fun r => .table (toValues r.root) := by
  have hl : Reader.lines? (text.toList.length + 1) ⟨[], []⟩ text.toList =
      ls.foldlM Reader.add ⟨[], []⟩ :=
    h.lines?_eq (Nat.lt_succ_of_le h.length_le)
  rw [parse?, ← hl]
  split
  case h_1 ht => exact absurd (by rw [ht]; rfl) h.head?_ne
  case h_2    => rfl

end Lines

end Lines

section Keys

variable {fuel : Nat} {key : String} {rest : List Char}

-- A name that needs no quotes.
def IsBare (name : String) : Prop :=
  name ≠ "" ∧ ∀ c ∈ name.toList, isBareKeyChar c

theorem IsBare.exists_cons (h : IsBare key) :
    ∃ c cs, isBareKeyChar c ∧ key.toList = c :: cs := by
  have hne : key.toList ≠ [] := fun hn => h.left (String.toList_eq_nil_iff.mp hn)
  obtain ⟨c, cs, hcs⟩ := List.exists_cons_of_ne_nil hne
  exact ⟨c, cs, h.right c (hcs ▸ List.mem_cons_self), hcs⟩

theorem skipBlanks_bare (h : IsBare key) :
    skipBlanks (key.toList ++ rest) = key.toList ++ rest := by
  obtain ⟨c, cs, hc, hcs⟩ := h.exists_cons
  have hspace : c ≠ ' ' := ne_of_isBareKeyChar hc (by decide)
  have htab : c ≠ '\t' := ne_of_isBareKeyChar hc (by decide)
  simp [hcs, skipBlanks, isBlank, hspace, htab]

theorem simpleKey?_bare (h : IsBare key) (hr : ∀ c ∈ rest.head?, ¬isBareKeyChar c) :
    simpleKey? (key.toList ++ rest) = some (key, rest) := by
  obtain ⟨c, cs, hc, hcs⟩ := h.exists_cons
  have hs := span_append h.right hr
  rw [simpleKey?.eq_def]
  split
  case h_1 ht =>
    rw [hcs] at ht
    exact absurd (List.cons.inj ht).left (ne_of_isBareKeyChar hc (by decide))
  case h_2 ht =>
    rw [hcs] at ht
    exact absurd (List.cons.inj ht).left (ne_of_isBareKeyChar hc (by decide))
  case h_3 =>
    rw [hs, hcs]
    simp only
    rw [← hcs, String.ofList_toList]

-- Blanks may stand between a key and what is behind it.
theorem key?_bare (h : IsBare key) (hr : ∀ c ∈ rest.head?, ¬isBareKeyChar c)
    (hdot : (skipBlanks rest).head? ≠ some '.') :
    key? (fuel + 1) (key.toList ++ rest) = some (([], key), skipBlanks rest) := by
  simp only [key?, skipBlanks_bare h, simpleKey?_bare h hr, Option.bind_eq_bind, Option.bind_some]
  split
  case h_1 ht => exact absurd (by rw [ht]; rfl) hdot
  case h_2    => rfl

end Keys

-- A key with the text of its value.
structure Setting where
  key   : String
  text  : String
  value : Value
  bare  : IsBare key
  reads : ReadsAs text value

structure Part where
  name     : String
  settings : List Setting
  bare     : IsBare name
  nodup    : (settings.map Setting.key).Nodup

-- Settings of no part come first.
structure Sheet where
  others : List Setting
  parts  : List Part
  nodup  : (others.map Setting.key ++ parts.map Part.name).Nodup

namespace Setting

def line (s : Setting) : String :=
  s.key ++ " = " ++ s.text ++ "\n"

-- What the reader keeps of it, and what that says.
def node (s : Setting) : String × Node :=
  (s.key, .value s.value)

def entry (s : Setting) : String × Value :=
  (s.key, s.value)

theorem lines (s : Setting) : Lines s.line.toList [.assign [] s.key s.value] := by
  have ht : s.line.toList = s.key.toList ++ ' ' :: '=' :: ' ' :: s.text.toList ++ ['\n'] := by
    simp [line]
  rw [ht]
  refine .single fun rest => ?_
  obtain ⟨c, cs, hc, hcs⟩ := s.bare.exists_cons
  have hk : key? maxDepth.pred
      (s.key.toList ++ (' ' :: '=' :: ' ' :: s.text.toList ++ '\n' :: rest)) =
        some (([], s.key), '=' :: ' ' :: (s.text.toList ++ '\n' :: rest)) :=
    key?_bare s.bare (by simp; decide) (by simp [skipBlanks, isBlank])
  have heq (cs : List Char) : word? ['='] ('=' :: cs) = some cs := rfl
  have hblank : skipBlanks (' ' :: (s.text.toList ++ '\n' :: rest)) =
      skipBlanks (s.text.toList ++ '\n' :: rest) := rfl
  have hne {d : Char} {tail : List Char} (hd : ¬isBareKeyChar d) :
      s.key.toList ++ (' ' :: '=' :: ' ' :: s.text.toList ++ '\n' :: rest) ≠ d :: tail := by
    rw [hcs]
    exact fun h => ne_of_isBareKeyChar hc hd (List.cons.inj h).left
  rw [List.append_assoc, skipBlanks_bare s.bare, line?.eq_def]
  split
  case h_1 h => simp at h
  case h_7 =>
    simp only [hk, Option.bind_eq_bind, Option.bind_some, heq, hblank, s.reads rest]
    rfl
  all_goals
    case _ h => exact absurd h (hne (by decide))

end Setting

namespace Part

def text (p : Part) : String :=
  "[" ++ p.name ++ "]\n" ++ String.join (p.settings.map Setting.line)

def node (p : Part) : String × Node :=
  (p.name, .table .header (p.settings.map Setting.node))

def entry (p : Part) : String × Value :=
  (p.name, .table (p.settings.map Setting.entry))

theorem header_lines (p : Part) : Lines ("[" ++ p.name ++ "]\n").toList [.header [] p.name] := by
  have ht : ("[" ++ p.name ++ "]\n").toList = '[' :: (p.name.toList ++ [']']) ++ ['\n'] := by simp
  rw [ht]
  refine .single fun rest => ?_
  obtain ⟨c, cs, hc, hcs⟩ := p.bare.exists_cons
  have hk : key? maxDepth.pred (p.name.toList ++ (']' :: '\n' :: rest)) =
      some (([], p.name), ']' :: '\n' :: rest) :=
    key?_bare p.bare (by simp; decide) (by simp [skipBlanks, isBlank])
  have hclose (cs : List Char) : word? [']'] (']' :: cs) = some cs := rfl
  have hs : skipBlanks ('[' :: (p.name.toList ++ [']']) ++ '\n' :: rest) =
      '[' :: (p.name.toList ++ (']' :: '\n' :: rest)) := by
    simp [skipBlanks, isBlank]
  have hne (tail : List Char) : p.name.toList ++ (']' :: '\n' :: rest) ≠ '[' :: tail := by
    rw [hcs]
    exact fun h => ne_of_isBareKeyChar hc (by decide) (List.cons.inj h).left
  rw [hs, line?.eq_def]
  split
  case h_5 h => exact absurd (List.cons.inj h).right (hne _)
  case h_6 h =>
    rw [← (List.cons.inj h).right]
    simp only [hk, Option.bind_eq_bind, Option.bind_some, hclose]
    rfl
  case h_7 h => exact absurd rfl (h _)
  all_goals
    case _ h => simp at h

end Part

-- What a setting says to the reader.
def Setting.assignment (s : Setting) : Line :=
  .assign [] s.key s.value

theorem lines_settings (settings : List Setting) :
    Lines (String.join (settings.map Setting.line)).toList (settings.map Setting.assignment) := by
  induction settings
  case nil            => exact .nil
  case cons s tail ih =>
    rw [List.map_cons, String.join_cons, String.toList_append]
    exact s.lines.append ih

def Part.lines (p : Part) : List Line :=
  .header [] p.name :: p.settings.map Setting.assignment

theorem Part.lines_text (p : Part) : Lines p.text.toList p.lines := by
  rw [text, String.toList_append]
  exact p.header_lines.append (lines_settings p.settings)

section Tables

variable {root sub : Entries} {name key : String} {v : Value} {opened : List String}

theorem add_header (h : name ∉ root.map Prod.fst) :
    Reader.add ⟨root, opened⟩ (.header [] name) =
      some ⟨root ++ [(name, .table .header [])], [name]⟩ := by
  simp [Reader.add, Entries.openTable, Entries.change, find?_of_notMem h, Entries.add]

theorem add_other (h : key ∉ root.map Prod.fst) :
    Reader.add ⟨root, []⟩ (.assign [] key v) = some ⟨root ++ [(key, .value v)], []⟩ := by
  simp [Reader.add, Entries.change, assign_nil h]

theorem add_assignment (hn : name ∉ root.map Prod.fst) (hk : key ∉ sub.map Prod.fst) :
    Reader.add ⟨root ++ [(name, .table .header sub)], [name]⟩ (.assign [] key v) =
      some ⟨root ++ [(name, .table .header (sub ++ [(key, .value v)]))], [name]⟩ := by
  simp [Reader.add, Entries.change, find?_last hn, replace_last hn, assign_nil hk]

theorem foldlM_others {settings : List Setting}
    (h : (root.map Prod.fst ++ settings.map Setting.key).Nodup) :
    (settings.map Setting.assignment).foldlM Reader.add ⟨root, []⟩ =
      some ⟨root ++ settings.map Setting.node, []⟩ := by
  induction settings generalizing root
  case nil => simp
  case cons s settings ih =>
    have hk : s.key ∉ root.map Prod.fst := fun hk =>
      List.disjoint_of_nodup_append h hk List.mem_cons_self
    have h' : ((root ++ [s.node]).map Prod.fst ++ settings.map Setting.key).Nodup := by
      simpa [Setting.node] using h
    rw [List.map_cons, List.foldlM_cons, Setting.assignment, add_other hk]
    exact (ih h').trans (by simp [Setting.node])

theorem foldlM_settings {settings : List Setting} (hn : name ∉ root.map Prod.fst)
    (h : (sub.map Prod.fst ++ settings.map Setting.key).Nodup) :
    (settings.map Setting.assignment).foldlM Reader.add
        ⟨root ++ [(name, .table .header sub)], [name]⟩ =
      some ⟨root ++ [(name, .table .header (sub ++ settings.map Setting.node))], [name]⟩ := by
  induction settings generalizing sub
  case nil => simp
  case cons s settings ih =>
    have hk : s.key ∉ sub.map Prod.fst := fun hk =>
      List.disjoint_of_nodup_append h hk List.mem_cons_self
    have h' : ((sub ++ [s.node]).map Prod.fst ++ settings.map Setting.key).Nodup := by
      simpa [Setting.node] using h
    rw [List.map_cons, List.foldlM_cons, Setting.assignment, add_assignment hn hk]
    exact (ih h').trans (by simp [Setting.node])

theorem foldlM_part {p : Part} (h : p.name ∉ root.map Prod.fst) :
    p.lines.foldlM Reader.add ⟨root, opened⟩ = some ⟨root ++ [p.node], [p.name]⟩ := by
  rw [Part.lines, List.foldlM_cons, add_header h]
  exact foldlM_settings h p.nodup

theorem foldlM_parts {parts : List Part}
    (h : (root.map Prod.fst ++ parts.map Part.name).Nodup) :
    ∃ opened', (parts.map Part.lines).flatten.foldlM Reader.add ⟨root, opened⟩ =
      some ⟨root ++ parts.map Part.node, opened'⟩ := by
  induction parts generalizing root opened
  case nil => exact ⟨opened, by simp⟩
  case cons p parts ih =>
    have hn : p.name ∉ root.map Prod.fst := fun hn =>
      List.disjoint_of_nodup_append h hn List.mem_cons_self
    have h' : ((root ++ [p.node]).map Prod.fst ++ parts.map Part.name).Nodup := by
      simpa [Part.node] using h
    obtain ⟨opened', ho⟩ := @ih (root ++ [p.node]) [p.name] h'
    refine ⟨opened', ?_⟩
    rw [List.map_cons, List.flatten_cons, List.foldlM_append, foldlM_part hn]
    exact ho.trans (by simp)

end Tables

namespace Sheet

-- An empty line stands between the parts.
def text (s : Sheet) : String :=
  "\n".intercalate <|
    (if s.others = [] then [] else [String.join (s.others.map Setting.line)]) ++
      s.parts.map Part.text

def entries (s : Sheet) : List (String × Value) :=
  s.others.map Setting.entry ++ s.parts.map Part.entry

-- The lines of each block of the text.
def blocks (s : Sheet) : List (List Line) :=
  (if s.others = [] then [] else [s.others.map Setting.assignment]) ++ s.parts.map Part.lines

theorem lines_intercalate {texts : List String} {blocks : List (List Line)}
    (h : List.Forall₂ (fun text ls => Lines text.toList ls) texts blocks) :
    Lines ("\n".intercalate texts).toList ([.blank].intercalate blocks) := by
  induction h
  case nil => exact .nil
  case cons text ls texts blocks hl htail ih =>
    cases htail
    case nil => simpa using hl
    case cons =>
      rw [String.intercalate_cons_cons, List.intercalate_cons_cons, String.toList_append,
        String.toList_append]
      exact (hl.append .blank).append ih

theorem lines_text (s : Sheet) : Lines s.text.toList ([.blank].intercalate s.blocks) := by
  have hparts : List.Forall₂ (fun text ls => Lines text.toList ls) (s.parts.map Part.text)
      (s.parts.map Part.lines) := by
    rw [List.forall₂_map_left_iff, List.forall₂_map_right_iff]
    exact List.forall₂_same.mpr fun p _ => p.lines_text
  refine lines_intercalate ?_
  rw [blocks]
  split
  case isTrue  => exact hparts
  case isFalse => exact .cons (lines_settings s.others) hparts

-- An empty line adds nothing.
theorem foldlM_intercalate (blocks : List (List Line)) (r : Reader) :
    ([.blank].intercalate blocks).foldlM Reader.add r = blocks.flatten.foldlM Reader.add r := by
  induction blocks generalizing r
  case nil => rfl
  case cons ls blocks ih =>
    cases blocks
    case nil => simp
    case cons ls' blocks =>
      rw [List.intercalate_cons_cons, List.append_assoc, List.flatten_cons, List.foldlM_append,
        List.foldlM_append]
      refine bind_congr fun r => ?_
      rw [← ih]
      rfl

theorem toValues_settings (settings : List Setting) :
    toValues (settings.map Setting.node) = settings.map Setting.entry := by
  rw [toValues_eq, List.map_map]
  exact List.map_congr_left fun s _ => by simp [Setting.node, Setting.entry, Node.toValue]

theorem toValues_parts (parts : List Part) :
    toValues (parts.map Part.node) = parts.map Part.entry := by
  rw [toValues_eq, List.map_map]
  exact List.map_congr_left fun p _ => by
    simp [Part.node, Part.entry, Node.toValue, toValues_settings]

theorem parse?_text (s : Sheet) : parse? s.text = some (.table s.entries) := by
  have hothers : (s.others.map Setting.assignment).foldlM Reader.add ⟨[], []⟩ =
      some ⟨s.others.map Setting.node, []⟩ :=
    foldlM_others (List.Nodup.of_append_left s.nodup)
  have hnodup : ((s.others.map Setting.node).map Prod.fst ++ s.parts.map Part.name).Nodup := by
    simpa [Setting.node, Function.comp_def] using s.nodup
  obtain ⟨opened, hparts⟩ := @foldlM_parts _ [] s.parts hnodup
  have hroot : s.blocks.flatten.foldlM Reader.add ⟨[], []⟩ =
      some ⟨s.others.map Setting.node ++ s.parts.map Part.node, opened⟩ := by
    rw [← hparts, blocks]
    split
    case isTrue h  => rw [h]; rfl
    case isFalse h =>
      rw [List.flatten_append, List.foldlM_append, List.flatten_singleton, hothers]
      rfl
  have hentries : toValues (s.others.map Setting.node ++ s.parts.map Part.node) = s.entries := by
    rw [toValues_eq, List.map_append, ← toValues_eq, ← toValues_eq, toValues_settings,
      toValues_parts, entries]
  rw [s.lines_text.parse?_eq, foldlM_intercalate, hroot, Option.map_some, hentries]

section Lookup

variable {settings : List Setting} {name : String}

theorem get?_settings (h : (settings.map Setting.key).Nodup) :
    Value.get? (settings.map Setting.entry) name =
      (settings.find? (Setting.key · = name)).map Setting.value := by
  rw [get?_eq_lookup (by simpa [Setting.entry, Function.comp_def] using h)]
  exact lookup_map Setting.key Setting.value settings

def part? (s : Sheet) (name : String) : Option Part :=
  s.parts.find? (Part.name · = name)

-- A part that is missing is as good as one without settings.
def settingsOf (s : Sheet) (part : String) : List Setting :=
  (s.part? part).elim [] Part.settings

def setting? (s : Sheet) (part name : String) : Option Setting :=
  (s.settingsOf part).find? (Setting.key · = name)

theorem nodup_settingsOf (s : Sheet) (part : String) :
    ((s.settingsOf part).map Setting.key).Nodup := by
  rw [settingsOf]
  cases s.part? part
  case none   => exact List.nodup_nil
  case some p => exact p.nodup

theorem get?_entries {s : Sheet} {part : String} (h : part ∉ s.others.map Setting.key) :
    Value.get? s.entries part =
      (s.part? part).map fun p => .table (p.settings.map Setting.entry) := by
  have hn : (s.entries.map Prod.fst).Nodup := by
    simpa [entries, Setting.entry, Part.entry, Function.comp_def] using s.nodup
  have ho : (s.others.map Setting.entry).lookup part = none :=
    lookup_of_notMem (by simpa [Setting.entry, Function.comp_def] using h)
  rw [get?_eq_lookup hn, entries, List.lookup_append, ho, Option.none_or]
  exact lookup_map Part.name (fun p => Value.table (p.settings.map Setting.entry)) s.parts

end Lookup

section Only

variable {S : Finset (String × String)} {part name : String}

-- The parts with some of their settings.
def only (s : Sheet) (S : Finset (String × String)) : Sheet where
  others := s.others
  parts  := s.parts.map fun p =>
    ⟨p.name, p.settings.filter fun setting => (p.name, setting.key) ∈ S, p.bare,
      p.nodup.sublist (List.filter_sublist.map Setting.key)⟩
  nodup  := by simpa [Function.comp_def] using s.nodup

theorem settingsOf_only (s : Sheet) :
    (s.only S).settingsOf part =
      (s.settingsOf part).filter fun setting => (part, setting.key) ∈ S := by
  have hp : (s.only S).part? part = (s.part? part).map fun p =>
      ⟨p.name, p.settings.filter fun setting => (p.name, setting.key) ∈ S, p.bare,
        p.nodup.sublist (List.filter_sublist.map Setting.key)⟩ :=
    List.find?_map
  rw [settingsOf, settingsOf, hp]
  cases h : s.part? part
  case none => rfl
  case some p =>
    have hname : decide (p.name = part) :=
      List.find?_some (p := fun p => decide (Part.name p = part)) h
    have hname := of_decide_eq_true hname
    simp [hname]

theorem setting?_only (s : Sheet) :
    (s.only S).setting? part name =
      if (part, name) ∈ S then s.setting? part name else none := by
  simp only [setting?, settingsOf_only, List.find?_filter]
  split
  case isTrue h =>
    congr 1
    funext setting
    by_cases hk : setting.key = name <;> simp [hk, h]
  case isFalse h =>
    rw [List.find?_eq_none]
    rintro setting - hs
    simp only [decide_eq_true_eq] at hs
    obtain ⟨hm, rfl⟩ := hs
    exact h hm

end Only

end Sheet

end PagePrep.Toml
