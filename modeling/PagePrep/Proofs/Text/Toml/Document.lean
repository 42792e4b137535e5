import Mathlib
import PagePrep.Proofs.Text.Toml.Sheet

-- The text that is written for a document gives each of its fields the text of its value. A field
-- without a value is left out.

namespace PagePrep.Toml

section Fields

variable {scalar : Scalar} {fields : Fields} {name text : String}

-- A value is left out, or its text says something.
def Readable (scalar : Scalar) : Prop :=
  scalar = .none ∨ ∃ text v, scalar.toToml? = some text ∧ ReadsAs text v

theorem tomlFields?_none :
    Document.tomlFields? ((name, .none) :: fields) = Document.tomlFields? fields := by
  rfl

theorem tomlFields?_cons (h : scalar ≠ .none) (ht : scalar.toToml? = some text) :
    Document.tomlFields? ((name, scalar) :: fields) =
      (Document.tomlFields? fields).map (name ++ " = " ++ text ++ "\n" ++ ·) := by
  have hl : Document.tomlFields?.tomlLine? (name, scalar) =
      some (name ++ " = " ++ text ++ "\n") := by
    rw [Document.tomlFields?.tomlLine?, ht]
    rfl
  simp [Document.tomlFields?, h, hl, Option.bind_assoc, String.join_cons]

-- The settings that stand for fields.
structure Writes (fields : Fields) (settings : List Setting) : Prop where
  text : Document.tomlFields? fields = some (String.join (settings.map Setting.line))
  keys : ∀ setting ∈ settings, setting.key ∈ fields.map Prod.fst
  nodup : (settings.map Setting.key).Nodup
  find? : ∀ name, (settings.find? (Setting.key · = name)).map Setting.text =
    (fields.lookup name).bind Scalar.toToml?

namespace Writes

variable {setting : Setting} {settings : List Setting}

theorem find?_eq_none (h : Writes fields settings) (hn : name ∉ fields.map Prod.fst) :
    settings.find? (Setting.key · = name) = none := by
  rw [List.find?_eq_none]
  intro setting hm hk
  exact hn (of_decide_eq_true hk ▸ h.keys setting hm)

theorem skip (h : Writes fields settings) (hn : name ∉ fields.map Prod.fst) :
    Writes ((name, .none) :: fields) settings where
  text        := tomlFields?_none.trans h.text
  keys s hm   := List.mem_cons_of_mem _ (h.keys s hm)
  nodup       := h.nodup
  find? name' := by
    by_cases he : name' = name
    case pos =>
      subst he
      simp [h.find?_eq_none hn, Scalar.toToml?]
    case neg =>
      have hne : (name' == name) = false := beq_false_of_ne he
      rw [h.find?, List.lookup_cons, hne]

theorem cons (h : Writes fields settings) (hn : setting.key ∉ fields.map Prod.fst)
    (hs : scalar ≠ .none) (ht : scalar.toToml? = some setting.text) :
    Writes ((setting.key, scalar) :: fields) (setting :: settings) where
  text := by
    rw [tomlFields?_cons hs ht, h.text]
    simp [Setting.line, String.join_cons]
  keys := by
    simpa using fun s hm => Or.inr (h.keys s hm)
  nodup := by
    refine List.nodup_cons.mpr ⟨fun hm => ?_, h.nodup⟩
    obtain ⟨s, hm, hk⟩ := List.mem_map.mp hm
    exact hn (hk ▸ h.keys s hm)
  find? name' := by
    by_cases he : setting.key = name'
    case pos =>
      subst he
      simp [ht]
    case neg =>
      have hne : (name' == setting.key) = false := beq_false_of_ne (Ne.symm he)
      simp [List.lookup_cons, hne, he, h.find?]

end Writes

theorem exists_writes (hb : ∀ field ∈ fields, IsBare field.1)
    (hr : ∀ field ∈ fields, Readable field.2)
    (hn : (fields.map Prod.fst).Nodup) : ∃ settings, Writes fields settings := by
  induction fields
  case nil => exact ⟨[], rfl, by simp, List.nodup_nil, fun _ => rfl⟩
  case cons field fields ih =>
    obtain ⟨name, scalar⟩ := field
    obtain ⟨hname, hn⟩ := List.nodup_cons.mp hn
    obtain ⟨settings, hs⟩ := ih (fun f hf => hb f (List.mem_cons_of_mem _ hf))
      (fun f hf => hr f (List.mem_cons_of_mem _ hf)) hn
    obtain rfl | ⟨text, v, ht, hv⟩ := hr _ List.mem_cons_self
    case inl => exact ⟨settings, hs.skip hname⟩
    case inr =>
      have hne : scalar ≠ .none := by
        rintro rfl
        cases ht
      have hbare := hb _ List.mem_cons_self
      exact ⟨_, @Writes.cons _ _ ⟨name, text, v, hbare, hv⟩ _ hs hname hne ht⟩

end Fields

section Sections

variable {sections : List (String × Fields)} {d : Document}

-- What the names and the values of a section must be like for it to be written.
structure Writable (part : String × Fields) : Prop where
  name   : IsBare part.1
  bare   : ∀ field ∈ part.2, IsBare field.1
  values : ∀ field ∈ part.2, Readable field.2
  nodup  : (part.2.map Prod.fst).Nodup

-- The parts that stand for sections.
structure WritesSections (sections : List (String × Fields)) (parts : List Part) : Prop where
  text  : sections.mapM Document.tomlSection? = some (parts.map Part.text)
  names : parts.map Part.name = sections.map Prod.fst
  find? : ∀ part name,
    ((((parts.find? (Part.name · = part)).elim [] Part.settings).find?
        (Setting.key · = name)).map Setting.text) =
      ((sections.lookup part).bind (·.lookup name)).bind Scalar.toToml?

theorem exists_writesSections (hw : ∀ part ∈ sections, Writable part) :
    ∃ parts, WritesSections sections parts := by
  induction sections
  case nil => exact ⟨[], rfl, rfl, fun _ _ => rfl⟩
  case cons part sections ih =>
    obtain ⟨name, fields⟩ := part
    obtain ⟨parts, hp⟩ := ih fun p hm => hw p (List.mem_cons_of_mem _ hm)
    have h := hw _ List.mem_cons_self
    obtain ⟨settings, hs⟩ := exists_writes h.bare h.values h.nodup
    have ht : Document.tomlSection? (name, fields) =
        some (Part.text ⟨name, settings, h.name, hs.nodup⟩) := by
      rw [Document.tomlSection?, hs.text]
      rfl
    refine ⟨⟨name, settings, h.name, hs.nodup⟩ :: parts, ?_, ?_, fun part key => ?_⟩
    · simp [ht, hp.text]
    · simp [hp.names]
    · by_cases he : name = part
      case pos =>
        subst he
        simp [hs.find?]
      case neg =>
        have hne : (part == name) = false := beq_false_of_ne (Ne.symm he)
        simp [List.lookup_cons, hne, he, hp.find?]

-- A document without fields of no section.
theorem exists_sheet (ho : d.others = []) (hn : (d.sections.map Prod.fst).Nodup)
    (hw : ∀ part ∈ d.sections, Writable part) :
    ∃ s : Sheet, s.others = [] ∧ d.toToml? = some s.text ∧
      ∀ part name, (s.setting? part name).map Setting.text =
        ((d.sections.lookup part).bind (·.lookup name)).bind Scalar.toToml? := by
  obtain ⟨parts, hp⟩ := exists_writesSections hw
  refine ⟨⟨[], parts, ?_⟩, rfl, ?_, hp.find?⟩
  · simpa [hp.names] using hn
  · have hnone : Document.tomlFields? [] = some "" := rfl
    simp [Document.toToml?, ho, hnone, hp.text, Sheet.text]

end Sections

end PagePrep.Toml
