import PagePrep.Command.Interface

-- What is kept by everything that an argument sets holds of all that can be read.

namespace PagePrep

section Results

variable {ε α β : Type} {P : α → Prop} {Q : β → Prop}

-- What holds of a result, if there is one.
def Yields (P : α → Prop) (x : Except ε α) : Prop :=
  ∀ a, x = .ok a → P a

theorem Yields.ok {a : α} (h : P a) : Yields P (.ok a : Except ε α) := by
  intro b hb
  cases hb
  exact h

theorem Yields.error {e : ε} : Yields P (.error e) := by
  intro a h
  cases h

theorem Yields.something (x : Except ε α) : Yields (fun _ => True) x :=
  fun _ _ => trivial

theorem Yields.bind {x : Except ε α} {f : α → Except ε β} (hx : Yields P x)
    (hf : ∀ a, P a → Yields Q (f a)) : Yields Q (x >>= f) := by
  cases x
  case error => exact .error
  case ok a  => exact hf a (hx a rfl)

theorem Yields.map {x : Except ε α} {f : α → β} (hx : Yields P x) (hf : ∀ a, P a → Q (f a)) :
    Yields Q (x.map f) := by
  cases x
  case error => exact .error
  case ok a  => exact .ok (hf a (hx a rfl))

end Results

namespace Action

variable {α β : Type} {P : (α → α) → Prop} {Q : (β → β) → Prop} {action : Action α}

-- What holds of everything that an action can set.
def All (P : (α → α) → Prop) : Action α → Prop
  | flag set | repeated set => P set
  | value set               => ∀ text, Yields P (set text)
  | stop _                  => True

theorem All.lift {f : (α → α) → β → β} (h : action.All P) (hf : ∀ set, P set → Q (f set)) :
    (action.lift f).All Q := by
  cases action
  case flag set     => exact hf set h
  case repeated set => exact hf set h
  case value set    => exact fun text => (h text).map hf
  case stop         => trivial

theorem all_true (action : Action α) : action.All fun _ => True := by
  cases action
  case value        => exact fun _ _ _ => trivial
  all_goals trivial

end Action

section Keeps

variable {α : Type} (I : List String → α → Prop)

-- What a name sets keeps an invariant of the names that were given and of what they have set.
def Keeps (name : String) (set : α → α) : Prop :=
  ∀ given a, I given a → I (name :: given) (set a)

def Slot.Keeps (slot : Slot α) : Prop :=
  ∀ text, Yields (PagePrep.Keeps I slot.name) (slot.set text)

def NamedOption.Keeps (option : NamedOption α) : Prop :=
  option.action.All (PagePrep.Keeps I option.long)

structure Level.Keeps (level : Level α) : Prop where
  options   : ∀ option ∈ level.options, option.Keeps I
  positions : ∀ slot ∈ level.positions, slot.Keeps I

def Pending.Keeps : Pending α → Prop
  | nothing                      => True
  | waiting slot | filled slot _ => slot.Keeps I

-- The invariant holds so far, and nothing that is still to come can break it.
structure Reading.Holds (r : Reading α) : Prop where
  value     : I r.given r.value
  positions : ∀ slot ∈ r.positions, slot.Keeps I
  pending   : r.pending.Keeps I

end Keeps

section Reading

variable {α : Type} {I : List String → α → Prop}

theorem NamedOption.Keeps.slot {option : NamedOption α}
    {set : String → Except ArgumentError (α → α)} (h : option.Keeps I)
    (ha : option.action = .value set) : Slot.Keeps I ⟨option.long, set⟩ := by
  rw [Keeps, ha] at h
  exact h

namespace Reading.Holds

variable {r : Reading α} {slot : Slot α}

theorem apply {name : String} {set : α → α} (h : r.Holds I) (hk : Keeps I name set) :
    (r.apply name set).Holds I :=
  ⟨hk _ _ h.value, h.positions, h.pending⟩

theorem fill (h : r.Holds I) (hs : slot.Keeps I) (text : String) :
    Yields (Holds I) (r.fill slot text) :=
  (Yields.something _).bind fun _ _ => (hs text).bind fun _ hk => .ok (h.apply hk)

theorem settle (h : r.Holds I) : Yields (Holds I) r.settle := by
  have hp := h.pending
  rw [Reading.settle]
  split
  case h_1 => exact .ok h
  case h_2 => exact .error
  case h_3 slot text hr =>
    rw [hr] at hp
    have h : { r with pending := .nothing }.Holds I := ⟨h.value, h.positions, trivial⟩
    exact h.fill hp text

theorem await (h : r.Holds I) (hs : slot.Keeps I) : Yields (Holds I) (r.await slot) :=
  h.settle.bind fun _ h => .ok ⟨h.value, h.positions, hs⟩

theorem attach (h : r.Holds I) (hs : slot.Keeps I) (text : String) :
    Yields (Holds I) (r.attach slot text) :=
  h.settle.bind fun _ h => h.fill hs text

theorem act {option : NamedOption α} (h : r.Holds I) (ho : option.Keeps I) :
    Yields (Holds I) (r.act option) := by
  rw [NamedOption.Keeps] at ho
  rw [Reading.act]
  split
  case h_1 ha =>
    rw [ha] at ho
    exact h.settle.bind fun _ h => (Yields.something _).bind fun _ _ => .ok (h.apply ho)
  case h_2 ha =>
    rw [ha] at ho
    exact h.settle.bind fun _ h => .ok (h.apply ho)
  case h_3 ha => exact h.await (NamedOption.Keeps.slot ho ha)
  case h_4    => exact h.settle.bind fun _ _ => .error

end Reading.Holds

namespace Level.Keeps

variable {level : Level α} {r : Reading α}

theorem of_find? {p : NamedOption α → Bool} {option : NamedOption α} (hl : level.Keeps I)
    (h : level.options.find? p = some option) : option.Keeps I :=
  hl.options option (List.mem_of_find?_eq_some h)

theorem readLong (hl : level.Keeps I) (h : r.Holds I) (body : List Char) :
    Yields (Reading.Holds I) (level.readLong r body) := by
  simp only [Level.readLong]
  split
  case h_1      => exact .error
  case h_2 ho _ => exact h.act (hl.of_find? ho)
  case h_3 ho _ =>
    split
    case h_1 ha => exact h.attach ((hl.of_find? ho).slot ha) _
    case h_2    => exact .error

theorem readShorts (hl : level.Keeps I) (h : r.Holds I) (letters : List Char) :
    Yields (Reading.Holds I) (level.readShorts r letters) := by
  induction letters generalizing r
  case nil => exact .ok h
  case cons c letters ih =>
    rw [Level.readShorts]
    split
    case h_1 => exact .error
    case h_2 option ho =>
    split
    case h_1 ha => exact h.attach ((hl.of_find? ho).slot ha) _
    case h_2 ha => exact h.attach ((hl.of_find? ho).slot ha) _
    case h_3    => exact (h.act (hl.of_find? ho)).bind fun _ h => ih h

theorem readPosition (h : r.Holds I) (trailing : Bool) (argument : String) :
    Yields (Reading.Holds I) (level.readPosition r trailing argument) := by
  have hp := h.positions
  rw [Level.readPosition]
  split
  case h_1 => exact .error
  case h_2 slot positions hr =>
    rw [hr, List.forall_mem_cons] at hp
    exact h.settle.bind fun _ h => .ok ⟨h.value, hp.right, hp.left⟩

theorem scan (hl : level.Keeps I) (h : r.Holds I) (trailing : Bool) (arguments : List String) :
    Yields (fun x => x.1.Holds I) (level.scan trailing r arguments) := by
  induction arguments generalizing r trailing
  case nil => exact .ok h
  case cons argument arguments ih =>
    rw [Level.scan]
    split
    case isTrue => exact (readPosition h true argument).bind fun _ h => ih h true
    case isFalse =>
    split
    case isTrue => exact .ok h
    case isFalse =>
    split
    case h_1 => exact ih h true
    case h_2 => exact (hl.readLong h _).bind fun _ h => ih h false
    case h_3 => exact (hl.readShorts h _).bind fun _ h => ih h false
    case h_4 slot hr _ _ _ =>
      have hp := h.pending
      rw [hr] at hp
      have h : { r with pending := .filled slot argument }.Holds I := ⟨h.value, h.positions, hp⟩
      exact ih h false
    case h_5 => exact (readPosition h false argument).bind fun _ h => ih h false

theorem finish (h : r.Holds I) :
    Yields (fun a => ∃ given, I given a ∧
      ∀ pair ∈ level.conflicts, ¬(pair.1 ∈ given ∧ pair.2 ∈ given)) (level.finish r) := by
  refine h.settle.bind fun r h => ?_
  split
  case h_1    => exact .error
  case h_2 hc =>
  split
  case h_1 => exact .error
  case h_2 =>
    refine .ok ⟨r.given, h.value, fun pair hp => ?_⟩
    simpa using List.find?_eq_none.mp hc pair hp

theorem read (hl : level.Keeps I) {a : α} (ha : I [] a) (arguments : List String) :
    Yields (fun a => ∃ given, I given a ∧
      ∀ pair ∈ level.conflicts, ¬(pair.1 ∈ given ∧ pair.2 ∈ given)) (level.read a arguments) := by
  have h : (level.start a).Holds I := ⟨ha, hl.positions, trivial⟩
  exact (hl.scan h false arguments).bind fun _ h => finish h

-- Options about something else do no harm, as long as it does not matter that they are given.
theorem including {β : Type} (hl : level.Keeps I) (options : List (NamedOption β))
    (hI : ∀ name given a, I given a → I (name :: given) a) :
    (level.including options).Keeps fun given (p : β × α) => I given p.2 where
  options := by
    intro option ho
    obtain ho | ho := List.mem_append.mp ho
    · obtain ⟨o, _, rfl⟩ := List.mem_map.mp ho
      exact o.action.all_true.lift fun _ _ given p h => hI _ given p.2 h
    · obtain ⟨o, hm, rfl⟩ := List.mem_map.mp ho
      exact (hl.options o hm).lift fun _ hk given p h => hk given p.2 h
  positions := by
    intro slot hs
    obtain ⟨slot, hm, rfl⟩ := List.mem_map.mp hs
    exact fun text => (hl.positions slot hm text).map fun _ hk given p h => hk given p.2 h

end Level.Keeps

end Reading

namespace Slot

variable {α β : Type} {I : List String → α → Prop} {set : β → α → α} {name : String}

theorem keeps_toOption {slot : Slot α} {short : Option Char} :
    (slot.toOption short).Keeps I ↔ slot.Keeps I :=
  Iff.rfl

theorem Keeps.reading (h : ∀ b, PagePrep.Keeps I name (set b)) (read? : String → Option β) :
    (Slot.reading read? set name).Keeps I := by
  intro text
  simp only [Slot.reading]
  split
  case h_1 b _ => exact .ok (h b)
  case h_2     => exact .error

theorem Keeps.choice (h : ∀ b, PagePrep.Keeps I name (set b)) (names : List (String × β)) :
    (Slot.choice names set name).Keeps I := by
  intro text
  simp only [Slot.choice]
  split
  case h_1 b _ => exact .ok (h b)
  case h_2     => exact .error

theorem Keeps.path {set : String → α → α} (h : ∀ text, PagePrep.Keeps I name (set text)) :
    (Slot.path set name).Keeps I := by
  intro text
  simp only [Slot.path]
  split
  case isTrue  => exact .error
  case isFalse => exact .ok (h text)

end Slot

namespace ProcessArguments

-- That a page is scaled, or that it is not, has been given by its name.
structure Names (given : List String) (a : ProcessArguments) : Prop where
  scale   : a.scale.isSome → "scale" ∈ given
  noScale : a.noScale → "no-scale" ∈ given

variable {set : ProcessArguments → ProcessArguments} {name : String}

theorem keeps_names (hs : ∀ a, (set a).scale = a.scale) (hn : ∀ a, (set a).noScale = a.noScale) :
    Keeps Names name set :=
  fun _ a h => ⟨fun h' => .tail _ (h.scale (hs a ▸ h')), fun h' => .tail _ (h.noScale (hn a ▸ h'))⟩

-- All but two options are about something else.
theorem keeps_processOptions : ∀ option ∈ Command.processOptions, option.Keeps Names := by
  simp only [Command.processOptions, List.forall_mem_cons, Slot.keeps_toOption, Slot.single,
    Slot.uint32, Slot.uint64]
  refine ⟨.path ?_, .choice ?_ _, .reading ?_ _, .reading ?scale _, ?noScale, .reading ?_ _,
    .reading ?_ _, ?noUnsharp, ?noBinarize, .reading ?_ _, .reading ?_ _, .reading ?_ _,
    .reading ?_ _, .reading ?_ _, .choice ?_ _, .reading ?_ _, .reading ?_ _, ?dryRun, ?none⟩
  case scale      => exact fun _ _ _ h => ⟨fun _ => .head _, fun hn => .tail _ (h.noScale hn)⟩
  case noScale    => exact fun _ _ h => ⟨fun hs => .tail _ (h.scale hs), fun _ => .head _⟩
  case noUnsharp  => exact keeps_names (fun _ => rfl) fun _ => rfl
  case noBinarize => exact keeps_names (fun _ => rfl) fun _ => rfl
  case dryRun     => exact keeps_names (fun _ => rfl) fun _ => rfl
  case none       => simp
  all_goals exact fun _ => keeps_names (fun _ => rfl) fun _ => rfl

theorem Names.cons {given : List String} {a : ProcessArguments} (h : Names given a)
    (name : String) : Names (name :: given) a :=
  keeps_names (fun _ => rfl) (fun _ => rfl) given a h

theorem keeps_processLevel :
    Command.processLevel.Keeps fun given (p : Globals × ProcessArguments) => Names given p.2 := by
  refine Level.Keeps.including ⟨?options, ?positions⟩ _ fun name _ _ h => h.cons name
  case options =>
    rw [List.forall_mem_cons]
    exact ⟨trivial, keeps_processOptions⟩
  case positions =>
    simp only [List.forall_mem_cons]
    refine ⟨.path ?_, .path ?_, ?none⟩
    case none => simp
    all_goals exact fun _ => keeps_names (fun _ => rfl) fun _ => rfl

end ProcessArguments

-- Whoever asks for a scale can not have asked for none.
def Command.Consistent : Command → Prop
  | process a => ¬(a.scale.isSome ∧ a.noScale)
  | _         => True

theorem Command.consistent_ofSubcommand (name : String) (arguments : List String) :
    Yields (fun p => p.2.Consistent) (Command.ofSubcommand name arguments) := by
  unfold Command.ofSubcommand
  split
  case h_1 =>
    have h : ProcessArguments.Names [] {} := ⟨by simp, by simp⟩
    refine (ProcessArguments.keeps_processLevel.read h arguments).bind fun _ h => .ok ?_
    obtain ⟨given, hn, hc⟩ := h
    have hm : ("scale", "no-scale") ∈ Command.processLevel.conflicts := by decide
    exact fun h => hc _ hm ⟨hn.scale h.left, hn.noScale h.right⟩
  case h_2 => exact (Yields.something _).bind fun _ _ => .ok trivial
  case h_3 => exact (Yields.something _).bind fun _ _ => .ok trivial
  case h_4 => exact .error

theorem Invocation.consistent_ofArguments (arguments : List String) :
    Yields (fun i => i.command.Consistent) (Invocation.ofArguments arguments) := by
  refine (Yields.something _).bind fun x _ => ?_
  obtain ⟨outer, subcommand?⟩ := x
  cases subcommand?
  case none => exact .error
  case some subcommand =>
    refine (Command.consistent_ofSubcommand _ _).bind fun _ h => ?_
    exact (Yields.something _).bind fun _ _ => .ok h

end PagePrep
