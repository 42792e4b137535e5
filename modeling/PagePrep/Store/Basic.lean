import PagePrep.Bytes
import PagePrep.Store.Path

namespace PagePrep

-- What is at a place, and what may be done with it.
inductive Entry where
  -- Names are looked up in a directory that is searchable only.
  | directory (searchable takesEntries : Bool)
  | file (content : Bytes) (readable writable : Bool)
deriving DecidableEq, Repr

inductive StoreError where
  | noEntry
  | notDirectory
  | isDirectory
  | denied
deriving DecidableEq, Repr

def StoreError.message : StoreError → String
  | noEntry      => "No such file or directory (os error 2)"
  | notDirectory => "Not a directory (os error 20)"
  | isDirectory  => "Is a directory (os error 21)"
  | denied       => "Permission denied (os error 13)"

-- All files and directories.
structure Store where
  -- Where paths start that do not start at the root.
  start     : Place
  -- Whether something new can be put into the root.
  openRoot  : Bool := true
  entryAt?  : Place → Option Entry

namespace Store

-- The root is always a directory.
def at? (s : Store) (place : Place) : Option Entry :=
  if place.isEmpty then some (.directory true s.openRoot) else s.entryAt? place

def IsDirectory (s : Store) (place : Place) : Prop :=
  ∃ searchable takesEntries, s.at? place = some (.directory searchable takesEntries)

def takesEntries (s : Store) (place : Place) : Bool :=
  match s.at? place with
  | some (.directory _ takesEntries) => takesEntries
  | _                                => false

-- Goes along the names from a place. Only the last of them may be missing.
def walk (s : Store) (place : Place) : (names : List String) → Except StoreError Place
  | []            => .ok place
  | name :: names =>
    match s.at? place with
    | some (.directory true _)  => s.walk (place.step name) names
    | some (.directory false _) => .error .denied
    | some (.file ..)           => .error .notDirectory
    | none                      => .error .noEntry

-- Where a path leads, whether or not there is anything.
def locate (s : Store) (path : String) : Except StoreError Place :=
  if Path.isUsable path then
    s.walk (if Path.isAbsolute path then [] else s.start) (Path.names path)
  else
    .error .noEntry

def entry (s : Store) (path : String) : Except StoreError Entry := do
  match s.at? (← s.locate path) with
  | some entry => return entry
  | none       => throw .noEntry

def contains (s : Store) (path : String) : Bool :=
  (s.entry path).isOk

def isFile (s : Store) (path : String) : Bool :=
  match s.entry path with
  | .ok (.file ..) => true
  | _              => false

-- What a file holds, whether or not it may be read.
def content? (s : Store) (path : String) : Option Bytes :=
  match s.entry path with
  | .ok (.file content ..) => some content
  | _                      => none

def read (s : Store) (path : String) : Except StoreError Bytes := do
  match ← s.entry path with
  | .directory ..         => throw .isDirectory
  | .file content true _  => return content
  | .file _ false _       => throw .denied

def put (s : Store) (place : Place) (entry : Entry) : Store :=
  { s with entryAt? := fun p => if p = place then some entry else s.entryAt? p }

@[simp] theorem put_entryAt?_self (s : Store) (place : Place) (entry : Entry) :
    (s.put place entry).entryAt? place = some entry :=
  if_pos rfl

@[simp] theorem put_entryAt?_of_ne {s : Store} {place p : Place} {entry : Entry} (h : p ≠ place) :
    (s.put place entry).entryAt? p = s.entryAt? p :=
  if_neg h

theorem at?_put_self {s : Store} {place : Place} (entry : Entry) (h : place ≠ []) :
    (s.put place entry).at? place = some entry := by
  simp [at?, h]

theorem at?_put_of_ne {s : Store} {place p : Place} {entry : Entry} (h : p ≠ place) :
    (s.put place entry).at? p = s.at? p := by
  simp only [at?, put_entryAt?_of_ne h]
  rfl

theorem isDirectory_root {s : Store} : s.IsDirectory [] :=
  ⟨true, s.openRoot, rfl⟩

-- The ways through directories do not change when something else is put in.
theorem walk_put {s : Store} {place : Place} (entry : Entry) (h : ¬s.IsDirectory place)
    {p r : Place} {names : List String} (hw : s.walk p names = .ok r) :
    (s.put place entry).walk p names = .ok r := by
  induction names generalizing p with
  | nil => exact hw
  | cons name names ih =>
    have ⟨takesEntries, hd⟩ : ∃ takesEntries, s.at? p = some (.directory true takesEntries) := by
      unfold walk at hw
      split at hw
      case h_1 hd => exact ⟨_, hd⟩
      all_goals cases hw
    have hp : p ≠ place := fun hp => h ⟨_, _, hp ▸ hd⟩
    simp only [walk, hd] at hw
    simp only [walk, at?_put_of_ne hp, hd]
    exact ih hw

-- The file that takes the place of what is there. A file that is replaced stays as readable as it
-- was, and a new one needs a directory that takes it.
def replacement (s : Store) (place : Place) (content : Bytes) : Except StoreError Entry :=
  match s.at? place with
  | some (.directory ..)         => .error .isDirectory
  | some (.file _ readable true) => .ok (.file content readable true)
  | some (.file _ _ false)       => .error .denied
  | none                         =>
    if s.takesEntries place.dropLast then .ok (.file content true true) else .error .denied

theorem replacement_of_isDirectory {s : Store} {place : Place} {content : Bytes}
    (h : s.IsDirectory place) : s.replacement place content = .error .isDirectory := by
  obtain ⟨_, _, h⟩ := h
  rw [replacement, h]

theorem exists_file_of_replacement {s : Store} {place : Place} {content : Bytes} {entry : Entry}
    (h : s.replacement place content = .ok entry) :
    ∃ readable, entry = .file content readable true := by
  unfold replacement at h
  split at h
  case h_1 => cases h
  case h_2 => cases h; exact ⟨_, rfl⟩
  case h_3 => cases h
  case h_4 =>
    split at h
    case isTrue  => cases h; exact ⟨_, rfl⟩
    case isFalse => cases h

def write (s : Store) (path : String) (content : Bytes) : Except StoreError Store := do
  let place ← s.locate path
  return s.put place (← s.replacement place content)

theorem exists_place_of_write {s s' : Store} {path : String} {content : Bytes}
    (h : s.write path content = .ok s') :
    ∃ place entry, s.locate path = .ok place ∧ s.replacement place content = .ok entry ∧
      s' = s.put place entry := by
  cases hl : s.locate path with
  | error e => simp [write, hl, bind, Except.bind] at h
  | ok place =>
    cases hr : s.replacement place content with
    | error e  => simp [write, hl, hr, bind, Except.bind] at h
    | ok entry =>
      simp only [write, hl, hr, bind, Except.bind] at h
      cases h
      exact ⟨place, entry, rfl, hr, rfl⟩

-- The place that was written to is the only one that changes.
theorem entryAt?_of_write {s s' : Store} {path : String} {content : Bytes} {p : Place}
    (h : s.write path content = .ok s') (hp : s.locate path ≠ .ok p) :
    s'.entryAt? p = s.entryAt? p := by
  obtain ⟨place, _, hl, _, rfl⟩ := exists_place_of_write h
  exact put_entryAt?_of_ne fun h => hp (h ▸ hl)

theorem locate_put {s : Store} {place : Place} {path : String} (entry : Entry)
    (hl : s.locate path = .ok place) (h : ¬s.IsDirectory place) :
    (s.put place entry).locate path = .ok place := by
  unfold locate at hl ⊢
  split at hl
  case isTrue hu =>
    rw [if_pos hu]
    exact walk_put entry h hl
  case isFalse => cases hl

theorem entry_put {s : Store} {place : Place} {path : String} (entry : Entry)
    (hl : s.locate path = .ok place) (h : ¬s.IsDirectory place) :
    (s.put place entry).entry path = .ok entry := by
  have hne : place ≠ [] := fun hn => h (hn ▸ isDirectory_root)
  simp [Store.entry, locate_put _ hl h, at?_put_self _ hne, bind, Except.bind, pure, Except.pure]

-- What was written is there, with the permissions of what it replaces.
theorem entry_of_write {s s' : Store} {path : String} {content : Bytes}
    (h : s.write path content = .ok s') :
    ∃ place entry, s.locate path = .ok place ∧ s.replacement place content = .ok entry ∧
      s'.entry path = .ok entry := by
  obtain ⟨place, entry, hl, hr, rfl⟩ := exists_place_of_write h
  have hd : ¬s.IsDirectory place := fun hd => by
    rw [replacement_of_isDirectory hd] at hr
    cases hr
  exact ⟨place, entry, hl, hr, entry_put entry hl hd⟩

theorem content?_of_write {s s' : Store} {path : String} {content : Bytes}
    (h : s.write path content = .ok s') : s'.content? path = some content := by
  obtain ⟨_, _, _, hr, he⟩ := entry_of_write h
  obtain ⟨_, rfl⟩ := exists_file_of_replacement hr
  rw [content?, he]

end Store

end PagePrep
