import PagePrep.Files.Config

-- Which file a configuration is taken from, and what is found there. Files that come later in the
-- search are not looked at.

namespace PagePrep

namespace Store

-- There is a file at the path, whether or not it can be read.
def HasFile (s : Store) (path : String) : Prop :=
  ∃ content readable writable, s.entry path = .ok (.file content readable writable)

theorem isFile_iff {s : Store} {path : String} : s.isFile path ↔ s.HasFile path := by
  rw [isFile, HasFile]
  cases s.entry path
  case error    => simp
  case ok entry => cases entry <;> simp

theorem HasFile.congr {s s' : Store} {path : String} (h : s'.entry path = s.entry path) :
    s'.HasFile path ↔ s.HasFile path := by
  rw [HasFile, HasFile, h]

-- The first of some paths that has a file, and the paths that are looked at until it is found.
inductive FirstFile (s : Store) : (paths looked : List String) → Option String → Prop where
  | nothing : FirstFile s [] [] none
  | here {path : String} {paths : List String} (hp : s.HasFile path) :
    FirstFile s (path :: paths) [path] (some path)
  | later {path : String} {paths looked : List String} {found : Option String}
      (hp : ¬s.HasFile path) (h : FirstFile s paths looked found) :
    FirstFile s (path :: paths) (path :: looked) found

namespace FirstFile

variable {s s' : Store} {paths looked looked' : List String} {found found' : Option String}

theorem unique (h : s.FirstFile paths looked found) (h' : s.FirstFile paths looked' found') :
    looked = looked' ∧ found = found' := by
  induction h generalizing looked'
  case nothing =>
    cases h'
    exact ⟨rfl, rfl⟩
  case here hp =>
    cases h'
    case here        => exact ⟨rfl, rfl⟩
    case later hp' _ => exact absurd hp hp'
  case later hp _ ih =>
    cases h'
    case here hp'   => exact absurd hp' hp
    case later _ h' =>
      obtain ⟨rfl, rfl⟩ := ih h'
      exact ⟨rfl, rfl⟩

theorem exists_looked (s : Store) (paths : List String) :
    ∃ looked, s.FirstFile paths looked (paths.find? s.isFile) := by
  induction paths
  case nil => exact ⟨[], .nothing⟩
  case cons path paths ih =>
    rw [List.find?_cons]
    split
    case h_1 hp =>
      exact ⟨[path], .here (isFile_iff.mp hp)⟩
    case h_2 hp =>
      obtain ⟨looked, h⟩ := ih
      exact ⟨path :: looked, .later (fun hf => by simp [isFile_iff.mpr hf] at hp) h⟩

theorem congr (h : s.FirstFile paths looked found)
    (hs : ∀ path ∈ looked, s'.entry path = s.entry path) : s'.FirstFile paths looked found := by
  induction h
  case nothing => exact .nothing
  case here hp => exact .here ((HasFile.congr (hs _ (.head _))).mpr hp)
  case later hp _ ih =>
    have hp := mt (HasFile.congr (hs _ (.head _))).mp hp
    exact .later hp (ih fun path hl => hs path (.tail _ hl))

theorem mem_looked {path : String} (h : s.FirstFile paths looked (some path)) : path ∈ looked := by
  generalize hf : some path = found at h
  induction h
  case nothing      => cases hf
  case here         => cases hf; exact .head _
  case later _ _ ih => exact .tail _ (ih hf)

end FirstFile

-- A file that is named is the only one to be looked at.
inductive Selects (s : Store) (paths : List String) :
    (named : Option String) → (looked : List String) → (source : Option String) → Prop where
  | named {path : String} : Selects s paths (some path) [path] (some path)
  | searched {looked : List String} {source : Option String} (h : s.FirstFile paths looked source) :
    Selects s paths none looked source

namespace Selects

variable {s s' : Store} {paths looked looked' : List String}
  {named source source' : Option String}

theorem unique (h : s.Selects paths named looked source)
    (h' : s.Selects paths named looked' source') : looked = looked' ∧ source = source' := by
  cases h <;> cases h'
  case named         => exact ⟨rfl, rfl⟩
  case searched h h' => exact h.unique h'

theorem congr (h : s.Selects paths named looked source)
    (hs : ∀ path ∈ looked, s'.entry path = s.entry path) :
    s'.Selects paths named looked source := by
  cases h
  case named      => exact .named
  case searched h => exact .searched (h.congr hs)

theorem mem_looked {path : String} (h : s.Selects paths named looked (some path)) :
    path ∈ looked := by
  cases h
  case named      => exact .head _
  case searched h => exact h.mem_looked

end Selects

-- What the file of a configuration says, or why it can not be used.
inductive Says (s : Store) :
    (source : Option String) → Except ConfigError (Option Value) → Prop where
  | nothing : Says s none (.ok none)
  | missing {path : String} {e : StoreError} (he : s.entry path = .error e) :
    Says s (some path) (.error (.notFound path))
  | directory {path : String} {searchable takesEntries : Bool}
      (he : s.entry path = .ok (.directory searchable takesEntries)) :
    Says s (some path) (.error (.read path StoreError.isDirectory.message))
  | locked {path : String} {content : Bytes} {writable : Bool}
      (he : s.entry path = .ok (.file content false writable)) :
    Says s (some path) (.error (.read path StoreError.denied.message))
  | garbled {path : String} {content : Bytes} {writable : Bool}
      (he : s.entry path = .ok (.file content true writable)) (ht : content.toText? = none) :
    Says s (some path) (.error (.read path "stream did not contain valid UTF-8"))
  | malformed {path text : String} {content : Bytes} {writable : Bool}
      (he : s.entry path = .ok (.file content true writable)) (ht : content.toText? = some text)
      (hd : ∀ document, Toml.parse? text = some document → Decode.config? .toml document = none) :
    Says s (some path) (.error (.parse path "not a configuration"))
  | document {path text : String} {content : Bytes} {writable : Bool} {document : Value}
      (he : s.entry path = .ok (.file content true writable)) (ht : content.toText? = some text)
      (hp : Toml.parse? text = some document) (hd : Decode.config? .toml document ≠ none) :
    Says s (some path) (.ok (some document))

namespace Says

variable {s s' : Store} {source : Option String}
  {document document' : Except ConfigError (Option Value)}

theorem unique (h : s.Says source document) (h' : s.Says source document') :
    document = document' := by
  cases h <;> cases h' <;> simp_all

theorem congr (h : s.Says source document)
    (hs : ∀ path, source = some path → s'.entry path = s.entry path) : s'.Says source document := by
  cases h
  case nothing              => exact .nothing
  case missing he           => exact .missing ((hs _ rfl).trans he)
  case directory he         => exact .directory ((hs _ rfl).trans he)
  case locked he            => exact .locked ((hs _ rfl).trans he)
  case garbled he ht        => exact .garbled ((hs _ rfl).trans he) ht
  case malformed he ht hd   => exact .malformed ((hs _ rfl).trans he) ht hd
  case document he ht hp hd => exact .document ((hs _ rfl).trans he) ht hp hd

end Says

variable (s : Store)

def loadSource (source : Option String) : Except ConfigError Config :=
  source.elim (.ok {}) s.loadConfigFrom

theorem exists_selects_loadConfig (userDirectory : Option String) :
    ∃ looked source, s.Selects (configPaths userDirectory) none looked source ∧
      s.loadConfig userDirectory = s.loadSource source := by
  obtain ⟨looked, h⟩ := FirstFile.exists_looked s (configPaths userDirectory)
  refine ⟨looked, _, .searched h, ?_⟩
  rw [loadConfig]
  split <;> simp [loadSource, *]

-- How a configuration comes of what a file says. Where no file says anything, all is as by default.
inductive Loads : Except ConfigError (Option Value) → Except ConfigError Config → Prop where
  | failed {e : ConfigError} : Loads (.error e) (.error e)
  | default : Loads (.ok none) (.ok {})
  | decoded {document : Value} {config : Config}
      (hd : Decode.config? .toml document = some config) :
    Loads (.ok (some document)) (.ok config)

theorem loadConfigFrom_of_file {path : String} {content : Bytes} {writable : Bool}
    (h : s.entry path = .ok (.file content true writable)) :
    s.loadConfigFrom path =
      match content.toText? with
      | none      => .error (.read path "stream did not contain valid UTF-8")
      | some text =>
        match Config.ofToml? text with
        | some config => .ok config
        | none        => .error (.parse path "not a configuration") := by
  rw [loadConfigFrom, contains, read, h]
  rfl

theorem exists_says_loadConfigFrom (path : String) :
    ∃ document, s.Says (some path) document ∧ Loads document (s.loadConfigFrom path) := by
  cases he : s.entry path
  case error =>
    rw [loadConfigFrom, contains, he]
    exact ⟨_, .missing he, .failed⟩
  case ok entry =>
  cases entry
  case directory =>
    rw [loadConfigFrom, contains, read, he]
    exact ⟨_, .directory he, .failed⟩
  case file content readable _ =>
  cases readable
  case false =>
    rw [loadConfigFrom, contains, read, he]
    exact ⟨_, .locked he, .failed⟩
  case true =>
  rw [loadConfigFrom_of_file s he]
  split
  case h_1 ht => exact ⟨_, .garbled he ht, .failed⟩
  case h_2 text ht =>
  split
  case h_1 config hc =>
    obtain ⟨document, hp, hd⟩ := Option.bind_eq_some_iff.mp hc
    exact ⟨_, .document he ht hp (by simp [hd]), .decoded hd⟩
  case h_2 hc =>
    refine ⟨_, .malformed he ht fun document hp => ?_, .failed⟩
    rwa [Config.ofToml?, hp] at hc

theorem exists_says_loadSource (source : Option String) :
    ∃ document, s.Says source document ∧ Loads document (s.loadSource source) := by
  cases source
  case none      => exact ⟨_, .nothing, .default⟩
  case some path => exact s.exists_says_loadConfigFrom path

end Store

end PagePrep
