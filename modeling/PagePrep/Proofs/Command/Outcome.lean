import PagePrep.Command.Run
import PagePrep.Proofs.Files.Page

-- How a command that works on a page can end, and with which files: each way to fail leaves them as
-- they were, and the only thing that a run writes is the page.

namespace PagePrep

section Processing

variable (f : Facilities) (o : PageOptions) (input output : String) (s : Store)

-- How the processing of a file ends.
inductive Processing : EStateM.Result (Failure PageError) Store PageResult → Prop where
  | unread {e : PageError} (hl : s.loadPicture f.decoder input = .error e) :
    Processing (.error (.raised e) s)
  | unsupported {picture : Picture} {e : PageError}
      (hl : s.loadPicture f.decoder input = .ok picture)
      (hf : OutputFormat.ofPath output = .error e) : Processing (.error (.raised e) s)
  | unprocessed {picture : Picture} {format : OutputFormat} {e : Failure PageError}
      (hl : s.loadPicture f.decoder input = .ok picture)
      (hf : OutputFormat.ofPath output = .ok format)
      (hp : processImage f.startThreads o picture = .error e) : Processing (.error e s)
  | unwritten {picture : Picture} {format : OutputFormat} {result : PageResult} {e : PageError}
      {s' : Store} (hl : s.loadPicture f.decoder input = .ok picture)
      (hf : OutputFormat.ofPath output = .ok format)
      (hp : processImage f.startThreads o picture = .ok result)
      (hw : (Store.savePage f.encoders result.output output).run s = .error e s') :
    Processing (.error (.raised e) s')
  | written {picture : Picture} {format : OutputFormat} {result : PageResult} {s' : Store}
      (hl : s.loadPicture f.decoder input = .ok picture)
      (hf : OutputFormat.ofPath output = .ok format)
      (hp : processImage f.startThreads o picture = .ok result)
      (hw : (Store.savePage f.encoders result.output output).run s = .ok () s') :
    Processing (.ok result s')

theorem processing_processFile :
    Processing f o input output s ((Store.processFile f o input output).run s) := by
  simp only [Store.processFile, run_get_bind, run_ofExcept_bind, run_adaptExcept_bind]
  cases hl : s.loadPicture f.decoder input
  case error => exact .unread hl
  case ok =>
  cases hf : OutputFormat.ofPath output
  case error => exact .unsupported hl hf
  case ok =>
  simp only [Except.mapError]
  split
  case h_2 hp => exact .unprocessed hl hf hp
  case h_1 hp =>
  split
  case h_2 hw => exact .unwritten hl hf hp hw
  case h_1 hw => exact .written hl hf hp hw

end Processing

section Saved

variable {f : Facilities} {o : PageOptions} {input : String} {encoders : Encoders}
  {output : PageOutput} {path : String} {e : PageError} {s s' : Store}

-- All files but the one at a path are as before.
structure Store.ChangedOnlyAt (s s' : Store) (path : String) : Prop where
  start    : s'.start = s.start
  openRoot : s'.openRoot = s.openRoot
  entryAt? : ∀ place, s.locate path ≠ .ok place → s'.entryAt? place = s.entryAt? place

theorem Store.changedOnlyAt_write {content : Bytes} (h : s.write path content = .ok s') :
    s.ChangedOnlyAt s' path where
  start    := by obtain ⟨_, _, _, _, rfl⟩ := exists_place_of_write h; rfl
  openRoot := by obtain ⟨_, _, _, _, rfl⟩ := exists_place_of_write h; rfl
  entryAt? := fun _ hp => entryAt?_of_write h hp

theorem Store.exists_write_of_savePage (h : (savePage encoders output path).run s = .ok () s') :
    ∃ format, OutputFormat.ofPath path = .ok format ∧
      s.write path (output.encode encoders format).bytes = .ok s' := by
  have hs := saving_savePage encoders output path s
  rw [h] at hs
  cases hs
  case saved hf _ hw => exact ⟨_, hf, hw⟩

theorem Store.changedOnlyAt_savePage (h : (savePage encoders output path).run s = .ok () s') :
    s.ChangedOnlyAt s' path := by
  obtain ⟨_, _, hw⟩ := exists_write_of_savePage h
  exact changedOnlyAt_write hw

theorem Store.content?_of_savePage (h : (savePage encoders output path).run s = .ok () s')
    (hp : Path.IsNetpbm path) : s'.content? path = some output.toNetpbm := by
  obtain ⟨format, hf, hw⟩ := exists_write_of_savePage h
  cases hf.symm.trans (OutputFormat.ofPath_of_isNetpbm hp)
  exact content?_of_write hw

-- Once the format is known, every failure to write has the same code.
theorem Store.exitCode_of_savePage {format : OutputFormat}
    (hf : OutputFormat.ofPath path = .ok format)
    (h : (savePage encoders output path).run s = .error e s') : e.exitCode = 12 := by
  have hs := saving_savePage encoders output path s
  rw [h] at hs
  cases hs
  case unsupported hf' => cases hf.symm.trans hf'
  case refused         => rfl
  case unencoded       => rfl

namespace Processing

-- Only what is written last can have changed a file.
theorem store_eq {e : Failure PageError}
    (h : Processing f o input path s (.error e s'))
    (he : (RunError.ofFailure input e).exitCode ≠ 12) : s' = s := by
  cases h
  case unwritten hf _ hw => exact absurd (Store.exitCode_of_savePage hf hw) he
  all_goals rfl

theorem exists_written {result : PageResult}
    (h : Processing f o input path s (.ok result s')) :
    ∃ picture, s.loadPicture f.decoder input = .ok picture ∧
      processImage f.startThreads o picture = .ok result ∧
      (Store.savePage f.encoders result.output path).run s = .ok () s' := by
  cases h
  case written hl _ hp hw => exact ⟨_, hl, hp, hw⟩

end Processing

end Saved

section Jobs

-- What a command asks for that works on a page.
structure Job where
  -- What is to be done, unless something that was set can not be.
  options : Except ConfigError PageOptions
  input   : String
  output  : String
  dryRun  : Bool

def Environment.job? (env : Environment) (s : Store) : Command → Option Job
  | .process a => some ⟨env.resolve s a, a.input, a.output, a.dryRun⟩
  | .legacy a  => some ⟨a.toOverrides.bind ({} : Config).merge, a.input, a.output, false⟩
  | .info      => none

variable {env : Environment} {s : Store} {job : Job}

-- How a job ends, and with which files.
inductive Job.Ends (job : Job) (f : Facilities) (s : Store) :
    EStateM.Result RunError Store (List OutputLine) → Prop where
  | misconfigured {e : ConfigError} (ho : job.options = .error e) :
    job.Ends f s (.error (.config e) s)
  | planned {o : PageOptions} {lines : List OutputLine} (ho : job.options = .ok o)
      (hd : job.dryRun) : job.Ends f s (.ok lines s)
  | failed {o : PageOptions} {e : Failure PageError} {s' : Store} (ho : job.options = .ok o)
      (hd : ¬job.dryRun) (hp : Processing f o job.input job.output s (.error e s')) :
    job.Ends f s (.error (.ofFailure job.input e) s')
  | finished {o : PageOptions} {result : PageResult} {lines : List OutputLine} {s' : Store}
      (ho : job.options = .ok o) (hd : ¬job.dryRun)
      (hp : Processing f o job.input job.output s (.ok result s')) :
    job.Ends f s (.ok lines s')

theorem Job.ends_processPage (job : Job) {o : PageOptions} (v : Verbosity)
    (ho : job.options = .ok o) (hd : ¬job.dryRun) :
    job.Ends env.toFacilities s ((env.processPage v o job.input job.output).run s) := by
  have hp := processing_processFile env.toFacilities o job.input job.output s
  rw [Environment.processPage, run_adaptExcept_bind]
  split
  case h_1 hr => exact .finished ho hd (hr ▸ hp)
  case h_2 hr => exact .failed ho hd (hr ▸ hp)

theorem Job.ends_runCommand {command : Command} (v : Verbosity)
    (hj : env.job? s command = some job) :
    job.Ends env.toFacilities s ((env.runCommand v command).run s) := by
  cases command
  case info => cases hj
  case process a =>
    cases hj
    simp only [Environment.runCommand, run_get_bind, run_ofExcept_bind]
    cases env.resolve s a
    case error => exact .misconfigured rfl
    case ok o =>
    simp only [Except.mapError]
    split
    case isTrue hd  => exact .planned rfl hd
    case isFalse hd => exact ends_processPage ⟨.ok o, a.input, a.output, a.dryRun⟩ v rfl hd
  case legacy a =>
    cases hj
    simp only [Environment.runCommand, run_ofExcept_bind]
    cases a.toOverrides
    case error => exact .misconfigured rfl
    case ok overrides =>
    simp only [Except.mapError, Except.bind]
    cases ({} : Config).merge overrides
    case error => exact .misconfigured rfl
    case ok o  => exact ends_processPage ⟨.ok o, a.input, a.output, false⟩ v rfl nofun

theorem Environment.run_of_ofArguments {arguments : List String} {i : Invocation}
    (h : Invocation.ofArguments arguments = .ok i) :
    env.run s arguments = .ofResult ((env.runCommand i.verbosity i.command).run s) := by
  simp only [run, h, runInvocation]

end Jobs

section Runs

variable {env : Environment} {s : Store} {job : Job} {f : Facilities}
  {r : EStateM.Result RunError Store (List OutputLine)}

theorem PageError.exitCode_ne_zero (e : PageError) : e.exitCode ≠ 0 := by
  cases e
  case furiganaFailed orientation _ => cases orientation <;> simp [exitCode]
  all_goals simp [exitCode]

theorem RunError.exitCode_ne_zero (e : RunError) : e.exitCode ≠ 0 := by
  cases e
  case config   => simp [exitCode]
  case page _ e => exact e.exitCode_ne_zero
  case panic    => simp [exitCode]

namespace Job.Ends

theorem store_eq (h : job.Ends f s r) (hr : (Outcome.ofResult r).exitCode ≠ 0)
    (hw : (Outcome.ofResult r).exitCode ≠ 12) : (Outcome.ofResult r).store = s := by
  cases h
  case misconfigured => rfl
  case planned       => rfl
  case failed _ hp   => exact hp.store_eq hw
  case finished      => exact absurd rfl hr

theorem store_eq_of_dryRun (h : job.Ends f s r) (hd : job.dryRun) :
    (Outcome.ofResult r).store = s := by
  cases h
  case misconfigured  => rfl
  case planned        => rfl
  case failed hd' _   => exact absurd hd hd'
  case finished hd' _ => exact absurd hd hd'

-- A run that succeeds and is not dry has come through all steps.
theorem exists_written (h : job.Ends f s r) (hr : (Outcome.ofResult r).exitCode = 0)
    (hd : ¬job.dryRun) :
    ∃ o picture result, job.options = .ok o ∧ s.loadPicture f.decoder job.input = .ok picture ∧
      processImage f.startThreads o picture = .ok result ∧
      (Store.savePage f.encoders result.output job.output).run s =
        .ok () (Outcome.ofResult r).store := by
  cases h
  case misconfigured    => cases hr
  case planned _ hd'    => exact absurd hd' hd
  case failed           => exact absurd hr (RunError.exitCode_ne_zero _)
  case finished ho _ hp =>
    obtain ⟨picture, hl, hp, hw⟩ := hp.exists_written
    exact ⟨_, picture, _, ho, hl, hp, hw⟩

end Job.Ends

theorem Environment.store_of_exitCode {arguments : List String}
    (h : (env.run s arguments).exitCode ≠ 0) (hw : (env.run s arguments).exitCode ≠ 12) :
    (env.run s arguments).store = s := by
  cases hi : Invocation.ofArguments arguments
  case error => simp only [run, hi]
  case ok i  =>
    rw [run_of_ofArguments hi] at h hw ⊢
    cases hj : env.job? s i.command
    case some job => exact (Job.ends_runCommand i.verbosity hj).store_eq h hw
    case none     =>
      -- Only what says something about the program itself works on no page.
      have hc : i.command = .info := by
        cases hc : i.command
        case info => rfl
        all_goals simp [job?, hc] at hj
      rw [hc] at h ⊢
      rfl

theorem Environment.run_store (env : Environment) (s : Store) (arguments : List String) :
    let outcome := env.run s arguments
    (outcome.exitCode ≠ 0 → outcome.exitCode ≠ 12 → outcome.store = s) ∧
      ∀ i job, Invocation.ofArguments arguments = .ok i → env.job? s i.command = some job →
        (job.dryRun → outcome.store = s) ∧
        (outcome.exitCode = 0 → ¬job.dryRun → ∃ o picture result,
          job.options = .ok o ∧ s.loadPicture env.decoder job.input = .ok picture ∧
          processImage env.startThreads o picture = .ok result ∧
          s.ChangedOnlyAt outcome.store job.output ∧
          (Path.IsNetpbm job.output →
            outcome.store.content? job.output = some result.output.toNetpbm)) := by
  refine ⟨store_of_exitCode, fun i job hi hj => ?_⟩
  have hends := Job.ends_runCommand i.verbosity hj
  rw [run_of_ofArguments hi]
  refine ⟨hends.store_eq_of_dryRun, fun h0 hd => ?_⟩
  obtain ⟨o, picture, result, ho, hl, hp, hw⟩ := hends.exists_written h0 hd
  exact ⟨o, picture, result, ho, hl, hp, Store.changedOnlyAt_savePage hw,
    Store.content?_of_savePage hw⟩

def plainEnvironment : Environment where
  userDirectory := none
  platform      := "linux"
  architecture  := "x86_64"
  processors    := 1
  decoder       := fun _ _ => .error "not a picture"
  encoders      := fun _ _ => { bytes := [], failure? := some "no encoder for the format" }
  startThreads  := fun _ => .ok ()

-- A picture whose samples are written out in digits.
def desk : Store where
  start := []
  entryAt? place :=
    if place = ["page.pgm"] then some (.file (Bytes.ofAscii "P2 2 1 255 0 200") true true)
    else none

def inPlace : ProcessArguments where
  input      := "page.pgm"
  output     := "page.pgm"
  negate     := some .no
  noScale    := true
  noUnsharp  := true
  noBinarize := true

-- The page takes the place of the picture that it was made of.
theorem Environment.run_store_inPlace :
    let outcome := plainEnvironment.run desk ["process", "page.pgm", "page.pgm", "--negate", "no",
      "--no-scale", "--no-unsharp", "--no-binarize"]
    outcome.exitCode = 0 ∧ ∃ o picture result,
      plainEnvironment.resolve desk inPlace = .ok o ∧
      desk.loadPicture plainEnvironment.decoder "page.pgm" = .ok picture ∧
      processImage plainEnvironment.startThreads o picture = .ok result ∧
      desk.ChangedOnlyAt outcome.store "page.pgm" ∧
      outcome.store.content? "page.pgm" = some result.output.toNetpbm := by
  have hx : Path.extension? "page.pgm" = some "pgm" := by decide +kernel
  have hn : "pgm".toLower ∈ OutputFormat.netpbmExtensions := by decide +kernel
  have hi : Invocation.ofArguments ["process", "page.pgm", "page.pgm", "--negate", "no",
      "--no-scale", "--no-unsharp", "--no-binarize"] = .ok ⟨.process inPlace, {}⟩ := by
    decide +kernel
  have h0 : (plainEnvironment.run desk ["process", "page.pgm", "page.pgm", "--negate", "no",
      "--no-scale", "--no-unsharp", "--no-binarize"]).exitCode = 0 := by
    decide +kernel
  have h := (plainEnvironment.run_store desk _).right _ _ hi rfl
  obtain ⟨o, picture, result, ho, hl, hp, hs, hr⟩ := h.right h0 nofun
  exact ⟨h0, o, picture, result, ho, hl, hp, hs, hr ⟨_, hx, hn⟩⟩

end Runs

end PagePrep
