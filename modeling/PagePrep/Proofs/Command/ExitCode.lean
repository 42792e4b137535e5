import PagePrep.Proofs.Command.Outcome
import PagePrep.Proofs.Pipeline.Outcome

-- What the exit code says about reading and writing. A file that is there but can not be opened is
-- counted to the writing, although it is the input.

namespace PagePrep

namespace Store

variable (s : Store) (decoder : Decoder) (path : String)

def Undecodable : Prop :=
  ∃ content writable reason, s.entry path = .ok (.file content true writable) ∧
    decodePicture decoder (Path.extension? path) content = .error reason

-- How the loading of a picture ends.
inductive Loading : Except PageError Picture → Prop where
  | missing (h : s.Missing path) : Loading (.error (.imageNotFound path))
  | unreadable {e : StoreError} (h : s.Unreadable path) : Loading (.error (.ioError e.message))
  | undecodable {reason : String} (h : s.Undecodable decoder path) :
    Loading (.error (.readFailed (path ++ ": " ++ reason)))
  | loaded {content : Bytes} {writable : Bool} {picture : Picture}
      (h : s.entry path = .ok (.file content true writable))
      (hd : decodePicture decoder (Path.extension? path) content = .ok picture) :
    Loading (.ok picture)

theorem loading_loadPicture : s.Loading decoder path (s.loadPicture decoder path) := by
  rw [loadPicture, contains, read]
  cases he : s.entry path
  case error e => exact .missing ⟨e, he⟩
  case ok entry =>
  cases entry
  case directory => exact .unreadable (.inl ⟨_, _, he⟩)
  case file content readable _ =>
  cases readable
  case false => exact .unreadable (.inr ⟨_, _, he⟩)
  case true =>
  simp only [Except.isOk, Except.toBool, bind, Except.bind, pure, Except.pure, Except.mapError]
  cases hd : decodePicture decoder (Path.extension? path) content
  case error reason => exact .undecodable ⟨content, _, reason, he, hd⟩
  case ok picture   => exact .loaded he hd

variable {s decoder path}

-- There is no way to be two of these.
theorem Unreadable.not_missing_or_undecodable (h : s.Unreadable path) (decoder : Decoder) :
    ¬(s.Missing path ∨ s.Undecodable decoder path) := by
  rintro (⟨_, hm⟩ | ⟨_, _, _, hu, _⟩)
  all_goals obtain ⟨_, _, he⟩ | ⟨_, _, he⟩ := h
  all_goals simp_all

theorem Loading.of_error {e : PageError} (h : s.Loading decoder path (.error e)) :
    (e.exitCode = 1 ↔ s.Missing path ∨ s.Undecodable decoder path) ∧
      (e.exitCode = 12 ↔ s.Unreadable path) ∧
      (e.stage = .loading ↔ ¬s.Unreadable path) ∧ (e.stage = .writing ↔ s.Unreadable path) := by
  cases h
  case missing h     =>
    have hr : ¬s.Unreadable path := fun hr => hr.not_missing_or_undecodable decoder (.inl h)
    simp [PageError.exitCode, PageError.stage, h, hr]
  case undecodable h =>
    have hr : ¬s.Unreadable path := fun hr => hr.not_missing_or_undecodable decoder (.inr h)
    simp [PageError.exitCode, PageError.stage, h, hr]
  case unreadable h  =>
    have hn := not_or.mp (h.not_missing_or_undecodable decoder)
    simp [PageError.exitCode, PageError.stage, h, hn]

theorem Loading.of_ok {picture : Picture} (h : s.Loading decoder path (.ok picture)) :
    ¬(s.Missing path ∨ s.Undecodable decoder path) ∧ ¬s.Unreadable path := by
  cases h
  case loaded h hd =>
    refine ⟨?_, ?_⟩
    · rintro (⟨_, hm⟩ | ⟨_, _, _, hu, hn⟩) <;> simp_all
    · rintro (⟨_, _, hu⟩ | ⟨_, _, hu⟩) <;> simp_all

end Store

section Codes

variable {o : PageOptions} {width height : UInt32} {picture : Picture} {e : PageError}

theorem PageOptions.exitCode_of_error? (h : o.error? width height = some e) :
    e.exitCode ≠ 1 ∧ e.exitCode ≠ 12 := by
  simp only [error?, prepareFailure?, polarityFailure?, scaleFailure?, sharpenFailure?,
    binarizeFailure?, Option.or_eq_some_iff, Option.ite_none_right_eq_some,
    Option.map_eq_some_iff] at h
  obtain ((⟨_, _, _, rfl⟩ | ⟨_, _, _, _, rfl⟩) | ⟨_, _, _, _, rfl⟩) | ⟨_, _, _, _, rfl⟩ := h
  all_goals simp [PageError.exitCode]

theorem PageOptions.Valid.exitCode_of_processPicture {e : Failure PageError} (ho : o.Valid)
    (h : processPicture o picture = .error e) (input : String) :
    (RunError.ofFailure input e).exitCode ≠ 1 ∧ (RunError.ofFailure input e).exitCode ≠ 12 := by
  have hf := ho.failure?_eq h
  rw [failure?, Option.or_eq_some_iff, Option.map_eq_some_iff, Option.map_eq_some_iff] at hf
  obtain ⟨e, he, rfl⟩ | ⟨_, _, _, rfl⟩ := hf
  case inl => exact exitCode_of_error? he
  case inr => simp [RunError.ofFailure, RunError.exitCode]

theorem PageOptions.Valid.exitCode_of_processImage {e : Failure PageError}
    {startThreads : UInt64 → Except String Unit} (ho : o.Valid)
    (h : processImage startThreads o picture = .error e) (input : String) :
    (RunError.ofFailure input e).exitCode ≠ 1 ∧ (RunError.ofFailure input e).exitCode ≠ 12 := by
  rw [processImage] at h
  cases ht : o.threads
  case none =>
    rw [ht] at h
    exact ho.exitCode_of_processPicture h input
  case some threads =>
    simp only [ht] at h
    cases hs : startThreads threads
    case ok =>
      rw [hs] at h
      exact ho.exitCode_of_processPicture h input
    case error reason =>
      rw [hs] at h
      cases h
      simp [RunError.ofFailure, RunError.exitCode, PageError.exitCode]

end Codes

section Runs

variable {env : Environment} {s s' : Store} {job : Job} {o : PageOptions} {f : Facilities}
  {r : EStateM.Result RunError Store (List OutputLine)}

theorem Environment.valid_of_job? {command : Command} (hj : env.job? s command = some job)
    (ho : job.options = .ok o) : o.Valid := by
  cases command
  case info      => cases hj
  case process a =>
    cases hj
    simp only [resolve, bind, Except.bind] at ho
    split at ho
    case h_1 => cases ho
    case h_2 => exact Config.valid_of_merge ho
  case legacy a  =>
    cases hj
    simp only [Except.bind] at ho
    split at ho
    case h_1 => cases ho
    case h_2 => exact Config.valid_of_merge ho

theorem OutputFormat.exitCode_of_ofPath {path : String} {e : PageError}
    (h : ofPath path = .error e) : e.exitCode = 11 := by
  rw [ofPath] at h
  split at h
  case h_1 => cases h
  case h_2 => cases h; rfl

-- The page is made, but it can not be written.
def Job.Unwritten (job : Job) (f : Facilities) (s : Store) (o : PageOptions) : Prop :=
  ∃ picture format result e s', s.loadPicture f.decoder job.input = .ok picture ∧
    OutputFormat.ofPath job.output = .ok format ∧
    processImage f.startThreads o picture = .ok result ∧
    (Store.savePage f.encoders result.output job.output).run s = .error e s'

-- Once the picture is loaded, only the writing of the page has the code of a failure to write.
theorem Processing.cases_of_error {e : Failure PageError} (ho : o.Valid)
    (h : Processing f o job.input job.output s (.error e s')) :
    (∃ e', e = .raised e' ∧ s.loadPicture f.decoder job.input = .error e') ∨
      ∃ picture, s.loadPicture f.decoder job.input = .ok picture ∧
        (RunError.ofFailure job.input e).exitCode ≠ 1 ∧
        ((RunError.ofFailure job.input e).exitCode = 12 ↔ job.Unwritten f s o) := by
  cases h
  case unread hl                  => exact .inl ⟨_, rfl, hl⟩
  case unsupported hl hf          =>
    have he : (RunError.ofFailure job.input (.raised _)).exitCode = 11 :=
      OutputFormat.exitCode_of_ofPath hf
    refine .inr ⟨_, hl, he ▸ nofun, he ▸ nofun, ?_⟩
    rintro ⟨_, _, _, _, _, _, hf', _⟩
    cases hf.symm.trans hf'
  case unprocessed hl _ hp        =>
    have he := ho.exitCode_of_processImage hp job.input
    refine .inr ⟨_, hl, he.left, fun h => absurd h he.right, ?_⟩
    rintro ⟨_, _, _, _, _, hl', _, hp', _⟩
    cases hl.symm.trans hl'
    cases hp.symm.trans hp'
  case unwritten hl hf hp hw      =>
    have he : (RunError.ofFailure job.input (.raised _)).exitCode = 12 :=
      Store.exitCode_of_savePage hf hw
    exact .inr ⟨_, hl, he ▸ nofun, fun _ => ⟨_, _, _, _, _, hl, hf, hp, hw⟩, fun _ => he⟩

theorem Processing.not_unwritten {result : PageResult}
    (h : Processing f o job.input job.output s (.ok result s')) : ¬job.Unwritten f s o := by
  obtain ⟨_, hl, hp, hw⟩ := h.exists_written
  rintro ⟨_, _, _, _, _, hl', _, hp', hw'⟩
  cases hl.symm.trans hl'
  cases hp.symm.trans hp'
  cases hw.symm.trans hw'

theorem Environment.run_exitCode {arguments : List String} {i : Invocation}
    (hi : Invocation.ofArguments arguments = .ok i) (hj : env.job? s i.command = some job)
    (ho : job.options = .ok o) (hd : ¬job.dryRun) :
    let outcome := env.run s arguments
    (∀ e, s.loadPicture env.decoder job.input = .error e →
      outcome.exitCode = e.exitCode ∧ outcome.errors = [(RunError.page job.input e).line] ∧
        (e.stage = .loading ↔ ¬s.Unreadable job.input) ∧
        (e.stage = .writing ↔ s.Unreadable job.input)) ∧
      (outcome.exitCode = 1 ↔
        s.Missing job.input ∨ s.Undecodable env.decoder job.input) ∧
      (outcome.exitCode = 12 ↔
        s.Unreadable job.input ∨ job.Unwritten env.toFacilities s o) := by
  have hv := valid_of_job? hj ho
  have hends := Job.ends_runCommand i.verbosity hj
  have hloading := s.loading_loadPicture env.decoder job.input
  rw [run_of_ofArguments hi]
  generalize (env.runCommand i.verbosity i.command).run s = r at hends
  cases hends
  case misconfigured ho' => cases ho.symm.trans ho'
  case planned hd'       => exact absurd hd' hd
  case finished ho' _ hp   =>
    cases ho.symm.trans ho'
    obtain ⟨picture, hl, _, _⟩ := hp.exists_written
    obtain ⟨hloaded, hread⟩ := (hl ▸ hloading).of_ok
    refine ⟨fun e he => ?_, ⟨nofun, fun h => absurd h hloaded⟩, nofun, fun h => ?_⟩
    · cases hl.symm.trans he
    · exact absurd h (not_or.mpr ⟨hread, hp.not_unwritten⟩)
  case failed ho' _ hp =>
    cases ho.symm.trans ho'
    obtain ⟨e, rfl, hl⟩ | ⟨picture, hl, hone, htwelve⟩ := hp.cases_of_error hv
    case inl =>
      obtain ⟨hone, htwelve, hloading, hwriting⟩ := (hl ▸ hloading).of_error
      have hw : ¬job.Unwritten env.toFacilities s o := by
        rintro ⟨_, _, _, _, _, hl', _⟩
        cases hl.symm.trans hl'
      refine ⟨fun e' he => ?_, hone, htwelve.trans (or_iff_left hw).symm⟩
      cases hl.symm.trans he
      exact ⟨rfl, rfl, hloading, hwriting⟩
    case inr =>
      obtain ⟨hloaded, hread⟩ := (hl ▸ hloading).of_ok
      refine ⟨fun e he => ?_, ⟨fun h => absurd h hone, fun h => absurd h hloaded⟩, ?_⟩
      · cases hl.symm.trans he
      · exact htwelve.trans (or_iff_right hread).symm

-- A directory with nothing in it.
def shelf : Store where
  start := []
  entryAt? place := if place = ["scans"] then some (.directory true true) else none

def fromShelf : ProcessArguments where
  input  := "scans"
  output := "page.pbm"

-- Nothing has been written, and yet the writing is what is said to have failed.
theorem Environment.run_exitCode_directory :
    (plainEnvironment.run shelf ["process", "scans", "page.pbm"]).exitCode = 12 ∧
      shelf.loadPicture plainEnvironment.decoder "scans" =
        .error (.ioError "Is a directory (os error 21)") ∧
      (plainEnvironment.run shelf ["process", "scans", "page.pbm"]).errors =
        [(RunError.page "scans" (.ioError "Is a directory (os error 21)")).line] := by
  have hi : Invocation.ofArguments ["process", "scans", "page.pbm"] =
      .ok ⟨.process fromShelf, {}⟩ := by
    decide +kernel
  have ho : plainEnvironment.resolve shelf fromShelf = .ok {} := by decide +kernel
  have hl : shelf.loadPicture plainEnvironment.decoder "scans" =
      .error (.ioError "Is a directory (os error 21)") := by rfl
  have hu : shelf.Unreadable "scans" := .inl ⟨true, true, rfl⟩
  have h := @run_exitCode plainEnvironment shelf _ _ _ _ hi rfl ho nofun
  exact ⟨h.right.right.mpr (.inl hu), hl, (h.left _ hl).right.left⟩

end Runs

end PagePrep
