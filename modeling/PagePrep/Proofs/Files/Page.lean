import Mathlib
import PagePrep.Files.Page
import PagePrep.Proofs.Netpbm.RoundTrip

-- A page that was written to a file in a format of netpbm is read back as it was.

namespace PagePrep

namespace OutputFormat

def netpbmExtensions : List String :=
  ["pbm", "pgm", "ppm", "pnm", "pam"]

theorem ofExtension?_of_mem {extension : String} (h : extension ∈ netpbmExtensions) :
    ofExtension? extension = some .netpbm := by
  simp only [netpbmExtensions, List.mem_cons, List.not_mem_nil, or_false] at h
  obtain rfl | rfl | rfl | rfl | rfl := h <;> rfl

end OutputFormat

-- Capital letters in an extension are as good as small ones.
def Path.IsNetpbm (path : String) : Prop :=
  ∃ extension, Path.extension? path = some extension ∧
    extension.toLower ∈ OutputFormat.netpbmExtensions

theorem OutputFormat.ofPath_of_isNetpbm {path : String} (h : Path.IsNetpbm path) :
    ofPath path = .ok .netpbm := by
  obtain ⟨extension, hx, hn⟩ := h
  simp [ofPath, ofPath?, hx, ofExtension?_of_mem hn]

-- Formats of netpbm are told apart by what is written, not by the extension.
theorem PageOutput.decodePicture_toNetpbm {decoder : Decoder} {extension? : Option String}
    {output : PageOutput} :
    decodePicture decoder extension? output.toNetpbm = .ok (.ofGray output.toGray) := by
  cases output
  case gray image =>
    have hm : Netpbm.hasMagic (Netpbm.encodeGray image) := by
      simp only [Netpbm.encodeGray, Bytes.ofAscii_append, List.append_assoc]
      rfl
    simp only [decodePicture, toNetpbm, hm, if_true, Netpbm.decode?_encodeGray]
    rfl
  case binary page =>
    have hm : Netpbm.hasMagic (Netpbm.encodePage page) := by
      simp only [Netpbm.encodePage, Netpbm.encodeBitmap, Bytes.ofAscii_append, List.append_assoc]
      rfl
    simp only [decodePicture, toNetpbm, hm, if_true, Netpbm.decode?_encodePage]
    rfl

section Results

variable {ε ε' σ α β : Type}

theorem run_get_bind (k : σ → EStateM ε σ β) (s : σ) : (get >>= k).run s = (k s).run s :=
  rfl

-- A step that only looks at the state ends with its error, or else goes on in the same state.
theorem run_ofExcept_bind (x : Except ε α) (k : α → EStateM ε σ β) (s : σ) :
    (MonadExcept.ofExcept x >>= k).run s =
      match x with
      | .ok a    => (k a).run s
      | .error e => .error e s := by
  cases x <;> rfl

-- A step that fails leaves what it has done to the state, under another error.
theorem run_adaptExcept_bind (x : EStateM ε σ α) (f : ε → ε') (k : α → EStateM ε' σ β) (s : σ) :
    (x.adaptExcept f >>= k).run s =
      match x.run s with
      | .ok a s    => (k a).run s
      | .error e s => .error (f e) s := by
  simp only [EStateM.run, bind, EStateM.bind, EStateM.adaptExcept]
  cases x s <;> rfl

end Results

namespace Store

variable {s s' : Store} {path : String} {content : Bytes} {encoders : Encoders}
  {output : PageOutput}

def Missing (s : Store) (path : String) : Prop :=
  ∃ e, s.entry path = .error e

-- There is something at the path, but it has no content that could be had.
def Unreadable (s : Store) (path : String) : Prop :=
  (∃ searchable takesEntries, s.entry path = .ok (.directory searchable takesEntries)) ∨
    ∃ content writable, s.entry path = .ok (.file content false writable)

-- All directories on the way are there, and at its end is a file that can be replaced, or nothing
-- yet and a directory that takes something new.
def Writable (s : Store) (path : String) : Prop :=
  ∃ place, s.locate path = .ok place ∧
    ((∃ content readable, s.at? place = some (.file content readable true)) ∨
      s.at? place = none ∧ s.takesEntries place.dropLast)

theorem Writable.exists_write (h : s.Writable path) (content : Bytes) :
    ∃ s', s.write path content = .ok s' := by
  obtain ⟨place, hl, hp⟩ := h
  have ⟨entry, hr⟩ : ∃ entry, s.replacement place content = .ok entry := by
    obtain ⟨_, _, hf⟩ | ⟨hn, ht⟩ := hp
    case inl => exact ⟨_, by rw [replacement, hf]⟩
    case inr => exact ⟨_, by simp only [replacement, hn, ht, if_true]; rfl⟩
  exact ⟨s.put place entry, by simp only [write, hl, hr, bind, Except.bind]; rfl⟩

-- How the writing of a page ends. A page that can not be encoded leaves a file behind.
inductive Saving (encoders : Encoders) (output : PageOutput) (path : String) (s : Store) :
    EStateM.Result PageError Store Unit → Prop where
  | unsupported {e : PageError} (hf : OutputFormat.ofPath path = .error e) :
    Saving encoders output path s (.error e s)
  | refused {format : OutputFormat} {reason : String} (hf : OutputFormat.ofPath path = .ok format) :
    Saving encoders output path s (.error (.writeFailed reason) s)
  | unencoded {format : OutputFormat} {reason reason' : String} {s' : Store}
      (hf : OutputFormat.ofPath path = .ok format)
      (hr : (output.encode encoders format).failure? = some reason)
      (hw : s.write path (output.encode encoders format).bytes = .ok s') :
    Saving encoders output path s (.error (.writeFailed reason') s')
  | saved {format : OutputFormat} {s' : Store} (hf : OutputFormat.ofPath path = .ok format)
      (hn : (output.encode encoders format).failure? = none)
      (hw : s.write path (output.encode encoders format).bytes = .ok s') :
    Saving encoders output path s (.ok () s')

theorem saving_savePage (encoders : Encoders) (output : PageOutput) (path : String) (s : Store) :
    s.Saving encoders output path ((savePage encoders output path).run s) := by
  simp only [savePage, run_get_bind, run_ofExcept_bind]
  split
  case h_2 hf => exact .unsupported hf
  case h_1 format hf =>
  cases hw : s.write path (output.encode encoders format).bytes
  case error => exact .refused hf
  case ok s' =>
  cases hr : (output.encode encoders format).failure?
  case none        => exact .saved hf hr hw
  case some reason => exact .unencoded hf hr hw

theorem entry_eq {place : Place} {entry : Entry} (hl : s.locate path = .ok place)
    (he : s.at? place = some entry) : s.entry path = .ok entry := by
  simp [Store.entry, hl, he, bind, Except.bind, pure, Except.pure]

-- A file that could be read before can still be read, and so can a new one.
theorem replacement_of_not_unreadable {place : Place} {entry : Entry}
    (hl : s.locate path = .ok place) (h : ¬s.Unreadable path)
    (hr : s.replacement place content = .ok entry) : entry = .file content true true := by
  unfold replacement at hr
  split at hr
  case h_1 => cases hr
  case h_3 => cases hr
  case h_2 readable he =>
    cases hr
    cases readable
    case true  => rfl
    case false => exact absurd (.inr ⟨_, _, entry_eq hl he⟩) h
  case h_4 =>
    split at hr
    case isTrue  => cases hr; rfl
    case isFalse => cases hr

theorem loadPicture_of_entry {decoder : Decoder} {writable : Bool} {picture : Picture}
    (he : s.entry path = .ok (.file content true writable))
    (hp : decodePicture decoder (Path.extension? path) content = .ok picture) :
    s.loadPicture decoder path = .ok picture := by
  simp [loadPicture, contains, read, he, hp, Except.isOk, Except.toBool, Except.mapError, bind,
    Except.bind, pure, Except.pure]

-- Ink comes back as black and paper as white, whatever the width of the page is. A file that may
-- be written and not read stays so.
theorem loadPicture_of_savePage (hp : Path.IsNetpbm path) (hs : s.Writable path)
    (decoder : Decoder) (encoders : Encoders) (output : PageOutput) :
    ∃ s', (savePage encoders output path).run s = .ok () s' ∧
      (¬s.Unreadable path → ∃ picture, s'.loadPicture decoder path = .ok picture ∧
        picture.toGray = output.toGray) := by
  obtain ⟨s', hw⟩ := hs.exists_write output.toNetpbm
  obtain ⟨place, entry, hl, hr, he⟩ := entry_of_write hw
  refine ⟨s', ?_, fun h => ?_⟩
  · simp only [savePage, run_get_bind, run_ofExcept_bind, OutputFormat.ofPath_of_isNetpbm hp,
      PageOutput.encode, hw]
    rfl
  · cases replacement_of_not_unreadable hl h hr
    exact ⟨_, loadPicture_of_entry he PageOutput.decodePicture_toNetpbm, Picture.toGray_ofGray⟩

-- The first eight pixels of every row are ink, and the last one of the row in the middle.
def raggedPage : Page :=
  Grid.ofFn 13 3 fun x y _ => x < 8 || (x = 12 && y = 1)

-- An older page is there already.
def scans : Store where
  start := []
  entryAt? place :=
    if place = ["scans"] then some (.directory true true)
    else if place = ["scans", "page.PBM"] then some (.file [0x50, 0x34] true true)
    else none

theorem loadPicture_of_savePage_raggedPage :
    ∃ s' picture,
      (savePage (fun _ _ => { bytes := [] }) (.binary raggedPage) "scans/page.PBM").run scans =
        .ok () s' ∧
      s'.loadPicture (fun _ _ => .error "") "scans/page.PBM" = .ok picture ∧
      picture.toGray = raggedPage.toGray := by
  have hx : Path.extension? "scans/page.PBM" = some "PBM" := by decide +kernel
  have hn : "PBM".toLower ∈ OutputFormat.netpbmExtensions := by decide +kernel
  have hl : scans.locate "scans/page.PBM" = .ok ["scans", "page.PBM"] := by rfl
  have he : scans.entry "scans/page.PBM" = .ok (.file [0x50, 0x34] true true) := by rfl
  obtain ⟨s', hs, hr⟩ := loadPicture_of_savePage ⟨_, hx, hn⟩ ⟨_, hl, .inl ⟨_, _, rfl⟩⟩
    (fun _ _ => .error "") (fun _ _ => { bytes := [] }) (.binary raggedPage)
  obtain ⟨picture, hload, hgray⟩ := hr <| by simp [Unreadable, he]
  exact ⟨s', picture, hs, hload, hgray⟩

end Store

end PagePrep
