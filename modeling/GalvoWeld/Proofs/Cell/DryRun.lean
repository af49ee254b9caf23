import GalvoWeld.Cell.Job
import GalvoWeld.DryRun.Program
import GalvoWeld.Proofs.Device.Passes

/-!
# Dry runs and list jobs

A dry run and the worker that fills the list go about a seam in different ways: the dry run gives up
on every fatal fault of a wobble figure, the worker never does in a preview. From a welder without a
seam both come to the same, since a wobble figure that is loaded there is not decided about.
-/

namespace GalvoWeld

open Cell (ListJob RequestKind fillList loadWobble?)

/-! ### Faults of a wobble figure file -/

theorem Figure.mild_of_load {disk : Disk} {path : String} {fault : Fault}
    (hload : Figure.load disk path = .error fault) : fault.isFatal = false := by
  unfold Figure.load at hload
  cases hresolve : disk.resolve path with
  | error cause =>
    rw [hresolve] at hload
    obtain rfl := Except.error.inj hload
    rfl
  | ok entry =>
    rw [hresolve] at hload
    cases entry with
    | directory names =>
      obtain rfl := Except.error.inj hload
      rfl
    | file text =>
      simp only [Figure.ofDocument] at hload
      split at hload
      · cases hload
      · obtain rfl := Except.error.inj hload
        rfl

/-- Only a figure that is decided about can be refused for good. -/
theorem Seam.mild_of_loadWobble {s : Seam} {disk : Disk} {path : String} {fault : Fault}
    (hstage : s.stage ≠ .prepared) (hload : (s.loadWobble disk path).1 = .error fault) :
    fault.isFatal = false := by
  have hloads := s.loads disk path
  generalize s.loadWobble disk path = outcome at hload hloads
  cases hloads with
  | unread hread =>
    obtain rfl := Except.error.inj hload
    exact Figure.mild_of_load hread
  | rejected _ hprepared _ => exact absurd hprepared hstage
  | attached => cases hload
  | defined => cases hload

/-! ### Welders without a seam -/

/-- A welder that is new, or was just reset. -/
inductive Welder.Unused {δ : Type} [Device δ] : Welder δ → Prop
  | created (config : Config) (device : δ) (disk : Disk) : Unused (create config device disk)
  | reset (w : Welder δ) : Unused w.resetSeam

theorem Welder.Unused.stage_eq {δ : Type} [Device δ] {w : Welder δ} (hw : w.Unused) :
    w.seam.stage = .idle := by
  cases hw <;> rfl

/-! ### The same seam -/

namespace Cell

/-- What a request is for, by the mode of its data. -/
def RequestKind.ofMode : WeldMode → RequestKind
  | .welding => .weld
  | .preview => .preview

/-- The list job for a seam with these data. -/
def ListJob.ofSeam (generation : UInt64) (data : SeamData) (figure : Figure)
    (wobbleFile : Option String) : ListJob :=
  ⟨generation, .ofMode data.mode, data, figure, wobbleFile⟩

end Cell

namespace DryRun

/-- A dry run loads a wobble figure as a worker does, and notes the fault if it can go on. -/
theorem loadWobble_eq {δ : Type} (w : Welder δ) (wobbleFile : Option String) :
    loadWobble w wobbleFile =
      match loadWobble? w wobbleFile with
      | (.ok (), w) => (.ok [], w)
      | (.error fault, w) => if fault.isFatal then (.error fault, w) else (.ok [fault], w) := by
  cases wobbleFile <;> rfl

variable {δ : Type} [Device δ] {w : Welder δ} {data : SeamData}

theorem compile_of_welding (hmode : data.mode = .welding) (figure : Figure)
    (wobbleFile : Option String) (generation : UInt64) :
    (compile w data figure wobbleFile).2 =
      fillList w (.ofSeam generation data figure wobbleFile) := by
  simp only [compile, fillList, ListJob.ofSeam, RequestKind.ofMode, hmode, loadWobble_eq]
  cases w.prepare data figure with
  | mk prepared v =>
    cases prepared with
    | error fault => rfl
    | ok =>
      simp only
      cases loadWobble? v wobbleFile with
      | mk loaded u =>
        cases loaded with
        | ok => rfl
        | error fault => by_cases hfatal : fault.isFatal = true <;> simp [hfatal]

theorem compile_of_preview (hmode : data.mode = .preview) (hstage : w.seam.stage ≠ .prepared)
    (figure : Figure) (wobbleFile : Option String) (generation : UInt64) :
    (compile w data figure wobbleFile).2 =
      fillList w (.ofSeam generation data figure wobbleFile) := by
  simp only [compile, fillList, ListJob.ofSeam, RequestKind.ofMode, hmode, loadWobble_eq]
  cases hl : loadWobble? w wobbleFile with
  | mk loaded u =>
    cases loaded with
    | ok => rfl
    | error fault =>
      -- the dry run would stop here at a fatal fault, and the worker go on
      have hmild : fault.isFatal = false := by
        cases wobbleFile with
        | none => cases hl
        | some path =>
          have hload : (w.seam.loadWobble w.disk path).1 = .error fault := (Prod.ext_iff.1 hl).1
          exact Seam.mild_of_loadWobble hstage hload
      simp [hmild]

/-- From a welder that is new or was just reset, on either backend, a dry run gives the result that
the worker gives for the same seam, and leaves the same device, files and seam. -/
theorem compile_as_worker {b : Backend} {w : Welder b.State} (hw : w.Unused) (data : SeamData)
    (figure : Figure) (wobbleFile : Option String) (generation : UInt64) :
    (compile w data figure wobbleFile).2 =
      fillList w (.ofSeam generation data figure wobbleFile) := by
  cases hmode : data.mode with
  | welding => exact compile_of_welding hmode figure wobbleFile generation
  | preview =>
    have hidle := hw.stage_eq
    exact compile_of_preview hmode (by rw [hidle]; nofun) figure wobbleFile generation

/-- A controller, with a file that is no figure. -/
def benchMisled : Welder (Backend.State .network) :=
  { benchNetwork with disk := (Welder.soleFile "no figure").disk }

theorem bench_compiled_as_worker :
    (Figure.load benchMisled.disk "w").toOption.isNone = true ∧
    (compile benchMisled.resetSeam { mode := .preview } Welder.twoPoints (some "w")).2 =
      fillList benchMisled.resetSeam
        (.ofSeam 1 { mode := .preview } Welder.twoPoints (some "w")) := by
  have hread : Figure.load benchMisled.disk "w" = Figure.ofDocument "no figure" :=
    Welder.load_soleFile "no figure"
  have hnone : (Figure.ofDocument "no figure").toOption.isNone = true := by decide +kernel
  rw [hread]
  exact ⟨hnone, compile_as_worker (.reset benchMisled) _ _ _ _⟩

end DryRun

end GalvoWeld
