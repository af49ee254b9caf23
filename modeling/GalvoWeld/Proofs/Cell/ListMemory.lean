import GalvoWeld.Proofs.Card.Vectors
import GalvoWeld.Proofs.Cell.Preview

/-!
# The list memory along a run

Whatever a cell does to its welder is a sequence of operations, so that the configuration and the
working directory stay as they were. The list memory changes where a list is built and nowhere else,
and a wobble figure that is still attached was left by a list job that the scanner has not
forgotten.
-/

namespace GalvoWeld.Cell

open Card (Faithful)

/-! ### Operations of a cell -/

section
variable {δ : Type} [Device δ]

/-- A list job is a sequence of operations, and attaches no wobble figure but that of its file. -/
theorem fillList_after (w : Welder δ) (job : ListJob) :
    ∃ ops, (fillList w job).2 = w.after ops ∧
      ∀ op ∈ ops, op.attaches = true → job.wobbleFile.isSome = true := by
  unfold fillList
  cases job.kind with
  | preview =>
    cases hfile : job.wobbleFile with
    | none => exact ⟨[.buildPreviewList job.data job.figure], rfl, by simp [Operation.attaches]⟩
    | some path =>
      exact ⟨[.loadWobble path, .buildPreviewList job.data job.figure], rfl, fun _ _ _ => rfl⟩
  | weld =>
    simp only
    cases hp : w.prepare job.data job.figure with
    | mk result v =>
      have hprepare : (w.perform (.prepare job.data job.figure)).2 = v := congrArg Prod.snd hp
      cases result with
      | error fault =>
        exact ⟨[.prepare job.data job.figure], hprepare.symm, by simp [Operation.attaches]⟩
      | ok =>
        cases hfile : job.wobbleFile with
        | none =>
          refine ⟨[.prepare job.data job.figure, .buildWeldingList], ?_,
            by simp [Operation.attaches]⟩
          simp only [Welder.after, List.foldl_cons, List.foldl_nil, hprepare]
          rfl
        | some path =>
          cases hl : v.loadWobble path with
          | mk loaded u =>
            have hload : (v.perform (.loadWobble path)).2 = u := congrArg Prod.snd hl
            have hbuild : u.buildWeldingList.2 = w.after
                [.prepare job.data job.figure, .loadWobble path, .buildWeldingList] := by
              simp only [Welder.after, List.foldl_cons, List.foldl_nil, hprepare, hload]
              rfl
            cases loaded with
            | ok =>
              refine ⟨_, Eq.trans ?_ hbuild, fun _ _ _ => rfl⟩
              simp only [loadWobble?, hl]
            | error fault =>
              by_cases hfatal : fault.isFatal = true
              · refine ⟨[.prepare job.data job.figure, .loadWobble path], ?_, fun _ _ _ => rfl⟩
                simp only [loadWobble?, hl, if_pos hfatal, Welder.after, List.foldl_cons,
                  List.foldl_nil, hprepare, hload]
              · refine ⟨_, Eq.trans ?_ hbuild, fun _ _ _ => rfl⟩
                simp only [loadWobble?, hl, if_neg hfatal]

theorem Act.welder_after {c next : Cell δ} {label : Label} {ds : List Deed}
    (ha : Act c label ds next) : ∃ ops, next.welder = c.welder.after ops := by
  cases ha with
  | clear => exact ⟨[.resetSeam], rfl⟩
  | stop => exact ⟨[.stopMark], rfl⟩
  | @list job =>
    obtain ⟨ops, hops, -⟩ := fillList_after c.welder job
    exact ⟨ops, hops⟩
  | @move job => exact ⟨[.moveTo job.target], rfl⟩
  | start => exact ⟨[.startMark], rfl⟩
  | _ => exact ⟨[], rfl⟩

end

theorem fixed_of_run {c last : Cell CardDevice} {labels : List Label}
    (hrun : run c labels = some last) :
    last.welder.seam.config = c.welder.seam.config ∧ last.welder.disk = c.welder.disk := by
  let P : List Deed → Cell CardDevice → Prop := fun _ d =>
    d.welder.seam.config = c.welder.seam.config ∧ d.welder.disk = c.welder.disk
  have hstart : P [] c := ⟨rfl, rfl⟩
  refine run_invariant hrun hstart ?_
  intro label _ h d ds e hd ha
  obtain ⟨ops, hops⟩ := ha.welder_after
  simp only [P, hops]
  refine Welder.after_induction (P := fun v => v.seam.config = c.welder.seam.config ∧
    v.disk = c.welder.disk) hd ?_
  rintro v op - ⟨hconfig, hdisk⟩
  exact ⟨(v.kept_by_perform op).1.trans hconfig, (v.disk_perform op).trans hdisk⟩

/-! ### The list memory -/

theorem entries_of_run {c last : Cell CardDevice} {labels : List Label}
    (hrun : run c labels = some last) (hf : c.welder.device.card.Faithful)
    (hnone : builtJobs (history c labels) = []) :
    last.welder.device.card.memory.entries = c.welder.device.card.memory.entries := by
  let P : List Deed → Cell CardDevice → Prop := fun h d => builtJobs h = [] →
    d.welder.device.card.Faithful ∧
      d.welder.device.card.memory.entries = c.welder.device.card.memory.entries
  have hstart : P [] c := fun _ => ⟨hf, rfl⟩
  refine (run_invariant hrun hstart ?_ hnone).2
  intro label _ h d ds e hd ha hbuilt
  rw [builtJobs_append, List.append_eq_nil_iff] at hbuilt
  obtain ⟨hfaithful, hentries⟩ := hd hbuilt.1
  obtain ⟨hnext, hsame⟩ := ha.spares hbuilt.2 hfaithful
  exact ⟨hnext, hsame.trans hentries⟩

theorem faithful_of_run {w : Welder CardDevice} {labels : List Label} {c : Cell CardDevice}
    (hw : w.device = CardDevice.fresh) (hrun : run (idle w) labels = some c) :
    c.welder.device.card.Faithful :=
  (run_invariant hrun (Burned.start hw) fun _ _ _ _ _ _ hb ha => hb.act ha).faithful

/-! ### The wobble figure -/

/-- Every list job with a wobble figure was done before the scanner last forgot its seam. -/
def WobbleForgotten (h : List Deed) : Prop :=
  ∀ early job result late, h = early ++ .listed job result :: late →
    job.wobbleFile.isSome = true → .cleared ∈ late

theorem WobbleForgotten.earlier {h ds : List Deed} (hw : WobbleForgotten (h ++ ds))
    (hds : .cleared ∉ ds) : WobbleForgotten h := by
  intro early job result late hsplit hfile
  have hall : h ++ ds = early ++ .listed job result :: (late ++ ds) := by
    rw [hsplit, List.append_assoc, List.cons_append]
  rcases List.mem_append.1 (hw early job result _ hall hfile) with hlate | hnow
  · exact hlate
  · exact absurd hnow hds

theorem WobbleForgotten.last {h : List Deed} {job : ListJob} {result : Except Fault Unit}
    (hw : WobbleForgotten (h ++ [.listed job result])) : job.wobbleFile.isSome ≠ true := by
  intro hfile
  cases hw h job result [] rfl hfile

theorem Act.wobbleFigure {c next : Cell CardDevice} {h ds : List Deed} {label : Label}
    (ha : Act c label ds next) (hw : WobbleForgotten (h ++ ds))
    (hc : WobbleForgotten h → c.welder.seam.wobbleFigure = none) :
    next.welder.seam.wobbleFigure = none := by
  have hsettle : ∀ {gate : Gate} {g : UInt64} {fault : Fault},
      .cleared ∉ settleDeeds gate g (.error fault) := fun hm => by cases eq_reset_of_settle hm
  cases ha with
  | clear => rfl
  | @list job =>
    obtain ⟨ops, hops, hattaches⟩ := fillList_after c.welder job
    have hnone := hc (hw.earlier (by simp))
    have hnext : (c.welder.after ops).seam.wobbleFigure = none := by
      refine Welder.after_induction (P := fun v => v.seam.wobbleFigure = none) hnone ?_
      intro v op hm hv
      have hkeeps : op.attaches = false := by
        cases hop : op.attaches with
        | false => rfl
        | true => exact absurd (hattaches op hm hop) hw.last
      exact ((v.kept_by_perform op).2 hkeeps).trans hv
    rw [← hops] at hnext
    exact hnext
  | stop => exact hc (hw.earlier (by simp))
  | move => exact hc (hw.earlier (by simp))
  | start =>
    have hkept := (c.welder.kept_by_perform .startMark).2 rfl
    exact hkept.trans (hc (hw.earlier (by simp)))
  | listFailed => exact hc (hw.earlier hsettle)
  | moveFailed => exact hc (hw.earlier hsettle)
  | _ => exact hc (hw.earlier (by simp))

/-- No wobble figure is attached where all list jobs with one are forgotten. -/
theorem wobbleFigure_of_run {w : Welder CardDevice} {labels : List Label} {c : Cell CardDevice}
    (hw : w.seam.wobbleFigure = none) (hrun : run (idle w) labels = some c)
    (hf : WobbleForgotten (history (idle w) labels)) : c.welder.seam.wobbleFigure = none := by
  let P : List Deed → Cell CardDevice → Prop := fun h d =>
    WobbleForgotten h → d.welder.seam.wobbleFigure = none
  have hstart : P [] (idle w) := fun _ => hw
  refine run_invariant hrun hstart (fun label _ h d ds e hd ha hforgot => ?_) hf
  exact ha.wobbleFigure hforgot hd

end GalvoWeld.Cell
