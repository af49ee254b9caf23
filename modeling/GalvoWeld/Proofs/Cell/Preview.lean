import GalvoWeld.Proofs.Card.Memory
import GalvoWeld.Proofs.Cell.Clearance
import GalvoWeld.Proofs.Cell.ListOrder

/-!
# What a preview starts

The list that a start executes is the one that was built last. While one caller makes the requests,
list jobs overtake each other nowhere on their way from the caller to the card, so that for the
latest request the list built last is its own, unless it asks for the list of an earlier seam. In
the list of a preview the laser stays off.
-/

namespace GalvoWeld.Cell

open Card (Spares Faithful)

/-! ### What a list job leaves on the card -/

variable {w w' : Welder CardDevice}

theorem spares_of_lower {s : Seam} {contour : Contour} {setup : Wobble.Setup} {disk disk' : Disk}
    {d d' : CardDevice} {fault : Fault}
    (hl : Device.lower s contour setup disk d = (.error fault, disk', d')) :
    Spares d.card d'.card := by
  have hlower := CardDevice.lower_of_device hl
  unfold CardDevice.lower at hlower
  simp only at hlower
  split at hlower
  · obtain rfl := (Prod.mk.inj hlower).2
    exact .refl _
  · cases hexec : d.card.executing with
    | true =>
      simp only [Card.loadList, hexec, Bool.not_true, Prod.mk.injEq] at hlower
      obtain rfl := hlower.2
      exact Card.spares_loadList hexec Card.listNumber 0
    | false => simp [Card.loadList, hexec] at hlower

theorem spares_of_builds {s : Seam} {fault : Fault}
    (hb : Welder.Builds s w (.error fault, w')) : Spares w.device.card w'.device.card := by
  rcases hb.split with ⟨-, -, hdevice⟩ | ⟨t, contour, setup, -, -, hlower⟩
  · rw [hdevice]
    exact .refl _
  · exact spares_of_lower hlower

/-- What a list job leaves on the card: the memory as it was, or a list that was built, which for a
preview is one of a seam in preview. -/
def Leaves (kind : RequestKind) (w w' : Welder CardDevice) : Except Fault Unit → Prop
  | .error _ => Spares w.device.card w'.device.card
  | .ok () => ∃ s v, v.device = w.device ∧ Welder.Hands s v w' ∧
      (kind = .preview → s.data.mode = .preview)

theorem device_loadWobble (w : Welder CardDevice) (path : Option String) :
    (loadWobble? w path).2.device = w.device := by
  cases path <;> rfl

theorem leaves_of_builds {kind : RequestKind} {s : Seam} {v : Welder CardDevice}
    {outcome : Except Fault Unit × Welder CardDevice} (hb : Welder.Builds s v outcome)
    (hv : v.device = w.device) (hmode : kind = .preview → s.data.mode = .preview) :
    Leaves kind w outcome.2 outcome.1 := by
  obtain ⟨result, w'⟩ := outcome
  cases result with
  | ok => exact ⟨s, v, hv, hb.hands rfl, hmode⟩
  | error fault =>
    have hspares := spares_of_builds hb
    rw [hv] at hspares
    exact hspares

theorem leaves_fillList (w : Welder CardDevice) (job : ListJob) :
    Leaves job.kind w (fillList w job).2 (fillList w job).1 := by
  unfold fillList
  cases job.kind with
  | preview =>
    have hdevice := device_loadWobble w job.wobbleFile
    exact leaves_of_builds (Welder.builds_buildPreviewList _ job.data job.figure) hdevice
      fun _ => rfl
  | weld =>
    simp only
    unfold Welder.prepare
    split
    · next heq =>
      split at heq
      · obtain rfl := (Prod.mk.inj heq).2
        exact .refl _
      · simp at heq
    · next v heq =>
      split at heq
      · simp at heq
      · obtain rfl := (Prod.mk.inj heq).2
        have hdevice := device_loadWobble
          { w with seam := w.seam.prepare job.data job.figure } job.wobbleFile
        split
        · next fault v' hload =>
          rw [hload] at hdevice
          split
          · have hcard : v'.device.card = w.device.card := congrArg CardDevice.card hdevice
            simp only [Leaves, hcard]
            exact .refl _
          · exact leaves_of_builds v'.builds_buildWeldingList hdevice nofun
        · next v' hload =>
          rw [hload] at hdevice
          exact leaves_of_builds v'.builds_buildWeldingList hdevice nofun

/-! ### The list built last -/

def Deed.built? : Deed → Option ListJob
  | .listed job (.ok ()) => some job
  | _ => none

/-- The jobs whose lists were built. -/
def builtJobs (h : List Deed) : List ListJob := h.filterMap Deed.built?

@[simp] theorem builtJobs_append (h ds : List Deed) :
    builtJobs (h ++ ds) = builtJobs h ++ builtJobs ds := List.filterMap_append ..

theorem builtJobs_settle (gate : Gate) (g : UInt64) (fault : Fault) :
    builtJobs (settleDeeds gate g (.error fault)) = [] := filterMap_settle rfl ..

theorem Act.spares {c next : Cell CardDevice} {label : Label} {ds : List Deed}
    (ha : Act c label ds next) (hds : builtJobs ds = []) :
    Spares c.welder.device.card next.welder.device.card := by
  cases ha with
  | @list job =>
    have hleaves := leaves_fillList c.welder job
    cases hr : (fillList c.welder job).1 with
    | error fault =>
      rw [hr] at hleaves
      exact hleaves
    | ok =>
      rw [hr] at hds
      cases hds
  | move => exact Card.spares_gotoXy _ _ _
  | start => exact Card.spares_executeList _ _
  | stop => exact Card.spares_abort _ _
  | _ => exact .refl _

/-- The memory of the card holds the list that was built last: if that was for a preview, or if
there is none, the laser stays off. -/
structure Burned (h : List Deed) (c : Cell CardDevice) : Prop where
  faithful : c.welder.device.card.Faithful
  dark : (∀ job, (builtJobs h).getLast? = some job → job.kind = .preview) →
    c.welder.device.card.memory.Dark

theorem Burned.start {w : Welder CardDevice} (hw : w.device = CardDevice.fresh) :
    Burned [] (idle w) where
  faithful := by
    rw [show (idle w).welder.device = CardDevice.fresh from hw]
    rfl
  dark _ := by
    rw [show (idle w).welder.device = CardDevice.fresh from hw]
    nofun

theorem Burned.spare {h ds : List Deed} {c next : Cell CardDevice} (hb : Burned h c)
    (hds : builtJobs ds = [])
    (hs : Spares c.welder.device.card next.welder.device.card) : Burned (h ++ ds) next := by
  obtain ⟨hfaithful, hentries⟩ := hs hb.faithful
  refine ⟨hfaithful, fun hlast => ?_⟩
  rw [builtJobs_append, hds, List.append_nil] at hlast
  unfold Card.Memory.Dark Card.Memory.powers
  rw [hentries]
  exact hb.dark hlast

theorem Burned.list {h : List Deed} {c next : Cell CardDevice} (hb : Burned h c) {job : ListJob}
    (hnext : next.welder = (fillList c.welder job).2) :
    Burned (h ++ [.listed job (fillList c.welder job).1]) next := by
  have hleaves := leaves_fillList c.welder job
  rw [← hnext] at hleaves
  cases hr : (fillList c.welder job).1 with
  | error fault =>
    rw [hr] at hleaves
    exact hb.spare rfl hleaves
  | ok =>
    rw [hr] at hleaves
    obtain ⟨s, v, hv, ⟨t, contour, setup, halike, hcontour, hlower⟩, hmode⟩ := hleaves
    rw [hv] at hlower
    refine ⟨(Card.memory_of_lower hb.faithful hlower).1, fun hlast => ?_⟩
    have hkind : job.kind = .preview := by
      refine hlast job ?_
      rw [builtJobs_append]
      exact List.getLast?_concat
    have hpreview : t.data.mode = .preview := by
      rw [halike.data]
      exact hmode hkind
    exact Card.dark_of_lower hb.faithful hpreview hcontour hlower

theorem Burned.act {h ds : List Deed} {label : Label} {c next : Cell CardDevice}
    (hb : Burned h c) (ha : Act c label ds next) : Burned (h ++ ds) next := by
  by_cases hds : builtJobs ds = []
  · exact hb.spare hds (ha.spares hds)
  · cases ha with
    | list => exact hb.list rfl
    | listFailed => exact absurd (builtJobs_settle ..) hds
    | moveFailed => exact absurd (builtJobs_settle ..) hds
    | _ => exact absurd rfl hds

theorem mem_listedIn {h : List Deed} {job : ListJob} (hm : job ∈ builtJobs h) :
    job.generation.toNat ∈ listedIn h := by
  obtain ⟨d, hd, hbuilt⟩ := List.mem_filterMap.1 hm
  refine List.mem_filterMap.2 ⟨d, hd, ?_⟩
  cases d with
  | listed job' result =>
    cases result <;> cases hbuilt
    rfl
  | _ => cases hbuilt

/-! ### The latest request -/

theorem le_latest {early late : List Deed} {r : Request} {f : FigurePoint} {g : UInt64}
    (hr : (generations (early ++ .armed r f g :: late)).Pairwise (· < ·))
    (hlate : ∀ r' f' g', .armed r' f' g' ∉ late) :
    ∀ n ∈ generations (early ++ .armed r f g :: late), n ≤ g.toNat := by
  have hnone : generations late = [] := by
    refine List.filterMap_eq_nil_iff.2 fun d hd => ?_
    cases d with
    | armed r' f' g' => exact absurd hd (hlate r' f' g')
    | _ => rfl
  have hsplit : generations (early ++ .armed r f g :: late) = generations early ++ [g.toNat] := by
    have hcons : generations (.armed r f g :: late) = g.toNat :: generations late := rfl
    rw [generations_append, hcons, hnone]
  rw [hsplit] at hr ⊢
  intro n hn
  rcases List.mem_append.1 hn with hold | hlast
  · exact Nat.le_of_lt ((List.pairwise_append.1 hr).2.2 n hold _ (List.mem_singleton_self _))
  · exact Nat.le_of_eq (List.mem_singleton.1 hlast)

variable {δ : Type} [Device δ]

theorem orderly_of_run {w : Welder δ} {labels : List Label} {c : Cell δ} {q : Nat}
    (hrun : run (idle w) labels = some c)
    (few : restarts (history (idle w) labels) < UInt64.size)
    (hsole : ∀ i r, .call i (.request r) ∈ labels → i = q) :
    Orderly q (history (idle w) labels) c := by
  refine (run_counted hrun Counted.start few (Orderly.start q w) ?_).2
  intro label hl h d ds e hcount hfew horder ha
  have hown : ∀ i r, label = .call i (.request r) → i = q := by
    rintro i r rfl
    exact hsole i r hl
  exact horder.act hcount hown ha hfew

/-- Past the gate with the latest request of a sole caller, the list built last is that of the
request, unless it has none of its own. -/
theorem own_list_last {w : Welder δ} {labels : List Label} {c : Cell δ} {q : Nat} {job : StartJob}
    {r : Request} {f : FigurePoint} {early late : List Deed}
    (hrun : run (idle w) labels = some c)
    (few : restarts (history (idle w) labels) < UInt64.size)
    (hsole : ∀ i r, .call i (.request r) ∈ labels → i = q)
    (hstarter : c.starter = .admitted job)
    (hlatest : history (idle w) labels = early ++ .armed r f job.generation :: late)
    (hlate : ∀ r' f' g, .armed r' f' g ∉ late) (hown : r.contourPrepared = false) :
    (builtJobs (history (idle w) labels)).getLast? = some (r.listJob job.generation) := by
  have ht := traced_of_run hrun few
  have ho := orderly_of_run hrun few hsole
  have hrising := ht.counted.rising
  have harmed : .armed r f job.generation ∈ history (idle w) labels := by
    rw [hlatest]
    exact List.mem_append_right _ (List.mem_cons_self ..)
  obtain ⟨r', f', hc⟩ := ht.vouched.starter job hstarter
  obtain ⟨rfl, rfl⟩ := armed_unique hrising hc.armed harmed
  have hlisted : .listed (r'.listJob job.generation) (.ok ()) ∈ history (idle w) labels := by
    rcases hc.list with hprepared | hs
    · rw [hown] at hprepared
      cases hprepared
    · exact hs.subset (by simp)
  obtain ⟨front, back, hsplit⟩ := List.append_of_mem hlisted
  have hnone : builtJobs back = [] := by
    -- a list that was built later would be of a later generation, but this one is the latest
    refine List.eq_nil_iff_forall_not_mem.2 fun job' hm => ?_
    have hway := ho.rising
    have hknown := ho.known
    unfold way at hway hknown
    have hbehind : listedIn (history (idle w) labels) =
        listedIn front ++ job.generation.toNat :: listedIn back := by
      rw [hsplit, listedIn_append]
      rfl
    have hmem := mem_listedIn hm
    have hgen : job'.generation.toNat ∈ generations (history (idle w) labels) := by
      refine hknown _ ?_
      rw [hbehind]
      simp [hmem]
    rw [hbehind] at hway
    have hfirst := (List.pairwise_append.1 (List.pairwise_append.1 (List.pairwise_append.1
      (List.pairwise_append.1 hway).1).1).1).2.1
    have hless := List.rel_of_pairwise_cons hfirst hmem
    rw [hlatest] at hrising hgen
    have hle := le_latest hrising hlate _ hgen
    omega
  rw [hsplit, builtJobs_append]
  have hcons : builtJobs (.listed (r'.listJob job.generation) (.ok ()) :: back) =
      r'.listJob job.generation :: builtJobs back := rfl
  rw [hcons, hnone]
  exact List.getLast?_concat

/-! ### Starts of previews -/

/-- A preview is started with the laser off: when a step starts the weld for the latest request of
a sole caller and this is a preview, every power in the list memory is 0, unless the request uses
the list of an earlier seam and the last one was built to weld. -/
theorem preview_starts_dark {w : Welder CardDevice} {labels : List Label}
    {c next : Cell CardDevice} {label : Label} {q : Nat} {job : StartJob}
    {result : Except Fault Unit} {r : Request} {f : FigurePoint} {early late : List Deed}
    (hw : w.device = CardDevice.fresh) (hrun : run (idle w) labels = some c)
    (hstep : step c label = some next) (hstarted : .started job result ∈ deeds c label)
    (few : restarts (history (idle w) labels) < UInt64.size)
    (hsole : ∀ i r, .call i (.request r) ∈ labels → i = q)
    (hlatest : history (idle w) labels = early ++ .armed r f job.generation :: late)
    (hlate : ∀ r' f' g, .armed r' f' g ∉ late) (hkind : r.kind = .preview)
    (hlist : r.contourPrepared = true → ∀ built,
      (builtJobs (history (idle w) labels)).getLast? = some built → built.kind = .preview) :
    c.welder.device.card.memory.Dark := by
  have hburned : Burned (history (idle w) labels) c :=
    run_invariant hrun (Burned.start hw) fun _ _ _ _ _ _ hb ha => hb.act ha
  obtain ⟨-, hstarter, -⟩ := (act_of_step hstep).started hstarted
  refine hburned.dark fun built hbuilt => ?_
  cases hprepared : r.contourPrepared with
  | true => exact hlist hprepared built hbuilt
  | false =>
    have hown := own_list_last hrun few hsole hstarter hlatest hlate hprepared
    obtain rfl := Option.some.inj (hbuilt.symm.trans hown)
    exact hkind

/-- On the bench: a preview of its own up to the starter's way through the gate. -/
def benchPreview : List Label :=
  [callSteps 0 (.request (benchRequest .preview false)) 6, List.replicate 3 .lister,
    List.replicate 3 .mover, List.replicate 2 .starter].flatten

theorem bench_preview_dark :
    ((run bench benchPreview).get rfl).welder.device.card.memory.Dark := by
  have hrun : run bench benchPreview = some ((run bench benchPreview).get rfl) :=
    (Option.some_get _).symm
  obtain ⟨next, hstep⟩ : ∃ next, step ((run bench benchPreview).get rfl) .starter = some next :=
    Option.isSome_iff_exists.1 rfl
  have hstarted : .started ⟨1, 0⟩ (.ok ()) ∈ deeds ((run bench benchPreview).get rfl) .starter :=
    List.mem_singleton_self _
  have few : restarts (history bench benchPreview) < UInt64.size := by decide +kernel
  have hsole : ∀ i r, .call i (.request r) ∈ benchPreview → i = 0 := by
    intro i r hm
    simp [benchPreview, callSteps] at hm
    exact hm.1
  have hlatest : history bench benchPreview = (history bench benchPreview).take 2 ++
      .armed (benchRequest .preview false) benchPoint 1 ::
        (history bench benchPreview).drop 3 := rfl
  have hlate : (history bench benchPreview).drop 3 =
      [.ended 0 (.ok ()), .listed ((benchRequest .preview false).listJob 1) (.ok ()),
        .moved ((benchRequest .preview false).moveJob benchPoint 1) (.ok ())] := rfl
  exact preview_starts_dark rfl hrun hstep hstarted few hsole hlatest (by simp [hlate]) rfl nofun

/-- On the bench: a weld that was started and stopped, then a preview that uses its list. -/
def benchReuse : List Label :=
  [benchAdmission, List.replicate 2 .starter, callSteps 0 .stopMark 2, callSteps 0 .seamEnd 2,
    callSteps 0 (.request (benchRequest .preview true)) 6, List.replicate 4 .mover,
    List.replicate 2 .starter].flatten

/-- It is not so that every start of a preview finds no power but 0 in the list memory. -/
theorem reused_list_burns :
    ¬ ∀ (labels : List Label) (label : Label) (c next : Cell CardDevice) (job : StartJob)
      (result : Except Fault Unit) (r : Request) (f : FigurePoint) (early late : List Deed),
      run bench labels = some c → step c label = some next →
      .started job result ∈ deeds c label → (∀ i call, .call i call ∈ labels → i = 0) →
      history bench labels = early ++ .armed r f job.generation :: late →
      (∀ r' f' g, .armed r' f' g ∉ late) → r.kind = .preview →
      c.welder.device.card.memory.Dark := by
  intro hall
  have hrun : run bench benchReuse = some ((run bench benchReuse).get rfl) :=
    (Option.some_get _).symm
  obtain ⟨next, hstep⟩ : ∃ next, step ((run bench benchReuse).get rfl) .starter = some next :=
    Option.isSome_iff_exists.1 rfl
  have hstarted : .started ⟨4, 0⟩ (.ok ()) ∈ deeds ((run bench benchReuse).get rfl) .starter :=
    List.mem_singleton_self _
  have hsole : ∀ i call, .call i call ∈ benchReuse → i = 0 := by
    intro i call hm
    simp [benchReuse, benchAdmission, callSteps] at hm
    omega
  have hlatest : history bench benchReuse = (history bench benchReuse).take 20 ++
      .armed (benchRequest .preview true) benchPoint 4 ::
        (history bench benchReuse).drop 21 := rfl
  have hlate : (history bench benchReuse).drop 21 =
      [.ended 0 (.ok ()), .reported (.scannerMoved 0),
        .moved ((benchRequest .preview true).moveJob benchPoint 4) (.ok ())] := rfl
  have hdark := hall benchReuse _ _ _ _ _ _ _ _ _ hrun hstep hstarted hsole hlatest
    (by simp [hlate]) rfl
  have hpowers : ((run bench benchReuse).get rfl).welder.device.card.memory.powers = [2048, 0] := by
    decide +kernel
  unfold Card.Memory.Dark at hdark
  rw [hpowers] at hdark
  exact absurd (hdark 2048 (List.mem_cons_self ..)) (by decide)

end GalvoWeld.Cell
