import GalvoWeld.Proofs.Cell.LastRequest

/-!
# After a fatal event

A worker that fails with its job reports a fatal event. The lister and the mover give the seam up
before they do so, and nothing that the gate is told afterwards makes it ready for that request. The
starter leaves the gate as it is, so that the gate is ready again as soon as the rest is done.
-/

namespace GalvoWeld.Cell

variable {δ : Type}

/-! ### Workers that fail -/

/-- Whose step this is. -/
def Label.worker? : Label → Option Worker
  | .lister => some .listFill
  | .mover => some .scannerMove
  | .starter => some .startWeld
  | .timeout => some .startWeld
  | _ => none

def Label.ofWorker : Worker → Label
  | .listFill => .lister
  | .scannerMove => .mover
  | .startWeld => .starter

/-- This worker has the event in its hand. -/
def Reporting (c : Cell δ) (e : Event) : Worker → Prop
  | .listFill => c.lister = .reporting e
  | .scannerMove => c.mover = .reporting e
  | .startWeld => c.starter = .reporting e

variable [Device δ]

/-- The next step of this worker comes to a fault, with a job of this generation and seam. -/
inductive Fails (c : Cell δ) : Worker → UInt64 → Nat → Fault → Prop where
  | list {g seam fault} (hl : c.lister = .finished g seam (.error fault)) :
    Fails c .listFill g seam fault
  | move {g seam fault} (hm : c.mover = .finished g seam (.error fault)) :
    Fails c .scannerMove g seam fault
  | wait {job fault} (hs : c.starter = .waiting job)
      (ho : c.gate.outcome job.generation c.welder.seam.config.gateTimeoutMs = .error fault) :
    Fails c .startWeld job.generation job.seam fault
  | start {job fault} (hs : c.starter = .admitted job) (hf : c.welder.startMark.1 = .error fault) :
    Fails c .startWeld job.generation job.seam fault

/-- In one of these steps the worker failed, and it did nothing since. -/
def FailedLast (c : Cell δ) (labels : List Label) (k : Worker) (g : UInt64) (seam : Nat)
    (fault : Fault) : Prop :=
  ∃ front label rest mid, labels = front ++ label :: rest ∧ run c front = some mid ∧
    Fails mid k g seam fault ∧ label.worker? = some k ∧ ∀ l ∈ rest, l.worker? ≠ some k

section
variable {h ds : List Deed} {label : Label} {c next : Cell δ} {k : Worker} {seam : Nat}
  {fault : Fault}

theorem fatal_of_afterFault {seam' : Nat} {fault' : Fault}
    (he : afterFault seam' fault' = .reporting (.fatal seam fault)) :
    seam = seam' ∧ fault = fault' :=
  Event.fatal.inj (eq_fatal_of_afterFault he)

/-- A fatal event was in the hand of the worker before the step, or the step failed. -/
theorem Act.reporting (ha : Act c label ds next) (hn : Reporting next (.fatal seam fault) k) :
    (Reporting c (.fatal seam fault) k ∧ label.worker? ≠ some k) ∨
      (label.worker? = some k ∧ ∃ g, Fails c k g seam fault) := by
  cases k with
  | listFill =>
    cases ha with
    | listFailed hl =>
      obtain ⟨rfl, rfl⟩ := Event.fatal.inj (Hand.reporting.inj hn)
      exact .inr ⟨rfl, _, .list hl⟩
    | listFetch | listLeave | list | listDone | listReport => cases hn
    | _ => exact .inl ⟨hn, nofun⟩
  | scannerMove =>
    cases ha with
    | moveFailed hm =>
      obtain ⟨rfl, rfl⟩ := Event.fatal.inj (Hand.reporting.inj hn)
      exact .inr ⟨rfl, _, .move hm⟩
    | moveFetch | moveLeave | move | moveDone | moveReport => cases hn
    | _ => exact .inl ⟨hn, nofun⟩
  | startWeld =>
    cases ha with
    | startFetch | startLeave | pass | startReport => cases hn
    | turnBack hs _ ho | giveIn hs _ ho =>
      obtain ⟨rfl, rfl⟩ := fatal_of_afterFault hn
      exact .inr ⟨rfl, _, .wait hs ho⟩
    | start hs =>
      cases hr : c.welder.startMark.1 with
      | ok => simp [Reporting, hr] at hn
      | error fault' =>
        simp only [Reporting, hr] at hn
        obtain ⟨rfl, rfl⟩ := fatal_of_afterFault hn
        exact .inr ⟨rfl, _, .start hs hr⟩
    | _ => exact .inl ⟨hn, nofun⟩

theorem Act.reports_own {e : Event} (ha : Act c label ds next) (hm : .reported e ∈ ds) :
    ∃ k, label = .ofWorker k ∧ Reporting c e k := by
  rcases (ha.reports hm).2 with ⟨hlabel, he⟩ | ⟨hlabel, he⟩ | ⟨hlabel, he⟩
  · exact ⟨.listFill, hlabel, he⟩
  · exact ⟨.scannerMove, hlabel, he⟩
  · exact ⟨.startWeld, hlabel, he⟩

theorem failedLast_of_reporting {w : Welder δ} {labels : List Label}
    (hrun : run (idle w) labels = some c) (hc : Reporting c (.fatal seam fault) k) :
    ∃ g, FailedLast (idle w) labels k g seam fault := by
  -- back from the end of the run to the step that put the event into the hand
  induction labels using List.reverseRecOn generalizing c with
  | nil =>
    obtain rfl := Option.some.inj hrun
    cases k <;> cases hc
  | append_singleton rest label ih =>
    rw [run_append] at hrun
    obtain ⟨mid, hrest, hlast⟩ := Option.bind_eq_some_iff.1 hrun
    obtain ⟨next, hstep, hnil⟩ := run_cons_eq_some.1 hlast
    obtain rfl := Option.some.inj hnil
    rcases (act_of_step hstep).reporting hc with ⟨hmid, hother⟩ | ⟨hown, g, hfails⟩
    · obtain ⟨g, front, l, late, d, rfl, hfront, hfails, hl, hlate⟩ := ih hrest hmid
      refine ⟨g, front, l, late ++ [label], d, by simp, hfront, hfails, hl, fun l' hl' => ?_⟩
      rcases List.mem_append.1 hl' with hold | hnew
      · exact hlate l' hold
      · rw [List.mem_singleton.1 hnew]
        exact hother
    · exact ⟨g, rest, label, [], mid, rfl, hrest, hfails, hown, by simp⟩

/-! ### Whose fault it is -/

/-- What a worker has to tell of is a job of a request that armed the gate. -/
def Desk.Assigned {α : Type} (k : Desk α) (h : List Deed) (hand : Hand α) : Prop :=
  ∀ g seam result, hand = .finished g seam result →
    ∃ r f, .armed r f g ∈ h ∧ seam = k.seam (k.mine r f g)

omit [Device δ] in
theorem Desk.Assigned.turn {α : Type} {k : Desk α} {hand hand' : Hand α} (ha : k.Assigned h hand)
    (hi : ∀ job, hand = .holding job → k.Issued h job) (ht : k.Turn hand ds hand') :
    k.Assigned (h ++ ds) hand' := by
  cases ht with
  | rest =>
    intro g seam result hf
    obtain ⟨r, f, hm, hseam⟩ := ha g seam result hf
    exact ⟨r, f, List.mem_append_left _ hm, hseam⟩
  | @work job result =>
    intro g seam result' hf
    injection hf with hg hseam
    obtain ⟨r, f, hm, hjob⟩ := hi job rfl
    rw [hg] at hm hjob
    exact ⟨r, f, List.mem_append_left _ hm, by rw [← hseam, hjob]⟩
  | _ => nofun

omit [Device δ] in
theorem Counted.over_settle (hc : Counted h c.gate) {r : Request} {f : FigurePoint} {g : UInt64}
    (hm : .armed r f g ∈ h) (fault : Fault) :
    Over (h ++ settleDeeds c.gate g (.error fault)) g := by
  have hle := hc.bound _ (mem_generations hm)
  -- either the gate is reset now, or a later generation has begun already
  by_cases hg : c.gate.generation = g
  · simp only [settleDeeds, if_pos hg]
    exact over_reset hle
  · refine Over.later (Nat.lt_of_le_of_ne hle fun heq => hg ?_) _
    rw [hc.gate, ← heq, UInt64.ofNat_toNat]

/-- A lister or mover that fails gives the seam up in the same step. -/
theorem Act.gives_up (ha : Act c label ds next) (hc : Counted h c.gate) {r : Request}
    {f : FigurePoint} {g : UInt64} (hm : .armed r f g ∈ h) (hf : Fails c k g seam fault)
    (hlabel : label.worker? = some k) (hk : k ≠ .startWeld) : Over (h ++ ds) g := by
  cases hf with
  | list hl =>
    cases ha with
    | listFailed hl' =>
      cases hl.symm.trans hl'
      exact hc.over_settle hm fault
    | listFetch hl' | listLeave hl' | list hl' | listDone hl' | listReport hl' =>
      cases hl.symm.trans hl'
    | _ => cases hlabel
  | move hl =>
    cases ha with
    | moveFailed hl' =>
      cases hl.symm.trans hl'
      exact hc.over_settle hm fault
    | moveFetch hl' | moveLeave hl' | move hl' | moveDone hl' | moveReport hl' =>
      cases hl.symm.trans hl'
    | _ => cases hlabel
  | wait => exact absurd rfl hk
  | start => exact absurd rfl hk

end

section
variable {w : Welder δ} {labels : List Label} {c : Cell δ} {k : Worker} {g : UInt64} {seam : Nat}
  {fault : Fault}

theorem request_of_fails (hrun : run (idle w) labels = some c) (hf : Fails c k g seam fault) :
    ∃ r f, .armed r f g ∈ history (idle w) labels ∧ seam = r.data.seam := by
  have hlast := run_invariant (P := fun h (d : Cell δ) => Issued h d ∧ Tidy h d ∧
    listDesk.Assigned h d.lister ∧ moveDesk.Assigned h d.mover) hrun
    ⟨Issued.start w, Tidy.start w, nofun, nofun⟩ ?_
  · obtain ⟨hissued, -, hlister, hmover⟩ := hlast
    cases hf with
    | list hl => exact hlister _ _ _ hl
    | move hm => exact hmover _ _ _ hm
    | @wait job _ hs _ =>
      obtain ⟨r, f, hm, hjob⟩ := hissued.waiting job hs
      exact ⟨r, f, hm, congrArg StartJob.seam hjob⟩
    | @start job _ hs _ =>
      obtain ⟨r, f, hm, hjob⟩ := hissued.admitted job hs
      exact ⟨r, f, hm, congrArg StartJob.seam hjob⟩
  · intro label _ h d ds e hd ha
    obtain ⟨hissued, htidy, hlister, hmover⟩ := hd
    exact ⟨hissued.act ha, htidy.act hissued ha,
      hlister.turn hissued.lister (ha.turn_lister htidy),
      hmover.turn hissued.mover (ha.turn_mover htidy)⟩

/-- A worker that failed did so for a request that armed the gate, and the lister and the mover have
given its seam up. -/
theorem request_of_failedLast (hrun : run (idle w) labels = some c)
    (few : restarts (history (idle w) labels) < UInt64.size)
    (hf : FailedLast (idle w) labels k g seam fault) :
    ∃ r f, .armed r f g ∈ history (idle w) labels ∧ seam = r.data.seam ∧
      (k ≠ .startWeld → Over (history (idle w) labels) g) := by
  obtain ⟨front, label, rest, mid, rfl, hfront, hfails, hlabel, -⟩ := hf
  obtain ⟨next, hstep, hrest⟩ := step_of_run_middle hrun hfront
  obtain ⟨r, f, hm, hseam⟩ := request_of_fails hfront hfails
  have hhist : history (idle w) (front ++ label :: rest) =
      history (idle w) front ++ deeds mid label ++ history next rest := by
    rw [history_append hfront]
    simp [history, hstep]
  rw [hhist] at few ⊢
  rw [restarts_append, restarts_append] at few
  refine ⟨r, f, List.mem_append_left _ (List.mem_append_left _ hm), hseam, fun hk => ?_⟩
  have hcounted := (traced_of_run hfront (by omega)).counted
  exact ((act_of_step hstep).gives_up hcounted hm hfails hlabel hk).later _

/-- All that a start needs was there when this one was tried. -/
theorem primed_of_started (hrun : run (idle w) labels = some c)
    (few : restarts (history (idle w) labels) < UInt64.size) {r : Request} {f : FigurePoint}
    (hm : .armed r f g ∈ history (idle w) labels) {result : Except Fault Unit}
    (hs : .started (r.startJob g) result ∈ history (idle w) labels) :
    HeightReady (history (idle w) labels) r f g ∧ Primed (history (idle w) labels) c r f g := by
  have hrising := (traced_of_run hrun few).counted.rising
  have hrec := recorded_of_run hrun few
  constructor
  · obtain ⟨before, after, hsplit⟩ := List.append_of_mem hs
    obtain ⟨front, back, mid, -, hfront, rfl, hadm⟩ := admitted_of_started hrun hsplit
    rw [hsplit, restarts_append] at few
    -- who was admitted for it was told so by the gate, after the height
    obtain ⟨r', f', hcleared⟩ := (traced_of_run hfront (by omega)).vouched.starter _ hadm
    have hheight := hcleared.height.later (.started (r.startJob g) result :: after)
    have hm' : .armed r' f' g ∈ history (idle w) labels := by
      rw [hsplit]
      exact List.mem_append_left _ hcleared.armed
    obtain ⟨rfl, rfl⟩ := armed_unique hrising hm hm'
    rw [hsplit]
    exact hheight
  · obtain ⟨r', f', -, hprimed⟩ := hrec.announced.started _ _ hs
    obtain ⟨rfl, rfl⟩ := armed_unique hrising hm hprimed.armed
    exact hprimed

/-- A fatal event is of a request that armed the gate, and is reported by a worker that failed with
a job of it. As long as no request arms the gate again: if this was the lister or the mover, the
gate stays idle. After a start that failed, it is ready if and only if it was not reset since. In
any case it is ready if and only if it was not reset since the request armed it, and all that the
request needs was done and the gate was told of it. -/
theorem ready_after_fatal_iff {before after : List Deed} (hrun : run (idle w) labels = some c)
    (few : restarts (history (idle w) labels) < UInt64.size)
    (hsplit : history (idle w) labels = before ++ .reported (.fatal seam fault) :: after) :
    ∃ front back k r f g, labels = front ++ .ofWorker k :: back ∧ history (idle w) front = before ∧
      FailedLast (idle w) front k g seam fault ∧ .armed r f g ∈ before ∧ seam = r.data.seam ∧
      ∀ early late, history (idle w) labels = early ++ .armed r f g :: late →
        (∀ r' f' g', .armed r' f' g' ∉ late) →
        (k ≠ .startWeld → c.gate.phase = .idle) ∧
        (.started (r.startJob g) (.error fault) ∈ before →
          (c.gate.isReady = true ↔ .reset ∉ late)) ∧
        (c.gate.isReady = true ↔ .reset ∉ late ∧ HeightReady (history (idle w) labels) r f g ∧
          Primed (history (idle w) labels) c r f g) := by
  obtain ⟨front, label, back, mid, next, rfl, hfront, -, hact, -, rfl, -⟩ :=
    run_split_alone hrun hsplit fun ha hm => (ha.reports hm).1
  obtain ⟨k, rfl, hreporting⟩ := hact.reports_own (List.mem_singleton_self _)
  obtain ⟨g, hfailed⟩ := failedLast_of_reporting hfront hreporting
  have hfew : restarts (history (idle w) front) < UInt64.size := by
    rw [hsplit, restarts_append] at few
    omega
  obtain ⟨r, f, hm, hseam, hover⟩ := request_of_failedLast hfront hfew hfailed
  have hkept : ∀ d ∈ history (idle w) front,
      d ∈ history (idle w) (front ++ .ofWorker k :: back) := by
    intro d hd
    rw [hsplit]
    exact List.mem_append_left _ hd
  refine ⟨front, back, k, r, f, g, rfl, rfl, hfailed, hm, hseam, fun early late hlast hnone => ?_⟩
  have hready := isReady_iff_of_last hrun few hlast hnone
  refine ⟨fun hk => ?_, fun hstarted => ?_, hready⟩
  · have hgiven : Over (history (idle w) (front ++ .ofWorker k :: back)) g := by
      rw [hsplit]
      exact (hover hk).later _
    have hunarmed := not_armed_of_over hrun few hlast hnone hgiven
    simp only [Gate.phase, hunarmed, Bool.not_false, if_true]
  · have hprimed := primed_of_started hrun few (hkept _ hm) (hkept _ hstarted)
    rw [hready]
    exact and_iff_left hprimed

end

/-- On the bench: list and move are done, the time is up before the height is compensated, and the
height comes after the fatal event. -/
def benchBelated : List Label :=
  callSteps 0 (.request (benchRequest .weld false)) 6 ++ List.replicate 4 .lister ++
    List.replicate 4 .mover ++ [.starter, .timeout, .starter] ++ callSteps 0 .heightDone 1

def benchRipe : Cell CardDevice := (run bench benchBelated).get rfl

theorem run_benchRipe : run bench benchBelated = some benchRipe := (Option.some_get _).symm

theorem isReady_benchRipe : benchRipe.gate.isReady = true := rfl

/-- What is done there before the fatal event. -/
def benchUntimely : List Deed :=
  let r := benchRequest .weld false
  [.began 0 (.request r), .accepted r, .armed r benchPoint 1, .ended 0 (.ok ()),
    .listed (r.listJob 1) (.ok ()), .reported (.listBuilt 0),
    .moved (r.moveJob benchPoint 1) (.ok ()), .reported (.scannerMoved 0)]

def benchTimeout : Fault := .gateTimeout ({} : Config).gateTimeoutMs .heightPending

theorem history_benchBelated : history bench benchBelated =
    benchUntimely ++ .reported (.fatal 0 benchTimeout) ::
      [.began 0 .heightDone, .heightDone, .ended 0 (.ok ())] := rfl

/-- On the bench the gate is ready after the fatal event, since all was done. -/
theorem bench_ready_after_fatal :
    .reported (.fatal 0 benchTimeout) ∈ history bench benchBelated ∧
      benchRipe.gate.isReady = true ∧
      HeightReady (history bench benchBelated) (benchRequest .weld false) benchPoint 1 ∧
      Primed (history bench benchBelated) benchRipe (benchRequest .weld false) benchPoint 1 := by
  have few : restarts (history bench benchBelated) < UInt64.size := by decide +kernel
  obtain ⟨front, back, k, r, f, g, -, -, -, hm, -, hall⟩ :=
    ready_after_fatal_iff run_benchRipe few history_benchBelated
  obtain ⟨rfl, rfl, rfl⟩ : r = benchRequest .weld false ∧ f = benchPoint ∧ g = 1 := by
    simpa [benchUntimely] using hm
  have hlast : history bench benchBelated = benchUntimely.take 2 ++
      .armed (benchRequest .weld false) benchPoint 1 :: (benchUntimely.drop 3 ++
        .reported (.fatal 0 benchTimeout) :: [.began 0 .heightDone, .heightDone,
          .ended 0 (.ok ())]) := history_benchBelated
  obtain ⟨-, -, hiff⟩ := hall _ _ hlast (by simp [benchUntimely])
  obtain ⟨-, hheight, hprimed⟩ := hiff.1 isReady_benchRipe
  refine ⟨?_, isReady_benchRipe, hheight, hprimed⟩
  rw [history_benchBelated]
  exact List.mem_append_right _ (List.mem_cons_self ..)

/-- It is not so that the gate stays shut after the fatal event of the latest accepted request: on
the bench the height comes late and opens it. -/
theorem late_height_opens_gate :
    ¬ ∀ (labels : List Label) (c : Cell CardDevice) (before after : List Deed) (r : Request)
      (fault : Fault), (∀ i call, .call i call ∈ labels → i = 0) → run bench labels = some c →
      history bench labels = before ++ .reported (.fatal r.data.seam fault) :: after →
      .accepted r ∈ before → (∀ r', .accepted r' ∈ history bench labels → r' = r) →
      c.gate.isReady = false := by
  intro hall
  have hsole : ∀ i call, .call i call ∈ benchBelated → i = 0 := by
    intro i call hm
    simp [benchBelated, callSteps] at hm
    omega
  have hlatest : ∀ r, .accepted r ∈ history bench benchBelated → r = benchRequest .weld false := by
    intro r hm
    rw [history_benchBelated] at hm
    simpa [benchUntimely] using hm
  have hshut := hall benchBelated benchRipe benchUntimely _ (benchRequest .weld false) benchTimeout
    hsole run_benchRipe history_benchBelated (by simp [benchUntimely]) hlatest
  rw [isReady_benchRipe] at hshut
  cases hshut

end GalvoWeld.Cell
