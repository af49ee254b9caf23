import GalvoWeld.Proofs.Cell.Jobs

/-!
# No start without clearance

The flags of the gate and the results of the workers are traced back to the request that armed the
gate: what they say was done for this request, after it armed the gate. A completion of another
generation changes no flag, whenever it comes, and within a generation there is one request only.
-/

namespace GalvoWeld.Cell

variable {δ : Type}

/-! ### One deed after another -/

theorem after_append {h : List Deed} {a d : Deed} (hs : [a, d].Sublist h) (ds : List Deed) :
    [a, d].Sublist (h ++ ds) :=
  hs.trans (List.sublist_append_left h ds)

theorem after_last {h : List Deed} {a : Deed} (ha : a ∈ h) {d : Deed} {ds : List Deed}
    (hd : d ∈ ds) : [a, d].Sublist (h ++ ds) := by
  have hfirst : [a].Sublist h := List.singleton_sublist.2 ha
  have hsecond : [d].Sublist ds := List.singleton_sublist.2 hd
  exact hfirst.append hsecond

/-- What comes after a deed comes after its first occurrence. -/
theorem mem_of_after {early late : List Deed} {a d : Deed} (ha : a ∉ early)
    (hs : [a, d].Sublist (early ++ a :: late)) : d ∈ late := by
  induction early with
  | nil =>
    rcases List.sublist_cons_iff.1 hs with hlate | ⟨rest, hrest, hlate⟩
    · exact hlate.subset (by simp)
    · obtain rfl : [d] = rest := (List.cons.inj hrest).2
      exact List.singleton_sublist.1 hlate
  | cons e early ih =>
    have hne : a ≠ e := fun heq => ha (by simp [heq])
    refine ih (fun hm => ha (List.mem_cons_of_mem e hm)) ?_
    rcases List.sublist_cons_iff.1 hs with hrest | ⟨rest, hrest, -⟩
    · exact hrest
    · exact absurd (List.cons.inj hrest).1 hne

/-! ### What a start needs -/

/-- The height is compensated since this request armed the gate, or the laser stays off. -/
def HeightReady (h : List Deed) (r : Request) (f : FigurePoint) (g : UInt64) : Prop :=
  r.kind = .preview ∨ [.armed r f g, .heightDone].Sublist h

/-- The list job of this request was done since the request armed the gate. -/
def Listed (h : List Deed) (r : Request) (f : FigurePoint) (g : UInt64) : Prop :=
  [.armed r f g, .listed (r.listJob g) (.ok ())].Sublist h

/-- The move job of this request was done since the request armed the gate. -/
def Moved (h : List Deed) (r : Request) (f : FigurePoint) (g : UInt64) : Prop :=
  [.armed r f g, .moved (r.moveJob f g) (.ok ())].Sublist h

/-- A request that armed the gate, with all that a start needs. -/
structure Cleared (h : List Deed) (r : Request) (f : FigurePoint) (g : UInt64) : Prop where
  armed : .armed r f g ∈ h
  height : HeightReady h r f g
  list : r.contourPrepared = true ∨ Listed h r f g
  move : Moved h r f g

/-- The flags of the gate are true of the request that armed it. -/
structure Flagged (h : List Deed) (gate : Gate) (r : Request) (f : FigurePoint) : Prop where
  armed : .armed r f gate.generation ∈ h
  height : gate.heightDone = true → HeightReady h r f gate.generation
  list : gate.listDone = true → Listed h r f gate.generation
  prepared : gate.contourPrepared = true → r.contourPrepared = true
  move : gate.moveDone = true → Moved h r f gate.generation

section
variable {h : List Deed} {r : Request} {f : FigurePoint} {g : UInt64}

theorem HeightReady.later (hh : HeightReady h r f g) (ds : List Deed) :
    HeightReady (h ++ ds) r f g :=
  hh.imp_right fun hs => after_append hs ds

theorem Cleared.later (hc : Cleared h r f g) (ds : List Deed) : Cleared (h ++ ds) r f g where
  armed := List.mem_append_left _ hc.armed
  height := hc.height.later ds
  list := hc.list.imp_right fun hs => after_append hs ds
  move := after_append hc.move ds

theorem Flagged.later {gate : Gate} (hf : Flagged h gate r f) (ds : List Deed) :
    Flagged (h ++ ds) gate r f where
  armed := List.mem_append_left _ hf.armed
  height hg := (hf.height hg).later ds
  list hg := after_append (hf.list hg) ds
  prepared := hf.prepared
  move hg := after_append (hf.move hg) ds

/-- A gate that lets somebody through is ready for the request that armed it. -/
theorem Flagged.cleared {gate : Gate} (hf : Flagged h gate r f) (hr : gate.isReady = true) :
    Cleared h r f gate.generation := by
  obtain ⟨-, hheight, hlist, hmove⟩ := (Gate.isReady_iff gate).1 hr
  refine ⟨hf.armed, hf.height hheight, ?_, hf.move hmove⟩
  rcases hlist with hdone | hprepared
  · exact .inr (hf.list hdone)
  · exact .inl (hf.prepared hprepared)

/-- A gate that was just armed has no flags but that of the request. -/
theorem Flagged.arm (h : List Deed) (gate : Gate) (r : Request) (f : FigurePoint) :
    Flagged (h ++ [.armed r f (gate.arm r.contourPrepared).generation])
      (gate.arm r.contourPrepared) r f where
  armed := List.mem_append_right _ (List.mem_singleton_self _)
  height := nofun
  list := nofun
  prepared hp := hp
  move := nofun

end

/-! ### The invariant -/

/-- Somebody armed the gate in this generation and has the list done. -/
def ListedIn (h : List Deed) (g : UInt64) : Prop :=
  ∃ r f, .armed r f g ∈ h ∧ Listed h r f g

/-- Somebody armed the gate in this generation and has the move done. -/
def MovedIn (h : List Deed) (g : UInt64) : Prop :=
  ∃ r f, .armed r f g ∈ h ∧ Moved h r f g

/-- What is known in the cell of work that is done was done for the request it is known of. -/
structure Vouched (h : List Deed) (c : Cell δ) : Prop where
  lister : ∀ g seam, c.lister = .finished g seam (.ok ()) → ListedIn h g
  mover : ∀ g seam, c.mover = .finished g seam (.ok ()) → MovedIn h g
  gate : c.gate.armed = true → ∃ r f, Flagged h c.gate r f
  starter : ∀ job, c.starter = .admitted job → ∃ r f, Cleared h r f job.generation

theorem Vouched.start (w : Welder δ) : Vouched [] (idle w) where
  lister _ _ hl := nomatch hl
  mover _ _ hm := nomatch hm
  gate ha := nomatch ha
  starter _ hs := nomatch hs

theorem Vouched.later {h : List Deed} {c : Cell δ} (hv : Vouched h c) (ds : List Deed) :
    Vouched (h ++ ds) c where
  lister g seam hl := by
    obtain ⟨r, f, ha, hs⟩ := hv.lister g seam hl
    exact ⟨r, f, List.mem_append_left _ ha, after_append hs ds⟩
  mover g seam hm := by
    obtain ⟨r, f, ha, hs⟩ := hv.mover g seam hm
    exact ⟨r, f, List.mem_append_left _ ha, after_append hs ds⟩
  gate ha := by
    obtain ⟨r, f, hf⟩ := hv.gate ha
    exact ⟨r, f, hf.later ds⟩
  starter job hs := by
    obtain ⟨r, f, hc⟩ := hv.starter job hs
    exact ⟨r, f, hc.later ds⟩

section
variable {h : List Deed} {gate : Gate} {r : Request} {f : FigurePoint}

theorem armed_completeIn (gate : Gate) (g : UInt64) (task : Gate.Task) :
    (gate.completeIn g task).2.armed = gate.armed := by
  unfold Gate.completeIn
  split
  · cases task <;> rfl
  · rfl

/-- A gate that is still armed was not reset. -/
theorem flagged_resetIn (hv : gate.armed = true → ∃ r f, Flagged h gate r f) {g : UInt64}
    (ha : (gate.resetIn g).armed = true) : ∃ r f, Flagged h (gate.resetIn g) r f := by
  by_cases hg : gate.generation = g
  · simp [Gate.resetIn, hg, Gate.reset, Gate.restart] at ha
  · have hsame : gate.resetIn g = gate := if_neg hg
    rw [hsame] at ha ⊢
    exact hv ha

theorem Flagged.completeIn (hf : Flagged h gate r f) {g : UInt64} {task : Gate.Task}
    (hdone : gate.generation = g → Flagged h (gate.complete task) r f) :
    Flagged h (gate.completeIn g task).2 r f := by
  rcases Gate.completeIn_cases gate g task with ⟨hg, heq⟩ | ⟨-, heq⟩
  · rw [heq]
    exact hdone hg
  · rw [heq]
    exact hf

/-- A preview does not wait for the height. -/
theorem Flagged.previewHeight (hf : Flagged h gate r f) (hr : (generations h).Pairwise (· < ·))
    {r' : Request} {f' : FigurePoint} {g : UInt64} (hm : .armed r' f' g ∈ h)
    (hk : r'.kind = .preview) : Flagged h (gate.completeIn g .height).2 r f := by
  refine hf.completeIn fun hg => ?_
  subst hg
  obtain ⟨rfl, rfl⟩ := armed_unique hr hf.armed hm
  exact { hf with height := fun _ => .inl hk }

theorem Flagged.listDone (hf : Flagged h gate r f) (hr : (generations h).Pairwise (· < ·))
    {g : UInt64} (hl : ListedIn h g) : Flagged h (gate.completeIn g .list).2 r f := by
  refine hf.completeIn fun hg => ?_
  subst hg
  obtain ⟨r', f', hm, hs⟩ := hl
  obtain ⟨rfl, rfl⟩ := armed_unique hr hf.armed hm
  exact { hf with list := fun _ => hs }

theorem Flagged.moveDone (hf : Flagged h gate r f) (hr : (generations h).Pairwise (· < ·))
    {g : UInt64} (hl : MovedIn h g) : Flagged h (gate.completeIn g .move).2 r f := by
  refine hf.completeIn fun hg => ?_
  subst hg
  obtain ⟨r', f', hm, hs⟩ := hl
  obtain ⟨rfl, rfl⟩ := armed_unique hr hf.armed hm
  exact { hf with move := fun _ => hs }

end

variable [Device δ]

theorem Vouched.act {h ds : List Deed} {label : Label} {c next : Cell δ} (hv : Vouched h c)
    (hi : Issued h c) (hr : (generations h).Pairwise (· < ·)) (ha : Act c label ds next) :
    Vouched (h ++ ds) next := by
  have hk := hv.later ds
  cases ha with
  | giveUp => exact { hk with gate := fun hg => nomatch hg }
  | @heightDone i _ =>
    refine { hk with gate := fun hg => ?_ }
    obtain ⟨r, f, hf⟩ := hv.gate hg
    have hnow : [.armed r f c.gate.generation, .heightDone].Sublist
        (h ++ [.heightDone, .ended i (.ok ())]) :=
      after_last hf.armed (List.mem_cons_self ..)
    exact ⟨r, f, { hf.later _ with height := fun _ => .inr hnow }⟩
  | @arm _ r first => exact { hk with gate := fun _ => ⟨r, first, Flagged.arm h c.gate r first⟩ }
  | @previewHeight _ r first g hplace hkind =>
    refine { hk with gate := fun hg => ?_ }
    obtain ⟨r', f', hf⟩ := hv.gate ((armed_completeIn ..).symm.trans hg)
    have hm : Deed.armed r first g ∈ h := hi.place hplace
    exact ⟨r', f', (hf.previewHeight hr hm hkind).later []⟩
  | cancel =>
    refine { hk with gate := fun hg => ?_ }
    obtain ⟨r, f, hf⟩ := hk.gate hg
    exact ⟨r, f, { hf with }⟩
  | @list job hl =>
    refine { hk with lister := fun g seam hdone => ?_ }
    injection hdone with hg _ hok
    subst hg
    obtain ⟨r, f, hm, hjob⟩ := hi.lister job hl
    refine ⟨r, f, List.mem_append_left _ hm, after_last hm ?_⟩
    rw [hok, ← hjob]
    exact List.mem_singleton_self _
  | @listDone g seam hl =>
    refine { hk with lister := nofun, gate := fun hg => ?_ }
    obtain ⟨r, f, hf⟩ := hv.gate ((armed_completeIn ..).symm.trans hg)
    exact ⟨r, f, (hf.listDone hr (hv.lister g seam hl)).later []⟩
  | listFailed =>
    exact { hk with lister := nofun, gate := flagged_resetIn hk.gate }
  | @move job hm =>
    refine { hk with mover := fun g seam hdone => ?_ }
    injection hdone with hg _ hok
    subst hg
    obtain ⟨r, f, harmed, hjob⟩ := hi.mover job hm
    refine ⟨r, f, List.mem_append_left _ harmed, after_last harmed ?_⟩
    rw [hok, ← hjob]
    exact List.mem_singleton_self _
  | @moveDone g seam hm =>
    refine { hk with mover := nofun, gate := fun hg => ?_ }
    obtain ⟨r, f, hf⟩ := hv.gate ((armed_completeIn ..).symm.trans hg)
    exact ⟨r, f, (hf.moveDone hr (hv.mover g seam hm)).later []⟩
  | moveFailed =>
    exact { hk with mover := nofun, gate := flagged_resetIn hk.gate }
  | @pass job hs _ ho =>
    refine { hk with starter := fun job' hadm => ?_ }
    obtain rfl : job = job' := Starter.admitted.inj hadm
    -- the starter passes only in the generation of its job, so that the flags speak of its request
    obtain ⟨-, hg, hready⟩ := (Gate.outcome_eq_ok_iff ..).1 ho
    have harmed := ((Gate.isReady_iff c.gate).1 hready).1
    obtain ⟨r, f, hf⟩ := hv.gate harmed
    rw [← hg]
    exact ⟨r, f, (hf.cleared hready).later []⟩
  | listFetch => exact { hk with lister := nofun }
  | listLeave => exact { hk with lister := nofun }
  | listReport => exact { hk with lister := nofun }
  | moveFetch => exact { hk with mover := nofun }
  | moveLeave => exact { hk with mover := nofun }
  | moveReport => exact { hk with mover := nofun }
  | startFetch => exact { hk with starter := nofun }
  | startLeave => exact { hk with starter := nofun }
  | startReport => exact { hk with starter := nofun }
  | turnBack =>
    exact { hk with starter := fun job hj => absurd hj (afterFault_ne_admitted _ _ job) }
  | giveIn =>
    exact { hk with starter := fun job hj => absurd hj (afterFault_ne_admitted _ _ job) }
  | start =>
    cases hres : c.welder.startMark.1 with
    | ok =>
      rw [hres] at hk
      exact { hk with starter := nofun }
    | error fault =>
      rw [hres] at hk
      exact { hk with starter := fun job hj => absurd hj (afterFault_ne_admitted _ _ job) }
  | _ => exact { hk with }

/-! ### Starts -/

/-- The scanner is started by a starter that has passed the gate, and only by it. -/
theorem Act.started {c next : Cell δ} {label : Label} {ds : List Deed} {job : StartJob}
    {result : Except Fault Unit} (ha : Act c label ds next) (hm : .started job result ∈ ds) :
    label = .starter ∧ c.starter = .admitted job ∧ ds = [.started job result] := by
  cases ha with
  | @start job' hs =>
    have heq := List.mem_singleton.1 hm
    injection heq with hjob hresult
    subst hjob
    exact ⟨rfl, hs, by rw [hresult]⟩
  | listFailed => cases eq_reset_of_settle hm
  | moveFailed => cases eq_reset_of_settle hm
  | _ => simp at hm

theorem step_of_run_middle {c last mid : Cell δ} {front back : List Label} {label : Label}
    (hrun : run c (front ++ label :: back) = some last) (hfront : run c front = some mid) :
    ∃ next, step mid label = some next ∧ run next back = some last := by
  rw [run_append, hfront] at hrun
  exact run_cons_eq_some.1 hrun

/-- The step that did a deed which no step does along with others, and what was done before it and
after it. -/
theorem run_split_alone {c last : Cell δ} {labels : List Label} {before after : List Deed}
    {d : Deed} (hrun : run c labels = some last)
    (hsplit : history c labels = before ++ d :: after)
    (halone : ∀ {mid next : Cell δ} {label ds}, Act mid label ds next → d ∈ ds → ds = [d]) :
    ∃ (front : List Label) (label : Label) (back : List Label) (mid next : Cell δ),
      labels = front ++ label :: back ∧ run c front = some mid ∧
      step mid label = some next ∧ Act mid label [d] next ∧ run next back = some last ∧
      history c front = before ∧ history next back = after := by
  obtain ⟨front, label, back, mid, ds, es, rfl, hfront, hdeeds, hbefore⟩ :=
    history_split hrun hsplit
  obtain ⟨next, hstep, hback⟩ := step_of_run_middle hrun hfront
  have hact := act_of_step hstep
  have hone : deeds mid label = [d] := by
    refine halone hact ?_
    rw [hdeeds]
    exact List.mem_append_right _ (List.mem_cons_self ..)
  have hnone : ds = [] ∧ es = [] := by
    have hlen := congrArg List.length (hdeeds.symm.trans hone)
    simp only [List.length_append, List.length_cons, List.length_nil] at hlen
    exact ⟨List.eq_nil_of_length_eq_zero (by omega), List.eq_nil_of_length_eq_zero (by omega)⟩
  obtain ⟨rfl, rfl⟩ := hnone
  rw [hone] at hact
  rw [List.append_nil] at hbefore
  refine ⟨front, label, back, mid, next, rfl, hfront, hstep, hact, hback, hbefore.symm, ?_⟩
  have hhist : history mid (label :: back) = d :: history next back := by
    simp only [history, hstep, hone, Option.elim_some, List.singleton_append]
  rw [history_append hfront, hhist, hbefore] at hsplit
  exact (List.cons.inj (List.append_cancel_left hsplit)).2

/-- A start is a step of a starter past the gate. -/
theorem admitted_of_started {c last : Cell δ} {labels : List Label} {before after : List Deed}
    {job : StartJob} {result : Except Fault Unit} (hrun : run c labels = some last)
    (hsplit : history c labels = before ++ .started job result :: after) :
    ∃ front back mid, labels = front ++ .starter :: back ∧ run c front = some mid ∧
      history c front = before ∧ mid.starter = .admitted job := by
  obtain ⟨front, label, back, mid, next, rfl, hfront, -, hact, -, hbefore, -⟩ :=
    run_split_alone hrun hsplit fun ha hm => (ha.started hm).2.2
  obtain ⟨rfl, hadm, -⟩ := hact.started (List.mem_singleton_self _)
  exact ⟨front, back, mid, rfl, hfront, hbefore, hadm⟩

/-- All that is known of a run with few restarts. -/
structure Traced (h : List Deed) (c : Cell δ) : Prop where
  counted : Counted h c.gate
  issued : Issued h c
  vouched : Vouched h c

theorem traced_of_run {w : Welder δ} {labels : List Label} {c : Cell δ}
    (hrun : run (idle w) labels = some c)
    (few : restarts (history (idle w) labels) < UInt64.size) :
    Traced (history (idle w) labels) c := by
  have hlast := run_counted (P := fun h d => Issued h d ∧ Vouched h d) hrun Counted.start few
    ⟨Issued.start w, Vouched.start w⟩ ?_
  · exact ⟨hlast.1, hlast.2.1, hlast.2.2⟩
  · intro label _ h d ds e hc _ hd ha
    exact ⟨hd.1.act ha, hd.2.act hd.1 hc.rising ha⟩

/-- The weld is started only for a request that armed the gate, and only after the height was
compensated since then or the request is a preview, its own move was done, and its own list was
done or it uses that of an earlier seam. -/
theorem started_only_when_cleared {w : Welder δ} {labels : List Label} {c : Cell δ}
    {before after : List Deed} {job : StartJob} {result : Except Fault Unit}
    (hrun : run (idle w) labels = some c)
    (few : restarts (history (idle w) labels) < UInt64.size)
    (hsplit : history (idle w) labels = before ++ .started job result :: after) :
    ∃ r first early late, before = early ++ .armed r first job.generation :: late ∧
      (∀ r' first', .armed r' first' job.generation ∈ before → r' = r ∧ first' = first) ∧
      job = r.startJob job.generation ∧
      (.heightDone ∈ late ∨ r.kind = .preview) ∧
      .moved (r.moveJob first job.generation) (.ok ()) ∈ late ∧
      (r.contourPrepared = true ∨ .listed (r.listJob job.generation) (.ok ()) ∈ late) := by
  obtain ⟨front, back, mid, -, hfront, rfl, hadm⟩ := admitted_of_started hrun hsplit
  have hfew : restarts (history (idle w) front) < UInt64.size := by
    rw [hsplit, restarts_append] at few
    omega
  have ht := traced_of_run hfront hfew
  have hrising := ht.counted.rising
  obtain ⟨r, first, hc⟩ := ht.vouched.starter job hadm
  obtain ⟨r', first', hm', hjob⟩ := ht.issued.admitted job hadm
  obtain ⟨rfl, rfl⟩ := armed_unique hrising hc.armed hm'
  obtain ⟨early, late, hbefore⟩ := List.append_of_mem hc.armed
  have hfirst : .armed r first job.generation ∉ early := by
    intro hm
    rw [hbefore, generations_append] at hrising
    have hlt := (List.pairwise_append.1 hrising).2.2 _ (mem_generations hm) _
      (mem_generations (List.mem_cons_self ..))
    exact Nat.lt_irrefl _ hlt
  have hlate : ∀ d, [.armed r first job.generation, d].Sublist (history (idle w) front) →
      d ∈ late := by
    intro d hs
    rw [hbefore] at hs
    exact mem_of_after hfirst hs
  refine ⟨r, first, early, late, hbefore, ?_, hjob, ?_, hlate _ hc.move, ?_⟩
  · intro r' first' hm
    exact armed_unique hrising hm hc.armed
  · exact (hc.height.imp_right (hlate _)).symm
  · exact hc.list.imp_right (hlate _)

/-- On the bench: a request, its height, its list and its move, and the starter past the gate. -/
def benchAdmission : List Label :=
  callSteps 0 (.request (benchRequest .weld false)) 6 ++ callSteps 0 .heightDone 1 ++
    List.replicate 3 .lister ++ List.replicate 3 .mover ++ List.replicate 2 .starter

def benchDeeds : List Deed :=
  let r := benchRequest .weld false
  [.began 0 (.request r), .accepted r, .armed r benchPoint 1, .ended 0 (.ok ()),
    .began 0 .heightDone, .heightDone, .ended 0 (.ok ()), .listed (r.listJob 1) (.ok ()),
    .moved (r.moveJob benchPoint 1) (.ok ())]

/-- A weld on the bench is started, after all that it waits for. -/
theorem bench_started_when_cleared :
    history bench (benchAdmission ++ [.starter]) =
      benchDeeds ++ .started ⟨1, 0⟩ (.ok ()) :: [] ∧
    ∃ r first early late, benchDeeds = early ++ .armed r first 1 :: late ∧
      (∀ r' first', .armed r' first' 1 ∈ benchDeeds → r' = r ∧ first' = first) ∧
      (⟨1, 0⟩ : StartJob) = r.startJob 1 ∧
      (.heightDone ∈ late ∨ r.kind = .preview) ∧
      .moved (r.moveJob first 1) (.ok ()) ∈ late ∧
      (r.contourPrepared = true ∨ .listed (r.listJob 1) (.ok ()) ∈ late) := by
  obtain ⟨c, hrun⟩ : ∃ c, run bench (benchAdmission ++ [.starter]) = some c :=
    Option.isSome_iff_exists.1 rfl
  have few : restarts (history bench (benchAdmission ++ [.starter])) < UInt64.size := by
    decide +kernel
  have hsplit : history bench (benchAdmission ++ [.starter]) =
      benchDeeds ++ .started ⟨1, 0⟩ (.ok ()) :: [] := rfl
  exact ⟨hsplit, started_only_when_cleared hrun few hsplit⟩

end GalvoWeld.Cell
