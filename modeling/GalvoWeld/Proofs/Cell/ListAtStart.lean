import GalvoWeld.Proofs.Cell.Abandoned
import GalvoWeld.Proofs.Cell.ListMemory
import GalvoWeld.Proofs.Device.FreshList

/-!
# The list that is started

A request of a sole caller is traced from its acceptance to the start of its weld. The list that is
started is the one that was in the list memory at the acceptance, or the one that a new welder
builds from the request, as long as no list job of an abandoned seam was done in between. The gate
keeps the completions of such jobs apart by their generation, but not what they leave on the
scanner.
-/

namespace GalvoWeld.Cell

variable {δ : Type} [Device δ]

/-! ### Steps that do one thing -/

/-- Deeds that a step does alone. -/
def Deed.single : Deed → Bool
  | .accepted _ => true
  | .armed .. => true
  | .listed .. => true
  | _ => false

theorem Act.single {c next : Cell δ} {label : Label} {ds : List Deed} {d : Deed}
    (ha : Act c label ds next) (hm : d ∈ ds) (hd : d.single = true) : ds = [d] := by
  have hreset : Deed.reset.single = false := rfl
  have hshape : ds.length ≤ 1 ∨ ∀ e ∈ ds, e.single = false := by
    cases ha with
    | heightDone => exact .inr (by simp [Deed.single])
    | clear => exact .inr (by simp [Deed.single])
    | listFailed => exact .inr fun e he => by rw [eq_reset_of_settle he, hreset]
    | moveFailed => exact .inr fun e he => by rw [eq_reset_of_settle he, hreset]
    | _ => exact .inl (by simp)
  rcases hshape with hshort | hnone
  · have hlen : ds.length = 1 := Nat.le_antisymm hshort (List.length_pos_of_mem hm)
    obtain ⟨e, rfl⟩ := List.length_eq_one_iff.1 hlen
    rw [List.mem_singleton.1 hm]
  · rw [hnone d hm] at hd
    cases hd

/-- The step that did such a deed, with what was done before it and after it. -/
theorem run_split_single {c last : Cell δ} {labels : List Label} {before after : List Deed}
    {d : Deed} (hrun : run c labels = some last)
    (hsplit : history c labels = before ++ d :: after) (hd : d.single = true) :
    ∃ (front : List Label) (label : Label) (back : List Label) (mid next : Cell δ),
      labels = front ++ label :: back ∧ run c front = some mid ∧
      step mid label = some next ∧ Act mid label [d] next ∧ run next back = some last ∧
      history c front = before ∧ history next back = after :=
  run_split_alone hrun hsplit fun ha hm => ha.single hm hd

/-! ### From the acceptance on -/

theorem Act.claims {c next : Cell δ} {label : Label} {ds : List Deed} {i : Nat} {r : Request}
    {f : FigurePoint} (ha : Act c label ds next) (hi : next.callers i = .claimed r f) :
    c.callers i = .claimed r f ∨ ds = [.accepted r] := by
  by_cases hown : label = .advance i
  · subst hown
    cases ha with
    | accept =>
      simp only [callers_setCaller, if_true, Caller.claimed.injEq] at hi
      exact .inr (by rw [hi.1])
    | @giveUp _ call place _ hp =>
      simp only [callers_setCaller, if_true] at hi
      subst hi
      cases call <;> cases hp
    | _ => simp at hi
  · refine .inl ?_
    rw [← ha.callers_eq ?_ hown]
    · exact hi
    · rintro call rfl
      cases ha with
      | call => simp at hi

theorem Act.arms {c next : Cell δ} {label : Label} {ds : List Deed} {r : Request}
    {f : FigurePoint} {g : UInt64} (ha : Act c label ds next) (hm : .armed r f g ∈ ds) :
    ∃ i, c.callers i = .claimed r f := by
  cases ha with
  | @arm i r' first hi =>
    obtain ⟨rfl, rfl, -⟩ := Deed.armed.inj (List.mem_singleton.1 hm)
    exact ⟨i, hi⟩
  | listFailed => cases eq_reset_of_settle hm
  | moveFailed => cases eq_reset_of_settle hm
  | _ => simp at hm

theorem Act.lists {c next : Cell δ} {label : Label} {ds : List Deed} {job : ListJob}
    {result : Except Fault Unit} (ha : Act c label ds next) (hm : .listed job result ∈ ds) :
    fillList c.welder job = (result, next.welder) := by
  cases ha with
  | @list job' hl =>
    obtain ⟨rfl, rfl⟩ := Deed.listed.inj (List.mem_singleton.1 hm)
    rfl
  | listFailed => cases eq_reset_of_settle hm
  | moveFailed => cases eq_reset_of_settle hm
  | _ => simp at hm

/-! ### A sole caller -/

section
variable {w : Welder δ} {labels : List Label} {c : Cell δ} {q : Nat} {r : Request}
  {f : FigurePoint}

theorem sole_of_callers (hrun : run (idle w) labels = some c)
    (hsole : ∀ i call, .call i call ∈ labels → i = q) {i : Nat}
    (hi : c.callers i ≠ .returned (.ok ())) : i = q := by
  let P : List Deed → Cell δ → Prop := fun _ d => ∀ j ≠ q, d.callers j = .returned (.ok ())
  have hstart : P [] (idle w) := fun _ _ => rfl
  have hothers : ∀ j ≠ q, c.callers j = .returned (.ok ()) := by
    refine run_invariant hrun hstart fun label hl h d ds e hd ha j hj => ?_
    refine ha.returned (hd j hj) ?_
    rintro call rfl
    exact hj (hsole j call hl)
  exact Decidable.byContradiction fun hne => hi (hothers i hne)

/-- A claim was made with the last acceptance. -/
theorem accepted_of_claimed (hrun : run (idle w) labels = some c)
    (hsole : ∀ i call, .call i call ∈ labels → i = q) (hq : c.callers q = .claimed r f) :
    ∃ early mid : List Deed, history (idle w) labels = early ++ .accepted r :: mid ∧
      ∀ r', .accepted r' ∉ mid := by
  -- the other callers are part of the invariant, since an acceptance of theirs would be a later one
  let P : List Deed → Cell δ → Prop := fun h d =>
    (∀ j ≠ q, d.callers j = .returned (.ok ())) ∧ ∀ r f, d.callers q = .claimed r f →
      ∃ early mid : List Deed, h = early ++ .accepted r :: mid ∧ ∀ r', .accepted r' ∉ mid
  have hstart : P [] (idle w) := by
    refine ⟨fun _ _ => rfl, fun r f hclaim => ?_⟩
    cases hclaim
  refine (run_invariant hrun hstart ?_).2 r f hq
  rintro label hl h d ds e ⟨hothers, hclaim⟩ ha
  refine ⟨fun j hj => ha.returned (hothers j hj) ?_, fun r f hnext => ?_⟩
  · rintro call rfl
    exact hj (hsole j call hl)
  rcases ha.claims hnext with hold | rfl
  · obtain ⟨early, mid, rfl, hnone⟩ := hclaim r f hold
    refine ⟨early, mid ++ ds, by rw [List.append_assoc, List.cons_append], fun r' hm => ?_⟩
    rcases List.mem_append.1 hm with hmid | hnow
    · exact hnone r' hmid
    · -- nobody but the sole caller accepts, and that one has a claim already
      obtain ⟨i, -, -, hi, -⟩ := ha.accepted hnow
      by_cases hiq : i = q
      · rw [hiq, hold] at hi
        cases hi
      · rw [hothers i hiq] at hi
        cases hi
  · exact ⟨h, [], rfl, fun _ => List.not_mem_nil⟩

/-- A request that armed the gate was accepted before: in which state, and what was done since. -/
theorem accepted_of_armed {g : UInt64} {early late : List Deed}
    (hrun : run (idle w) labels = some c) (hsole : ∀ i call, .call i call ∈ labels → i = q)
    (hsplit : history (idle w) labels = early ++ .armed r f g :: late) :
    ∃ (front back : List Label) (c₀ : Cell δ) (mid : List Deed),
      labels = front ++ .advance q :: back ∧ run (idle w) front = some c₀ ∧
      history c₀ (.advance q :: back) = .accepted r :: (mid ++ .armed r f g :: late) ∧
      ∀ r', .accepted r' ∉ mid := by
  -- back from the arming to the claim, and from there to the acceptance
  obtain ⟨front₁, label₁, back₁, c₁, _, rfl, hfront₁, -, harm, -, hearly, -⟩ :=
    run_split_single hrun hsplit rfl
  have hsole₁ : ∀ i call, .call i call ∈ front₁ → i = q :=
    fun i call hm => hsole i call (List.mem_append_left _ hm)
  obtain ⟨i, hi⟩ := harm.arms (List.mem_singleton_self _)
  obtain rfl : i = q := sole_of_callers hfront₁ hsole₁ (by rw [hi]; nofun)
  obtain ⟨before, mid, haccepted, hnone⟩ := accepted_of_claimed hfront₁ hsole₁ hi
  obtain ⟨front, label, back, c₀, _, rfl, hfront, -, haccept, -, hbefore, -⟩ :=
    run_split_single hfront₁ haccepted rfl
  have hsole₀ : ∀ j call, .call j call ∈ front → j = i :=
    fun j call hm => hsole₁ j call (List.mem_append_left _ hm)
  obtain ⟨j, -, rfl, hj, -⟩ := haccept.accepted (List.mem_singleton_self _)
  obtain rfl : j = i := sole_of_callers hfront hsole₀ (by rw [hj]; nofun)
  refine ⟨front, back ++ label₁ :: back₁, c₀, mid, by simp, hfront, ?_, hnone⟩
  have hall : history (idle w) front ++ history c₀ (.advance j :: (back ++ label₁ :: back₁)) =
      history (idle w) front ++ .accepted r :: (mid ++ .armed r f g :: late) := by
    rw [← history_append hfront, hbefore, ← List.cons_append, ← List.append_assoc, hsplit, ← hearly,
      haccepted, List.append_assoc, List.cons_append]
  exact List.append_cancel_left hall

theorem armed_of_admitted {job : StartJob} (hrun : run (idle w) labels = some c)
    (few : restarts (history (idle w) labels) < UInt64.size)
    (hstarter : c.starter = .admitted job) :
    ∃ (r : Request) (f : FigurePoint) (early late : List Deed),
      history (idle w) labels = early ++ .armed r f job.generation :: late ∧
      job = r.startJob job.generation ∧
      (r.contourPrepared = true ∨ .listed (r.listJob job.generation) (.ok ()) ∈ late) := by
  have ht := traced_of_run hrun few
  have hrising := ht.counted.rising
  obtain ⟨r, f, hc⟩ := ht.vouched.starter job hstarter
  obtain ⟨r', f', hm, hjob⟩ := ht.issued.admitted job hstarter
  obtain ⟨rfl, rfl⟩ := armed_unique hrising hc.armed hm
  obtain ⟨early, late, hsplit⟩ := List.append_of_mem hc.armed
  refine ⟨r, f, early, late, hsplit, hjob, hc.list.imp_right fun hs => ?_⟩
  have hfirst : .armed r f job.generation ∉ early := by
    intro hearly
    rw [hsplit, generations_append] at hrising
    exact Nat.lt_irrefl _ ((List.pairwise_append.1 hrising).2.2 _ (mem_generations hearly) _
      (mem_generations (List.mem_cons_self ..)))
  unfold Listed at hs
  rw [hsplit] at hs
  exact mem_of_after hfirst hs

end

/-! ### The list in the memory -/

section
variable {config : Config} {disk : Disk} {labels : List Label} {c : Cell CardDevice}

theorem entries_of_listed {before after : List Deed} {job : ListJob}
    (hrun : run (idle (Welder.create config CardDevice.fresh disk)) labels = some c)
    (hsplit : history (idle (Welder.create config CardDevice.fresh disk)) labels =
      before ++ .listed job (.ok ()) :: after)
    (hlast : builtJobs after = [])
    (halone : job.wobbleFile.isSome ∨ job.data.wobbleMode ≠ .free ∨ WobbleForgotten before) :
    ∃ v, fillList (Welder.create config CardDevice.fresh disk) job = (.ok (), v) ∧
      c.welder.device.card.memory.entries = v.device.card.memory.entries := by
  obtain ⟨front, label, back, mid, next, rfl, hfront, hstep, hlist, hback, rfl, rfl⟩ :=
    run_split_single hrun hsplit rfl
  obtain ⟨hconfig, hdisk⟩ := fixed_of_run hfront
  have hfaithful := faithful_of_run rfl hfront
  have hfill := hlist.lists (List.mem_singleton_self _)
  have hjob : job.Alone mid.welder.seam.wobbleFigure :=
    halone.imp_right fun h => h.imp_right (wobbleFigure_of_run rfl hfront)
  -- at the step of the job the list is that of a new welder, and nothing touches it from there on
  obtain ⟨v, hv, hentries⟩ := entries_of_alone hfaithful hjob hfill
  rw [hconfig, hdisk] at hv
  refine ⟨v, hv, ?_⟩
  have hnext : run (idle (Welder.create config CardDevice.fresh disk)) (front ++ [label]) =
      some next := by
    simp only [run_append, hfront, run, hstep, Option.bind_some]
  exact (entries_of_run hback (faithful_of_run rfl hnext) hlast).trans hentries

/-- When a step starts the weld for a request of a sole caller, the list memory holds what it held
when the request was accepted, if the request uses the list of an earlier seam, and else the list
that a new welder builds from the request, as long as no job that was left over has built a list in
between, or left its wobble figure to a request that asks for one and brings none. -/
theorem list_at_start {next : Cell CardDevice} {label : Label} {q : Nat} {job : StartJob}
    {result : Except Fault Unit} {start : Cell CardDevice}
    (hstart : start = idle (Welder.create config CardDevice.fresh disk))
    (hrun : run start labels = some c) (hstep : step c label = some next)
    (hstarted : .started job result ∈ deeds c label)
    (few : restarts (history start labels) < UInt64.size)
    (hsole : ∀ i call, .call i call ∈ labels → i = q) :
    ∃ (r : Request) (f : FigurePoint) (front back : List Label) (c₀ : Cell CardDevice)
      (mid late : List Deed), labels = front ++ .advance q :: back ∧ run start front = some c₀ ∧
      history c₀ (.advance q :: back) = .accepted r :: (mid ++ .armed r f job.generation :: late) ∧
      (∀ r', .accepted r' ∉ mid) ∧ job = r.startJob job.generation ∧
      (r.contourPrepared = true → builtJobs (mid ++ late) = [] →
        c.welder.device.card.memory.entries = c₀.welder.device.card.memory.entries) ∧
      (r.contourPrepared = false → ∃ before after : List Deed,
        late = before ++ .listed (r.listJob job.generation) (.ok ()) :: after ∧
        (builtJobs after = [] →
          (r.wobbleFile.isSome ∨ r.data.wobbleMode ≠ .free ∨ WobbleForgotten (history start front ++
            .accepted r :: (mid ++ .armed r f job.generation :: before))) →
          ∃ v, fillList (Welder.create config CardDevice.fresh disk)
              (r.listJob job.generation) = (.ok (), v) ∧
            c.welder.device.card.memory.entries = v.device.card.memory.entries)) := by
  subst hstart
  obtain ⟨-, hstarter, -⟩ := (act_of_step hstep).started hstarted
  obtain ⟨r, f, early, late, harmed, hjob, hlist⟩ := armed_of_admitted hrun few hstarter
  obtain ⟨front, back, c₀, mid, rfl, hfront, haccepted, hnone⟩ :=
    accepted_of_armed hrun hsole harmed
  have hback : run c₀ (.advance q :: back) = some c := by
    rw [run_append, hfront] at hrun
    exact hrun
  refine ⟨r, f, front, back, c₀, mid, late, rfl, hfront, haccepted, hnone, hjob, ?_, ?_⟩
  · intro _ hbuilt
    refine entries_of_run hback (faithful_of_run rfl hfront) ?_
    have hsame : builtJobs (.accepted r :: (mid ++ .armed r f job.generation :: late)) =
        builtJobs mid ++ builtJobs late := builtJobs_append ..
    rw [haccepted, hsame, ← builtJobs_append]
    exact hbuilt
  · intro hown
    obtain ⟨before, after, rfl⟩ := List.append_of_mem (hlist.resolve_left (by rw [hown]; nofun))
    refine ⟨before, after, rfl, fun hlast halone => ?_⟩
    refine entries_of_listed hrun ?_ hlast halone
    rw [history_append hfront, haccepted]
    simp

end

/-- On the bench the list that is started is that of the request. -/
theorem bench_list_at_start :
    ∃ v, fillList (Welder.create {} CardDevice.fresh ⟨[], []⟩)
        ((benchRequest .weld false).listJob 1) = (.ok (), v) ∧
      benchAdmitted.welder.device.card.memory.entries = v.device.card.memory.entries := by
  obtain ⟨next, hstep⟩ : ∃ next, step benchAdmitted .starter = some next :=
    Option.isSome_iff_exists.1 rfl
  have hstarted : .started ⟨1, 0⟩ (.ok ()) ∈ deeds benchAdmitted .starter :=
    List.mem_singleton_self _
  have few : restarts (history bench benchAdmission) < UInt64.size := by decide +kernel
  have hsole : ∀ i call, .call i call ∈ benchAdmission → i = 0 := by
    intro i call hm
    simp [benchAdmission, callSteps] at hm
    omega
  have hbench : bench = idle (Welder.create {} CardDevice.fresh ⟨[], []⟩) := rfl
  obtain ⟨r, f, front, back, c₀, mid, late, hlabels, hfront, haccepted, -, -, -, hown⟩ :=
    list_at_start hbench run_benchAdmitted hstep hstarted few hsole
  have hhist :
      history bench front ++ .accepted r :: (mid ++ .armed r f 1 :: late) = benchDeeds := by
    rw [← haccepted, ← history_append hfront, ← hlabels]
    rfl
  have hr : r = benchRequest .weld false := by
    have hm : .accepted r ∈ benchDeeds := by
      rw [← hhist]
      exact List.mem_append_right _ (List.mem_cons_self ..)
    simpa [benchDeeds] using hm
  subst hr
  obtain ⟨before, after, hlate, hlist⟩ := hown rfl
  have hmode : (benchRequest .weld false).data.wobbleMode ≠ .free := by decide
  refine hlist ?_ (.inr (.inl hmode))
  -- there was no second list
  have hone : (builtJobs benchDeeds).length = 1 := rfl
  rw [← hhist, hlate] at hone
  simp only [builtJobs, List.filterMap_append, List.filterMap_cons, List.length_append,
    Deed.built?, List.length_cons] at hone
  exact List.eq_nil_of_length_eq_zero (by unfold builtJobs; omega)

/-- On the bench: a preview that was welded and stopped, a weld whose seam is ended while its list
job is in work, and the call for a preview that uses the list of the first one. -/
def benchHandover : List Label :=
  [benchPreview, List.replicate 2 .starter, callSteps 0 .stopMark 2, callSteps 0 .seamEnd 2,
    callSteps 0 (.request (benchRequest .weld false)) 6, List.replicate 2 .lister,
    callSteps 0 .seamEnd 2, callSteps 0 (.request (benchRequest .preview true)) 0].flatten

/-- Past its acceptance: the list job that was left over, and the way to the start. -/
def benchLeftover : List Label :=
  [List.replicate 5 (.advance 0), [.lister], List.replicate 4 .mover,
    List.replicate 2 .starter].flatten

/-- The bench with the call for the second preview. -/
def benchHandedOver : Cell CardDevice := (run bench benchHandover).get rfl

/-- The bench with the starter past the gate for it. -/
def benchRelit : Cell CardDevice := (run benchHandedOver (.advance 0 :: benchLeftover)).get rfl

/-- It is not so that a request that uses the list of an earlier seam starts the list that was in
the memory when it was accepted: on the bench a preview burns with the list of an abandoned weld. -/
theorem abandoned_list_starts :
    ¬ ∀ (front back : List Label) (label : Label) (c₀ c next : Cell CardDevice) (r : Request)
      (f : FigurePoint) (job : StartJob) (result : Except Fault Unit) (late : List Deed),
      run bench front = some c₀ → run c₀ (.advance 0 :: back) = some c →
      step c label = some next → .started job result ∈ deeds c label →
      (∀ i call, .call i call ∈ front ++ .advance 0 :: back → i = 0) →
      history c₀ (.advance 0 :: back) = .accepted r :: .armed r f job.generation :: late →
      (∀ r', .accepted r' ∉ late) → r.contourPrepared = true →
      c.welder.device.card.memory.entries = c₀.welder.device.card.memory.entries := by
  intro hall
  have hfront : run bench benchHandover = some benchHandedOver := (Option.some_get _).symm
  have hback : run benchHandedOver (.advance 0 :: benchLeftover) = some benchRelit :=
    (Option.some_get _).symm
  obtain ⟨next, hstep⟩ : ∃ next, step benchRelit .starter = some next :=
    Option.isSome_iff_exists.1 rfl
  have hstarted : .started ⟨6, 0⟩ (.ok ()) ∈ deeds benchRelit .starter := List.mem_singleton_self _
  have hsole : ∀ i call, .call i call ∈ benchHandover ++ .advance 0 :: benchLeftover → i = 0 := by
    intro i call hm
    simp [benchHandover, benchLeftover, benchPreview, callSteps] at hm
    omega
  have hhist : history benchHandedOver (.advance 0 :: benchLeftover) =
      [.accepted (benchRequest .preview true), .armed (benchRequest .preview true) benchPoint 6,
        .ended 0 (.ok ()), .listed ((benchRequest .weld false).listJob 4) (.ok ()),
        .reported (.scannerMoved 0),
        .moved ((benchRequest .preview true).moveJob benchPoint 6) (.ok ())] := rfl
  have hentries := hall _ _ _ _ _ _ _ _ _ _ _ hfront hback hstep hstarted hsole hhist (by simp) rfl
  have hnow : benchRelit.welder.device.card.memory.powers = [2048, 0] := by decide +kernel
  have hthen : benchHandedOver.welder.device.card.memory.powers = [0, 0] := by decide +kernel
  have hpowers : benchRelit.welder.device.card.memory.powers =
      benchHandedOver.welder.device.card.memory.powers := by
    unfold Card.Memory.powers
    rw [hentries]
  rw [hnow, hthen] at hpowers
  cases hpowers

end GalvoWeld.Cell
