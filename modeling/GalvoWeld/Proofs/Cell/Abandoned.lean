import GalvoWeld.Proofs.Cell.Clearance

/-!
# Abandoned seams

A stop and the calls that begin or end a seam reset the gate before they return, so that a starter
that is not past the gate when one of them returns never gets past it for a request from before. The
gate and the scanner are two locks, though: a starter between them has left the gate, nobody asks it
to come back, and its next step starts the weld.
-/

namespace GalvoWeld.Cell

variable {δ : Type} [Device δ]

/-! ### Generations that are over -/

/-- The gate was restarted since this generation. -/
def Over (h : List Deed) (g : UInt64) : Prop := g.toNat < restarts h

theorem Over.later {h : List Deed} {g : UInt64} (ho : Over h g) (ds : List Deed) :
    Over (h ++ ds) g := by
  unfold Over at ho ⊢
  rw [restarts_append]
  omega

theorem over_reset {h : List Deed} {g : UInt64} (hle : g.toNat ≤ restarts h) :
    Over (h ++ [.reset]) g := by
  have hone : restarts [Deed.reset] = 1 := rfl
  unfold Over
  rw [restarts_append, hone]
  omega

theorem Counted.ne_of_over {h : List Deed} {gate : Gate} (hc : Counted h gate)
    (few : restarts h < UInt64.size) {g : UInt64} (ho : Over h g) : gate.generation ≠ g := by
  rintro rfl
  unfold Over at ho
  rw [hc.gate, UInt64.toNat_ofNat_of_lt' few] at ho
  exact Nat.lt_irrefl _ ho

/-! ### Calls that give a seam up -/

/-- A step moves no caller but the one that takes it. -/
theorem Act.callers_eq {c next : Cell δ} {label : Label} {ds : List Deed} {i : Nat}
    (ha : Act c label ds next) (hcall : ∀ call, label ≠ .call i call) (hadv : label ≠ .advance i) :
    next.callers i = c.callers i := by
  have hother : ∀ (d : Cell δ) j place, i ≠ j → (setCaller d j place).callers i = d.callers i := by
    intro d j place hij
    rw [callers_setCaller, if_neg hij]
  cases ha with
  | @call j call =>
    refine hother c j _ ?_
    rintro rfl
    exact hcall call rfl
  | _ =>
    first
    | rfl
    | refine hother _ _ _ ?_
      rintro rfl
      exact hadv rfl

/-- A call that gives the seam up has yet to take its first step, or that step resets the gate. -/
theorem Act.called_or_reset {c next : Cell δ} {label : Label} {ds : List Deed} {i : Nat}
    {call : Call} (ha : Act c label ds next) (hi : c.callers i = .called call)
    (hcall : call.afterReset?.isSome) : next.callers i = .called call ∨ ds = [.reset] := by
  by_cases hown : label = .advance i
  · subst hown
    cases ha with
    | giveUp => exact .inr rfl
    | _ =>
      -- no other step begins such a call
      cases call <;> simp_all [Call.afterReset?]
  · refine .inl ?_
    rw [ha.callers_eq ?_ hown, hi]
    rintro call' rfl
    cases ha with
    | call hret => simp_all

/-- When the call has returned, the generations before it are over. -/
theorem over_of_returned {w : Welder δ} {early mid : List Label} {c₀ c : Cell δ} {r : Request}
    {f : FigurePoint} {g : UInt64} {i : Nat} {call : Call} {result : Except Fault Unit}
    (hearly : run (idle w) early = some c₀) (harmed : .armed r f g ∈ history (idle w) early)
    (few : restarts (history (idle w) early) < UInt64.size)
    (hcall : call.afterReset?.isSome) (hmid : run c₀ (.call i call :: mid) = some c)
    (hreturned : c.callers i = .returned result) :
    Over (history (idle w) (early ++ .call i call :: mid)) g := by
  rw [history_append hearly]
  have hle : g.toNat ≤ restarts (history (idle w) early) :=
    (traced_of_run hearly few).counted.bound _ (mem_generations harmed)
  obtain ⟨c₁, hbegin, hrest⟩ := run_cons_eq_some.1 hmid
  have hbegan : c₁.callers i = .called call := by
    cases act_of_step hbegin with
    | call => simp
  -- either the call has yet to take its first step, or that step has put the generation behind
  have hinv : g.toNat ≤ restarts (history (idle w) early ++ deeds c₀ (.call i call)) ∧
      (c₁.callers i = .called call ∨
        Over (history (idle w) early ++ deeds c₀ (.call i call)) g) := by
    refine ⟨?_, .inl hbegan⟩
    rw [restarts_append]
    omega
  have hlast := run_invariant (P := fun h d => g.toNat ≤ restarts h ∧
    (d.callers i = .called call ∨ Over h g)) hrest hinv ?_
  · have hhist : history c₀ (.call i call :: mid) = deeds c₀ (.call i call) ++ history c₁ mid := by
      simp [history, hbegin]
    rw [hhist, ← List.append_assoc]
    rcases hlast.2 with hcalled | hover
    · rw [hreturned] at hcalled
      cases hcalled
    · exact hover
  · intro label _ h d ds e hd ha
    obtain ⟨hbound, hplace⟩ := hd
    refine ⟨by rw [restarts_append]; omega, ?_⟩
    rcases hplace with hcalled | hover
    · rcases ha.called_or_reset hcalled hcall with hstill | rfl
      · exact .inl hstill
      · exact .inr (over_reset hbound)
    · exact .inr (hover.later ds)

/-! ### Accepted requests of a sole caller -/

theorem Act.accepted {c next : Cell δ} {label : Label} {ds : List Deed} {r : Request}
    (ha : Act c label ds next) (hm : .accepted r ∈ ds) :
    ∃ i f, label = .advance i ∧ c.callers i = .called (.request r) ∧
      next.callers i = .claimed r f := by
  cases ha with
  | @accept i r' first rest hi =>
    have heq := List.mem_singleton.1 hm
    injection heq with hr
    subst hr
    exact ⟨i, first, rfl, hi, by simp⟩
  | listFailed => cases eq_reset_of_settle hm
  | moveFailed => cases eq_reset_of_settle hm
  | _ => simp at hm

theorem Act.claimed {c next : Cell δ} {label : Label} {ds : List Deed} {i : Nat} {r : Request}
    {f : FigurePoint} (ha : Act c label ds next) (hi : c.callers i = .claimed r f) :
    next.callers i = .claimed r f ∨ ∃ g, .armed r f g ∈ ds := by
  by_cases hown : label = .advance i
  · subst hown
    cases ha with
    | arm hi' =>
      cases hi.symm.trans hi'
      exact .inr ⟨_, List.mem_singleton_self _⟩
    | _ => simp_all
  · refine .inl ?_
    rw [ha.callers_eq ?_ hown, hi]
    rintro call rfl
    cases ha with
    | call hret => simp_all

theorem Act.returned {c next : Cell δ} {label : Label} {ds : List Deed} {j : Nat}
    {result : Except Fault Unit} (ha : Act c label ds next) (hj : c.callers j = .returned result)
    (hcall : ∀ call, label ≠ .call j call) : next.callers j = .returned result := by
  rw [ha.callers_eq hcall ?_, hj]
  rintro rfl
  cases ha <;> simp_all

/-- Where there is one caller only, a request that was accepted has armed the gate when the next
call begins. -/
theorem armed_of_accepted {w : Welder δ} {labels : List Label} {c : Cell δ} {i : Nat}
    (hrun : run (idle w) labels = some c) (hsole : ∀ j call, .call j call ∈ labels → j = i)
    {result : Except Fault Unit} (hreturned : c.callers i = .returned result) {r : Request}
    (haccepted : .accepted r ∈ history (idle w) labels) :
    ∃ f g, .armed r f g ∈ history (idle w) labels := by
  have hstart : (∀ j ≠ i, (idle w).callers j = .returned (.ok ())) ∧
      (.accepted r ∈ ([] : List Deed) → (∃ f g, .armed r f g ∈ ([] : List Deed)) ∨
        ∃ f, (idle w).callers i = .claimed r f) := ⟨fun _ _ => rfl, nofun⟩
  have hlast := run_invariant (P := fun h (d : Cell δ) =>
    (∀ j ≠ i, d.callers j = .returned (.ok ())) ∧
      (.accepted r ∈ h → (∃ f g, .armed r f g ∈ h) ∨ ∃ f, d.callers i = .claimed r f))
    hrun hstart ?_
  · rcases hlast.2 haccepted with harmed | ⟨f, hclaimed⟩
    · exact harmed
    · cases hreturned.symm.trans hclaimed
  · intro label hl h d ds e hd ha
    obtain ⟨hothers, hclaim⟩ := hd
    refine ⟨fun j hj => ha.returned (hothers j hj) ?_, fun hm => ?_⟩
    · rintro call rfl
      exact hj (hsole j call hl)
    rcases List.mem_append.1 hm with hold | hnew
    · rcases hclaim hold with ⟨f, g, harmed⟩ | ⟨f, hi⟩
      · exact .inl ⟨f, g, List.mem_append_left _ harmed⟩
      · rcases ha.claimed hi with hstill | ⟨g, harmed⟩
        · exact .inr ⟨f, hstill⟩
        · exact .inl ⟨f, g, List.mem_append_right _ harmed⟩
    · obtain ⟨j, f, -, hj, hnext⟩ := ha.accepted hnew
      by_cases hij : j = i
      · subst hij
        exact .inr ⟨f, hnext⟩
      · cases hj.symm.trans (hothers j hij)

/-! ### The starter past the gate -/

theorem Act.starter_waits {c next : Cell δ} {label : Label} {ds : List Deed} {job : StartJob}
    (ha : Act c label ds next) (hs : c.starter = .admitted job) (hl : label ≠ .starter) :
    next.starter = .admitted job := by
  cases ha with
  | giveIn hw => cases hs.symm.trans hw
  | startFetch => exact absurd rfl hl
  | startLeave => exact absurd rfl hl
  | pass => exact absurd rfl hl
  | turnBack => exact absurd rfl hl
  | start => exact absurd rfl hl
  | startReport => exact absurd rfl hl
  | _ => exact hs

/-- A starter past the gate starts the weld with its next step. -/
theorem started_of_admitted {c last : Cell δ} {labels : List Label} {job : StartJob}
    (hrun : run c labels = some last) (hs : c.starter = .admitted job)
    (hm : .starter ∈ labels) : ∃ result, .started job result ∈ history c labels := by
  induction labels generalizing c with
  | nil => cases hm
  | cons label rest ih =>
    obtain ⟨next, hstep, hrest⟩ := run_cons_eq_some.1 hrun
    by_cases hl : label = .starter
    · subst hl
      refine ⟨c.welder.startMark.1, List.mem_append_left _ ?_⟩
      simp [deeds, starterDeeds, hs]
    · have hnext := (act_of_step hstep).starter_waits hs hl
      have hin : .starter ∈ rest := (List.mem_cons.1 hm).resolve_left (Ne.symm hl)
      obtain ⟨result, hstarted⟩ := ih hrest hnext hin
      refine ⟨result, ?_⟩
      simp only [history, hstep, Option.elim_some, List.mem_append]
      exact .inr hstarted

/-- Nobody gets past a gate that is in another generation. -/
theorem Act.not_admitted {c next : Cell δ} {label : Label} {ds : List Deed} {job : StartJob}
    (ha : Act c label ds next) (hg : c.gate.generation ≠ job.generation)
    (hs : c.starter ≠ .admitted job) : next.starter ≠ .admitted job := by
  cases ha with
  | startFetch => nofun
  | startLeave => nofun
  | startReport => nofun
  | @pass job' _ _ ho =>
    intro hadm
    obtain rfl : job' = job := Starter.admitted.inj hadm
    exact hg ((Gate.outcome_eq_ok_iff ..).1 ho).2.1
  | turnBack => exact afterFault_ne_admitted _ _ job
  | giveIn => exact afterFault_ne_admitted _ _ job
  | start =>
    simp only
    split
    · nofun
    · exact afterFault_ne_admitted _ _ job
  | _ => exact hs

theorem not_admitted_of_over {c last : Cell δ} {labels : List Label} {h : List Deed}
    {job : StartJob} (hrun : run c labels = some last) (hc : Counted h c.gate)
    (few : restarts (h ++ history c labels) < UInt64.size) (ho : Over h job.generation)
    (hs : c.starter ≠ .admitted job) : last.starter ≠ .admitted job := by
  refine (run_counted (P := fun h d => Over h job.generation ∧ d.starter ≠ .admitted job)
    hrun hc few ⟨ho, hs⟩ ?_).2.2
  intro label _ h d ds e hcount hfew hd ha
  obtain ⟨hover, hstarter⟩ := hd
  have hless : restarts h < UInt64.size := by
    rw [restarts_append] at hfew
    omega
  have hother := hcount.ne_of_over hless hover
  exact ⟨hover.later ds, ha.not_admitted hother hstarter⟩

theorem few_before {c mid : Cell δ} {front back : List Label} {ds : List Deed}
    (hfront : run c front = some mid)
    (few : restarts (history c (front ++ back) ++ ds) < UInt64.size) :
    restarts (history c front) < UInt64.size := by
  rw [history_append hfront, restarts_append, restarts_append] at few
  omega

/-- The weld of a generation that is over is started if and only if the starter has left the gate
with its job, and takes its next step. -/
theorem started_iff_of_over {w : Welder δ} {labels late : List Label} {c last : Cell δ}
    {job : StartJob} (hrun : run (idle w) labels = some c)
    (hover : Over (history (idle w) labels) job.generation) (hlate : run c late = some last)
    (few : restarts (history (idle w) labels ++ history c late) < UInt64.size) :
    (∃ result, .started job result ∈ history c late) ↔
      c.starter = .admitted job ∧ .starter ∈ late := by
  constructor
  · rintro ⟨result, hstarted⟩
    obtain ⟨before, after, hsplit⟩ := List.append_of_mem hstarted
    obtain ⟨front, back, d, rfl, hfront, rfl, hadm⟩ := admitted_of_started hlate hsplit
    refine ⟨Classical.byContradiction fun hne => ?_,
      List.mem_append_right _ (List.mem_cons_self ..)⟩
    rw [hsplit, restarts_append, restarts_append] at few
    have hcounted : Counted (history (idle w) labels) c.gate :=
      (traced_of_run hrun (by omega)).counted
    refine not_admitted_of_over hfront hcounted ?_ hover hne hadm
    rw [restarts_append]
    omega
  · rintro ⟨hadm, hm⟩
    exact started_of_admitted hlate hadm hm

/-- After a call has returned that gives the seam up, the weld is started for a request that armed
the gate before the call if and only if the starter had left the gate by then with the job of this
request, and takes its next step. -/
theorem abandoned_started_iff {w : Welder δ} {early mid late : List Label} {c₀ c last : Cell δ}
    {r : Request} {f : FigurePoint} {g : UInt64} {i : Nat} {call : Call}
    {result : Except Fault Unit} (hearly : run (idle w) early = some c₀)
    (harmed : .armed r f g ∈ history (idle w) early) (hcall : call.afterReset?.isSome)
    (hmid : run c₀ (.call i call :: mid) = some c) (hreturned : c.callers i = .returned result)
    (hlate : run c late = some last)
    (few : restarts (history (idle w) (early ++ .call i call :: mid ++ late)) < UInt64.size) :
    (∃ result, .started (r.startJob g) result ∈ history c late) ↔
      c.starter = .admitted (r.startJob g) ∧ .starter ∈ late := by
  have hall : run (idle w) (early ++ .call i call :: mid) = some c := run_through hearly hmid
  rw [history_append hall] at few
  have hover := over_of_returned hearly harmed (few_before hearly few) hcall hmid hreturned
  exact started_iff_of_over hall hover hlate few

/-- A request of a sole caller that was accepted before such a call has armed the gate by then, so
that the same holds of it: once the call has returned, only a starter that had left the gate with
the job of this request starts its weld. -/
theorem accepted_started_iff {w : Welder δ} {early mid late : List Label} {c₀ c last : Cell δ}
    {r : Request} {i : Nat} {call : Call} {result : Except Fault Unit}
    (hearly : run (idle w) early = some c₀) (hsole : ∀ j call, .call j call ∈ early → j = i)
    (haccepted : .accepted r ∈ history (idle w) early) (hcall : call.afterReset?.isSome)
    (hmid : run c₀ (.call i call :: mid) = some c) (hreturned : c.callers i = .returned result)
    (hlate : run c late = some last)
    (few : restarts (history (idle w) (early ++ .call i call :: mid ++ late)) < UInt64.size) :
    (∃ f g, .armed r f g ∈ history (idle w) early) ∧
    ∀ f g, .armed r f g ∈ history (idle w) early →
      ((∃ result, .started (r.startJob g) result ∈ history c late) ↔
        c.starter = .admitted (r.startJob g) ∧ .starter ∈ late) := by
  obtain ⟨c₁, hbegin, -⟩ := run_cons_eq_some.1 hmid
  have hall : run (idle w) (early ++ .call i call :: mid) = some c := run_through hearly hmid
  rw [history_append hall] at few
  cases act_of_step hbegin with
  | call hfree =>
    refine ⟨armed_of_accepted hearly hsole hfree haccepted, fun f g harmed => ?_⟩
    have hover := over_of_returned hearly harmed (few_before hearly few) hcall hmid hreturned
    exact started_iff_of_over hall hover hlate few

/-! ### A start after a stop -/

/-- The bench with a starter between the gate and the scanner. -/
def benchAdmitted : Cell CardDevice := (run bench benchAdmission).get rfl

/-- The bench with that starter once a stop has returned. -/
def benchStopped : Cell CardDevice := (run benchAdmitted (callSteps 0 .stopMark 2)).get rfl

theorem run_benchAdmitted : run bench benchAdmission = some benchAdmitted :=
  (Option.some_get _).symm

theorem run_benchStopped : run benchAdmitted (callSteps 0 .stopMark 2) = some benchStopped :=
  (Option.some_get _).symm

theorem armed_bench : .armed (benchRequest .weld false) benchPoint 1 ∈
    history bench benchAdmission := by
  have hdeeds : history bench benchAdmission = benchDeeds := rfl
  rw [hdeeds]
  simp [benchDeeds]

theorem few_bench : restarts (history bench
    (benchAdmission ++ callSteps 0 .stopMark 2 ++ [.starter])) < UInt64.size := by
  decide +kernel

theorem bench_started_iff :
    (∃ result, .started ((benchRequest .weld false).startJob 1) result ∈
        history benchStopped [.starter]) ↔
      benchStopped.starter = .admitted ((benchRequest .weld false).startJob 1) ∧
        .starter ∈ [Label.starter] := by
  obtain ⟨last, hlate⟩ : ∃ last, run benchStopped [.starter] = some last :=
    Option.isSome_iff_exists.1 rfl
  exact abandoned_started_iff run_benchAdmitted armed_bench rfl run_benchStopped rfl hlate few_bench

/-- It is not so that a sole caller whose stop has returned sees no start any more: on the bench
the card executes its list after the stop. -/
theorem start_after_stop :
    ¬ ∀ (early mid late : List Label) (c₀ c last : Cell CardDevice) (call : Call) (r : Request)
      (f : FigurePoint) (g : UInt64) (stopped : Except Fault Unit),
      (∀ j call, .call j call ∈ early ++ mid ++ late → j = 0) →
      run bench early = some c₀ → .accepted r ∈ history bench early →
      .armed r f g ∈ history bench early → call.afterReset?.isSome →
      run c₀ (.call 0 call :: mid) = some c → c.callers 0 = .returned stopped →
      run c late = some last →
      ∀ result, .started (r.startJob g) result ∉ history c late := by
  intro hall
  obtain ⟨last, hlate⟩ : ∃ last, run benchStopped [.starter] = some last :=
    Option.isSome_iff_exists.1 rfl
  have haccepted : .accepted (benchRequest .weld false) ∈ history bench benchAdmission := by
    have hdeeds : history bench benchAdmission = benchDeeds := rfl
    rw [hdeeds]
    simp [benchDeeds]
  have hsole : ∀ j call, .call j call ∈
      benchAdmission ++ List.replicate 2 (.advance 0) ++ [.starter] → j = 0 := by
    intro j call hm
    simp [benchAdmission, callSteps] at hm
    omega
  have hearly : ∀ j call, .call j call ∈ benchAdmission → j = 0 := fun j call hm =>
    hsole j call (List.mem_append_left _ (List.mem_append_left _ hm))
  -- the starter is between the gate and the scanner, so the next step starts the weld
  have hwindow := (accepted_started_iff run_benchAdmitted hearly haccepted rfl run_benchStopped rfl
    hlate few_bench).2 benchPoint 1 armed_bench
  obtain ⟨started, hstarted⟩ := hwindow.2 ⟨rfl, List.mem_singleton_self _⟩
  exact hall benchAdmission (List.replicate 2 (.advance 0)) [.starter] benchAdmitted benchStopped
    last .stopMark (benchRequest .weld false) benchPoint 1 (.ok ()) hsole run_benchAdmitted
    haccepted armed_bench rfl run_benchStopped rfl hlate started hstarted

end GalvoWeld.Cell
