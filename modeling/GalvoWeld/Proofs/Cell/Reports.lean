import GalvoWeld.Proofs.Cell.Clearance

/-!
# What the workers report

A worker does a job, tells the gate of it, and reports an event; then it fetches the next one. Each
worker reports successes of its own kind only, and each right behind the job that succeeded, so that
the event in its hand belongs to the last job that it did.
-/

namespace GalvoWeld.Cell

/-! ### Desks -/

/-- How a worker shows in a history: the jobs that it does, whose they are, and the successes that
it reports. -/
structure Desk (α : Type) where
  done : α → Except Fault Unit → Deed
  generation : α → UInt64
  seam : α → Nat
  /-- The job of a request. -/
  mine : Request → FigurePoint → UInt64 → α
  success : Nat → Event

def listDesk : Desk ListJob where
  done := .listed
  generation := ListJob.generation
  seam job := job.data.seam
  mine r _ g := r.listJob g
  success := .listBuilt

def moveDesk : Desk MoveJob where
  done := .moved
  generation := MoveJob.generation
  seam := MoveJob.seam
  mine r f g := r.moveJob f g
  success := .scannerMoved

def startDesk : Desk StartJob where
  done := .started
  generation := StartJob.generation
  seam := StartJob.seam
  mine r _ g := r.startJob g
  success := .weldingStarted

namespace Desk

variable {α : Type} (k : Desk α)

/-- Nothing that this worker does, and no success that it reports. -/
def Quiet (d : Deed) : Prop :=
  (∀ job result, d ≠ k.done job result) ∧ ∀ seam, d ≠ .reported (k.success seam)

/-- The job succeeded, it was the last one that was done, and no success was reported since. -/
def Fresh (h : List Deed) (job : α) : Prop :=
  ∃ early late, h = early ++ k.done job (.ok ()) :: late ∧ ∀ d ∈ late, k.Quiet d

/-- A job of a request that armed the gate. -/
def Issued (h : List Deed) (job : α) : Prop :=
  ∃ r f, .armed r f (k.generation job) ∈ h ∧ job = k.mine r f (k.generation job)

/-- An event that the worker may report: the success of the job that it did last, or a fault. -/
def Owes (h : List Deed) (e : Event) : Prop :=
  (∃ job, k.Fresh h job ∧ e = k.success (k.seam job)) ∨ ∃ seam fault, e = .fatal seam fault

variable {k} {h ds : List Deed} {job : α}

theorem quiet_nil : ∀ d ∈ [], k.Quiet d := fun _ hd => absurd hd List.not_mem_nil

theorem quiet_one {d : Deed} (hq : k.Quiet d) : ∀ e ∈ [d], k.Quiet e :=
  fun _ he => List.mem_singleton.1 he ▸ hq

theorem quiet_settle (hq : k.Quiet .reset) {gate : Gate} {g : UInt64} {fault : Fault} :
    ∀ d ∈ settleDeeds gate g (.error fault), k.Quiet d :=
  fun _ hd => eq_reset_of_settle hd ▸ hq

theorem fresh_now (h : List Deed) (job : α) : k.Fresh (h ++ [k.done job (.ok ())]) job :=
  ⟨h, [], rfl, quiet_nil⟩

theorem Fresh.keep (hf : k.Fresh h job) (hq : ∀ d ∈ ds, k.Quiet d) : k.Fresh (h ++ ds) job := by
  obtain ⟨early, late, rfl, hlate⟩ := hf
  refine ⟨early, late ++ ds, by simp, fun d hd => ?_⟩
  rcases List.mem_append.1 hd with hold | hnew
  · exact hlate d hold
  · exact hq d hnew

theorem Fresh.mem (hf : k.Fresh h job) : k.done job (.ok ()) ∈ h := by
  obtain ⟨early, late, rfl, -⟩ := hf
  exact List.mem_append_right early (List.mem_cons_self ..)

theorem Issued.later (hi : k.Issued h job) (ds : List Deed) : k.Issued (h ++ ds) job := by
  obtain ⟨r, f, hm, hjob⟩ := hi
  exact ⟨r, f, List.mem_append_left _ hm, hjob⟩

theorem Owes.keep {e : Event} (ho : k.Owes h e) (hq : ∀ d ∈ ds, k.Quiet d) :
    k.Owes (h ++ ds) e := by
  rcases ho with ⟨job, hf, he⟩ | hfatal
  · exact .inl ⟨job, hf.keep hq, he⟩
  · exact .inr hfatal

end Desk

/-! ### Turns of a worker -/

/-- What a worker does between two looks at it: nothing, while others do something else, or a step
of its own. -/
inductive Desk.Turn {α : Type} (k : Desk α) : Hand α → List Deed → Hand α → Prop where
  | rest {hand ds} (hq : ∀ d ∈ ds, k.Quiet d) : Turn k hand ds hand
  | fetch {job} : Turn k .parked [] (.holding job)
  | leave : Turn k .parked [] .gone
  | work {job result} : Turn k (.holding job) [k.done job result]
      (.finished (k.generation job) (k.seam job) result)
  | succeed {g seam} : Turn k (.finished g seam (.ok ())) [] (.reporting (k.success seam))
  | fail {g seam fault ds} (hds : ∀ d ∈ ds, d = .reset) :
      Turn k (.finished g seam (.error fault)) ds (.reporting (.fatal seam fault))
  | report {e} : Turn k (.reporting e) [.reported e] .parked

/-- What a worker has in its hand is its own: the result or the event of the job that it did last,
which was one of a request. -/
structure Desk.Account {α : Type} (k : Desk α) (h : List Deed) (hand : Hand α) : Prop where
  finished : ∀ g seam, hand = .finished g seam (.ok ()) →
    ∃ job, k.Fresh h job ∧ k.Issued h job ∧ k.generation job = g ∧ k.seam job = seam
  reporting : ∀ e, hand = .reporting e → k.Owes h e

section
variable {α : Type} {k : Desk α} {h ds : List Deed} {hand hand' : Hand α}

theorem Desk.Account.turn (ha : k.Account h hand)
    (hi : ∀ job, hand = .holding job → k.Issued h job) (ht : k.Turn hand ds hand') :
    k.Account (h ++ ds) hand' := by
  cases ht with
  | rest hq =>
    refine ⟨fun g seam hf => ?_, fun e he => (ha.reporting e he).keep hq⟩
    obtain ⟨job, hfresh, hissued, hjob⟩ := ha.finished g seam hf
    exact ⟨job, hfresh.keep hq, hissued.later ds, hjob⟩
  | fetch => exact ⟨nofun, nofun⟩
  | leave => exact ⟨nofun, nofun⟩
  | @work job result =>
    refine ⟨fun g seam hf => ?_, nofun⟩
    injection hf with hg hseam hresult
    subst hresult
    exact ⟨job, Desk.fresh_now h job, (hi job rfl).later _, hg, hseam⟩
  | @succeed g seam =>
    refine ⟨nofun, fun e he => ?_⟩
    obtain ⟨job, hfresh, -, -, hseam⟩ := ha.finished g seam rfl
    obtain rfl := Hand.reporting.inj he
    exact .inl ⟨job, hfresh.keep Desk.quiet_nil, by rw [hseam]⟩
  | @fail g seam fault _ hds =>
    refine ⟨nofun, fun e he => ?_⟩
    obtain rfl := Hand.reporting.inj he
    exact .inr ⟨seam, fault, rfl⟩
  | report => exact ⟨nofun, nofun⟩

/-! ### Reported, or about to be -/

/-- The job succeeded, and the next thing of this worker was to report it. -/
def Desk.Told (k : Desk α) (h : List Deed) (job : α) : Prop :=
  ∃ early between late, h = early ++ k.done job (.ok ()) ::
    (between ++ .reported (k.success (k.seam job)) :: late) ∧ ∀ d ∈ between, k.Quiet d

theorem Desk.Told.later {job : α} (ht : k.Told h job) (ds : List Deed) : k.Told (h ++ ds) job := by
  obtain ⟨early, between, late, rfl, hquiet⟩ := ht
  exact ⟨early, between, late ++ ds, by simp, hquiet⟩

/-- A report right behind the job. -/
theorem Desk.Fresh.told {job : α} (hf : k.Fresh h job) :
    k.Told (h ++ [.reported (k.success (k.seam job))]) job := by
  obtain ⟨early, between, rfl, hquiet⟩ := hf
  exact ⟨early, between, [], by simp, hquiet⟩

/-- The job was done last, its success was not reported since, and the worker is about to. -/
structure Desk.Held (k : Desk α) (h : List Deed) (hand : Hand α) (job : α) : Prop where
  fresh : k.Fresh h job
  hand : hand = .reporting (k.success (k.seam job))

def Desk.Settled (k : Desk α) (h : List Deed) (hand : Hand α) (job : α) : Prop :=
  k.Told h job ∨ k.Held h hand job

/-- The event in a hand is reported with the next step of the worker. -/
theorem Desk.Settled.turn {job : α} (hs : k.Settled h hand job) (ht : k.Turn hand ds hand') :
    k.Settled (h ++ ds) hand' job := by
  rcases hs with htold | ⟨hfresh, rfl⟩
  · exact .inl (htold.later ds)
  · cases ht with
    | rest hq => exact .inr ⟨hfresh.keep hq, rfl⟩
    | report => exact .inl hfresh.told

end

/-! ### The three workers of a cell -/

variable {δ : Type}

/-- What the workers of a cell have in their hands is their own. -/
structure Tidy (h : List Deed) (c : Cell δ) : Prop where
  lister : listDesk.Account h c.lister
  mover : moveDesk.Account h c.mover
  starter : ∀ e, c.starter = .reporting e → startDesk.Owes h e

theorem Tidy.start (w : Welder δ) : Tidy [] (idle w) where
  lister := ⟨nofun, nofun⟩
  mover := ⟨nofun, nofun⟩
  starter := nofun

/-- No worker does a reset. -/
theorem quiet_reset : listDesk.Quiet .reset ∧ moveDesk.Quiet .reset ∧ startDesk.Quiet .reset := by
  simp [Desk.Quiet, listDesk, moveDesk, startDesk]

section
variable {h : List Deed} {e : Event}

/-- A report of one worker is none of the others. -/
theorem quiet_of_list_owes (ho : listDesk.Owes h e) :
    moveDesk.Quiet (.reported e) ∧ startDesk.Quiet (.reported e) := by
  rcases ho with ⟨job, -, rfl⟩ | ⟨seam, fault, rfl⟩ <;>
    simp [Desk.Quiet, listDesk, moveDesk, startDesk]

theorem quiet_of_move_owes (ho : moveDesk.Owes h e) :
    listDesk.Quiet (.reported e) ∧ startDesk.Quiet (.reported e) := by
  rcases ho with ⟨job, -, rfl⟩ | ⟨seam, fault, rfl⟩ <;>
    simp [Desk.Quiet, listDesk, moveDesk, startDesk]

theorem quiet_of_start_owes (ho : startDesk.Owes h e) :
    listDesk.Quiet (.reported e) ∧ moveDesk.Quiet (.reported e) := by
  rcases ho with ⟨job, -, rfl⟩ | ⟨seam, fault, rfl⟩ <;>
    simp [Desk.Quiet, listDesk, moveDesk, startDesk]

end

variable [Device δ] {h ds : List Deed} {label : Label} {c next : Cell δ}

theorem Act.turn_lister (ht : Tidy h c) (ha : Act c label ds next) :
    listDesk.Turn c.lister ds next.lister := by
  cases ha with
  | listFetch hl => rw [hl]; exact .fetch
  | listLeave hl => rw [hl]; exact .leave
  | list hl => rw [hl]; exact .work
  | listDone hl => rw [hl]; exact .succeed
  | listFailed hl => rw [hl]; exact .fail fun d hd => eq_reset_of_settle hd
  | listReport hl => rw [hl]; exact .report
  | moveFailed => exact .rest (Desk.quiet_settle quiet_reset.1)
  | moveReport hm => exact .rest (Desk.quiet_one (quiet_of_move_owes (ht.mover.reporting _ hm)).1)
  | startReport hs => exact .rest (Desk.quiet_one (quiet_of_start_owes (ht.starter _ hs)).1)
  | _ => exact .rest (by simp [Desk.Quiet, listDesk])

theorem Act.turn_mover (ht : Tidy h c) (ha : Act c label ds next) :
    moveDesk.Turn c.mover ds next.mover := by
  cases ha with
  | moveFetch hm => rw [hm]; exact .fetch
  | moveLeave hm => rw [hm]; exact .leave
  | move hm => rw [hm]; exact .work
  | moveDone hm => rw [hm]; exact .succeed
  | moveFailed hm => rw [hm]; exact .fail fun d hd => eq_reset_of_settle hd
  | moveReport hm => rw [hm]; exact .report
  | listFailed => exact .rest (Desk.quiet_settle quiet_reset.2.1)
  | listReport hl => exact .rest (Desk.quiet_one (quiet_of_list_owes (ht.lister.reporting _ hl)).1)
  | startReport hs => exact .rest (Desk.quiet_one (quiet_of_start_owes (ht.starter _ hs)).2)
  | _ => exact .rest (by simp [Desk.Quiet, moveDesk])

theorem eq_fatal_of_afterFault {seam : Nat} {fault : Fault} {e : Event}
    (he : afterFault seam fault = .reporting e) : e = .fatal seam fault := by
  cases fault <;> cases he <;> rfl

theorem Act.owes_starter (ht : Tidy h c) (ha : Act c label ds next) {e : Event}
    (he : next.starter = .reporting e) : startDesk.Owes (h ++ ds) e := by
  cases ha with
  | startFetch => cases he
  | startLeave => cases he
  | pass => cases he
  | startReport => cases he
  | turnBack => exact .inr ⟨_, _, eq_fatal_of_afterFault he⟩
  | giveIn => exact .inr ⟨_, _, eq_fatal_of_afterFault he⟩
  | @start job =>
    simp only at he
    cases hr : c.welder.startMark.1 with
    | ok =>
      rw [hr] at he
      exact .inl ⟨job, Desk.fresh_now h job, (Starter.reporting.inj he).symm⟩
    | error fault =>
      rw [hr] at he
      exact .inr ⟨_, _, eq_fatal_of_afterFault he⟩
  | listReport hl =>
    have hquiet := (quiet_of_list_owes (ht.lister.reporting _ hl)).2
    exact (ht.starter e he).keep (Desk.quiet_one hquiet)
  | moveReport hm =>
    have hquiet := (quiet_of_move_owes (ht.mover.reporting _ hm)).2
    exact (ht.starter e he).keep (Desk.quiet_one hquiet)
  | listFailed => exact (ht.starter e he).keep (Desk.quiet_settle quiet_reset.2.2)
  | moveFailed => exact (ht.starter e he).keep (Desk.quiet_settle quiet_reset.2.2)
  | _ => exact (ht.starter e he).keep (by simp [Desk.Quiet, startDesk])

theorem Tidy.act (ht : Tidy h c) (hi : Issued h c) (ha : Act c label ds next) :
    Tidy (h ++ ds) next where
  lister := ht.lister.turn hi.lister (ha.turn_lister ht)
  mover := ht.mover.turn hi.mover (ha.turn_mover ht)
  starter _ he := ha.owes_starter ht he

/-! ### The events of a run -/

def Deed.event? : Deed → Option Event
  | .reported event => some event
  | _ => none

/-- The events that were reported, in their order. -/
def reportedIn (h : List Deed) : List Event := h.filterMap Deed.event?

omit [Device δ] in
theorem reportedIn_settle (gate : Gate) (g : UInt64) (fault : Fault) :
    reportedIn (settleDeeds gate g (.error fault)) = [] :=
  filterMap_settle rfl ..

theorem Act.events (ha : Act c label ds next) : next.events = c.events ++ reportedIn ds := by
  cases ha with
  | listFailed => rw [reportedIn_settle, List.append_nil]
  | moveFailed => rw [reportedIn_settle, List.append_nil]
  | listReport => rfl
  | moveReport => rfl
  | startReport => rfl
  | _ => exact (List.append_nil _).symm

/-- An event is reported from a hand, by a step of its own. -/
theorem Act.reports {e : Event} (ha : Act c label ds next) (hm : .reported e ∈ ds) :
    ds = [.reported e] ∧ (label = .lister ∧ c.lister = .reporting e ∨
      label = .mover ∧ c.mover = .reporting e ∨ label = .starter ∧ c.starter = .reporting e) := by
  cases ha with
  | listReport hl =>
    obtain ⟨⟩ := List.mem_singleton.1 hm
    exact ⟨rfl, .inl ⟨rfl, hl⟩⟩
  | moveReport hm' =>
    obtain ⟨⟩ := List.mem_singleton.1 hm
    exact ⟨rfl, .inr (.inl ⟨rfl, hm'⟩)⟩
  | startReport hs =>
    obtain ⟨⟩ := List.mem_singleton.1 hm
    exact ⟨rfl, .inr (.inr ⟨rfl, hs⟩)⟩
  | listFailed => cases eq_reset_of_settle hm
  | moveFailed => cases eq_reset_of_settle hm
  | _ => simp at hm

/-- The start of a weld is reported by the starter, about the job that it did last. -/
theorem Act.announces (ht : Tidy h c) (ha : Act c label ds next) {seam : Nat}
    (hm : .reported (.weldingStarted seam) ∈ ds) :
    label = .starter ∧ ∃ job, startDesk.Fresh h job ∧ seam = job.seam := by
  rcases (ha.reports hm).2 with ⟨-, hl⟩ | ⟨-, hmove⟩ | ⟨hlabel, hs⟩
  · exact absurd rfl ((quiet_of_list_owes (ht.lister.reporting _ hl)).2.2 seam)
  · exact absurd rfl ((quiet_of_move_owes (ht.mover.reporting _ hmove)).2.2 seam)
  · rcases ht.starter _ hs with ⟨job, hfresh, he⟩ | ⟨other, fault, he⟩
    · exact ⟨hlabel, job, hfresh, Event.weldingStarted.inj he⟩
    · cases he

/-- What a cell has reported is what its history tells of. -/
theorem events_of_run {w : Welder δ} {labels : List Label}
    (hrun : run (idle w) labels = some c) : c.events = reportedIn (history (idle w) labels) := by
  have hstart : (idle w).events = reportedIn [] := rfl
  have hlast := run_invariant (P := fun h d => d.events = reportedIn h) hrun hstart ?_
  · exact hlast
  · intro label _ h d ds e hd ha
    rw [ha.events, hd, reportedIn, reportedIn, reportedIn, List.filterMap_append]

end GalvoWeld.Cell
