import GalvoWeld.Proofs.Cell.Generations

/-!
# Where jobs come from

Every job that is on its way, in a slot or with a worker, was posted for a request that armed the
gate in the generation of the job.
-/

namespace GalvoWeld.Cell

variable {δ : Type}

@[simp] theorem callers_setCaller (c : Cell δ) (i j : Nat) (place : Caller) :
    (setCaller c i place).callers j = if j = i then place else c.callers j := rfl

/-! ### Requests behind jobs -/

/-- A request armed the gate in this generation, and it is one with this property. -/
def Stems (h : List Deed) (g : UInt64) (P : Request → FigurePoint → Prop) : Prop :=
  ∃ r f, .armed r f g ∈ h ∧ P r f

theorem Stems.later {h : List Deed} {g : UInt64} {P : Request → FigurePoint → Prop}
    (hs : Stems h g P) (ds : List Deed) : Stems (h ++ ds) g P := by
  obtain ⟨r, f, hm, hp⟩ := hs
  exact ⟨r, f, List.mem_append_left _ hm, hp⟩

/-- The list job of a request that armed the gate. -/
def ListJob.Issued (h : List Deed) (job : ListJob) : Prop :=
  Stems h job.generation fun r _ => job = r.listJob job.generation

def MoveJob.Issued (h : List Deed) (job : MoveJob) : Prop :=
  Stems h job.generation fun r f => job = r.moveJob f job.generation

def StartJob.Issued (h : List Deed) (job : StartJob) : Prop :=
  Stems h job.generation fun r _ => job = r.startJob job.generation

/-- A caller that posts jobs does so for a request that armed the gate. -/
def Caller.Issued (h : List Deed) : Caller → Prop
  | .armed r f g => .armed r f g ∈ h
  | .heightSettled r f g => .armed r f g ∈ h
  | .listPosted r f g => .armed r f g ∈ h
  | .movePosted r g => ∃ f, .armed r f g ∈ h
  | _ => True

theorem Caller.Issued.later {h : List Deed} {place : Caller} (hp : place.Issued h)
    (ds : List Deed) : place.Issued (h ++ ds) := by
  cases place with
  | armed r f g => exact List.mem_append_left _ hp
  | heightSettled r f g => exact List.mem_append_left _ hp
  | listPosted r f g => exact List.mem_append_left _ hp
  | movePosted r g =>
    obtain ⟨f, hf⟩ := hp
    exact ⟨f, List.mem_append_left _ hf⟩
  | _ => trivial

/-! ### All jobs of a cell -/

/-- All jobs in a cell were posted for requests that armed the gate. -/
structure Issued (h : List Deed) (c : Cell δ) : Prop where
  callers : ∀ i, (c.callers i).Issued h
  listSlot : ∀ job, c.listSlot.job = some job → job.Issued h
  moveSlot : ∀ job, c.moveSlot.job = some job → job.Issued h
  startSlot : ∀ job, c.startSlot.job = some job → job.Issued h
  lister : ∀ job, c.lister = .holding job → job.Issued h
  mover : ∀ job, c.mover = .holding job → job.Issued h
  waiting : ∀ job, c.starter = .waiting job → job.Issued h
  admitted : ∀ job, c.starter = .admitted job → job.Issued h

theorem Issued.start (w : Welder δ) : Issued [] (idle w) where
  callers _ := trivial
  listSlot _ hj := nomatch hj
  moveSlot _ hj := nomatch hj
  startSlot _ hj := nomatch hj
  lister _ hj := nomatch hj
  mover _ hj := nomatch hj
  waiting _ hj := nomatch hj
  admitted _ hj := nomatch hj

theorem Issued.later {h : List Deed} {c : Cell δ} (hc : Issued h c) (ds : List Deed) :
    Issued (h ++ ds) c where
  callers i := (hc.callers i).later ds
  listSlot job hj := Stems.later (hc.listSlot job hj) ds
  moveSlot job hj := Stems.later (hc.moveSlot job hj) ds
  startSlot job hj := Stems.later (hc.startSlot job hj) ds
  lister job hj := Stems.later (hc.lister job hj) ds
  mover job hj := Stems.later (hc.mover job hj) ds
  waiting job hj := Stems.later (hc.waiting job hj) ds
  admitted job hj := Stems.later (hc.admitted job hj) ds

theorem Issued.place {h : List Deed} {c : Cell δ} (hc : Issued h c) {i : Nat} {place : Caller}
    (hi : c.callers i = place) : place.Issued h := by
  rw [← hi]
  exact hc.callers i

theorem issued_setCaller {h : List Deed} {c : Cell δ} (hc : ∀ i, (c.callers i).Issued h)
    {i : Nat} {place : Caller} (hp : place.Issued h) :
    ∀ j, ((setCaller c i place).callers j).Issued h := by
  intro j
  rw [callers_setCaller]
  split
  · exact hp
  · exact hc j

variable [Device δ]

theorem afterFault_ne_waiting (seam : Nat) (fault : Fault) (job : StartJob) :
    afterFault seam fault ≠ .waiting job := by
  cases fault <;> nofun

theorem afterFault_ne_admitted (seam : Nat) (fault : Fault) (job : StartJob) :
    afterFault seam fault ≠ .admitted job := by
  cases fault <;> nofun

theorem Issued.act {h ds : List Deed} {label : Label} {c next : Cell δ} (hc : Issued h c)
    (ha : Act c label ds next) : Issued (h ++ ds) next := by
  have hk := hc.later ds
  cases ha with
  | @arm i r first hi =>
    have hm : Deed.armed r first (c.gate.arm r.contourPrepared).generation ∈
        h ++ [Deed.armed r first (c.gate.arm r.contourPrepared).generation] :=
      List.mem_append_right _ (List.mem_singleton_self _)
    exact { hk with callers := issued_setCaller hk.callers hm }
  | @previewHeight i r first g hi _ =>
    have hp : Deed.armed r first g ∈ h ++ [] := hk.place hi
    exact { hk with callers := issued_setCaller hk.callers hp }
  | @weldHeight i r first g hi _ =>
    have hp : Deed.armed r first g ∈ h ++ [] := hk.place hi
    exact { hk with callers := issued_setCaller hk.callers hp }
  | @keepList i r first g hi _ =>
    have hp : Deed.armed r first g ∈ h ++ [] := hk.place hi
    exact { hk with callers := issued_setCaller hk.callers hp }
  | @postList i r first g hi _ =>
    have hp : Deed.armed r first g ∈ h ++ [] := hk.place hi
    refine { hk with callers := issued_setCaller hk.callers hp, listSlot := ?_ }
    intro job hj
    obtain rfl : r.listJob g = job := Option.some.inj hj
    exact ⟨r, first, hp, rfl⟩
  | @postMove i r first g hi =>
    have hp : Deed.armed r first g ∈ h ++ [] := hk.place hi
    refine { hk with callers := issued_setCaller hk.callers ⟨first, hp⟩, moveSlot := ?_ }
    intro job hj
    obtain rfl : r.moveJob first g = job := Option.some.inj hj
    exact ⟨r, first, hp, rfl⟩
  | @postStart i r g hi =>
    obtain ⟨first, hp⟩ : ∃ f, Deed.armed r f g ∈ h ++ [Deed.ended i (.ok ())] :=
      hk.place hi
    refine { hk with callers := issued_setCaller hk.callers trivial, startSlot := ?_ }
    intro job hj
    obtain rfl : r.startJob g = job := Option.some.inj hj
    exact ⟨r, first, hp, rfl⟩
  | @giveUp i call place hi hp =>
    have htrivial : place.Issued (h ++ [Deed.reset]) := by
      cases call <;> cases hp <;> trivial
    exact { hk with callers := issued_setCaller hk.callers htrivial }
  | @listFetch job hl _ hj =>
    refine { hk with lister := ?_, listSlot := fun _ hj => nomatch hj }
    intro job' hj'
    obtain rfl : job = job' := Hand.holding.inj hj'
    exact hk.listSlot job hj
  | @moveFetch job hm _ hj =>
    refine { hk with moveSlot := nofun, mover := ?_ }
    intro job' hj'
    obtain rfl : job = job' := Hand.holding.inj hj'
    exact hk.moveSlot job hj
  | @startFetch job hs _ hj =>
    refine { hk with startSlot := nofun, waiting := ?_, admitted := nofun }
    intro job' hj'
    obtain rfl : job = job' := Starter.waiting.inj hj'
    exact hk.startSlot job hj
  | @pass job hs _ _ =>
    refine { hk with waiting := nofun, admitted := ?_ }
    intro job' hj'
    obtain rfl : job = job' := Starter.admitted.inj hj'
    exact hk.waiting job hs
  | turnBack =>
    exact { hk with
      waiting := fun job hj => absurd hj (afterFault_ne_waiting _ _ job)
      admitted := fun job hj => absurd hj (afterFault_ne_admitted _ _ job) }
  | giveIn =>
    exact { hk with
      waiting := fun job hj => absurd hj (afterFault_ne_waiting _ _ job)
      admitted := fun job hj => absurd hj (afterFault_ne_admitted _ _ job) }
  | @start job hs =>
    cases hr : c.welder.startMark.1 with
    | ok =>
      rw [hr] at hk
      exact { hk with waiting := nofun, admitted := nofun }
    | error fault =>
      rw [hr] at hk
      exact { hk with
        waiting := fun job hj => absurd hj (afterFault_ne_waiting _ _ job)
        admitted := fun job hj => absurd hj (afterFault_ne_admitted _ _ job) }
  | startReport => exact { hk with waiting := nofun, admitted := nofun }
  | startLeave => exact { hk with waiting := nofun, admitted := nofun }
  | list => exact { hk with lister := fun _ hl => nomatch hl }
  | listDone => exact { hk with lister := fun _ hl => nomatch hl }
  | listFailed => exact { hk with lister := fun _ hl => nomatch hl }
  | listReport => exact { hk with lister := fun _ hl => nomatch hl }
  | listLeave => exact { hk with lister := fun _ hl => nomatch hl }
  | move => exact { hk with mover := nofun }
  | moveDone => exact { hk with mover := nofun }
  | moveFailed => exact { hk with mover := nofun }
  | moveReport => exact { hk with mover := nofun }
  | moveLeave => exact { hk with mover := nofun }
  | _ => exact { hk with callers := issued_setCaller hk.callers trivial }

end GalvoWeld.Cell
