import GalvoWeld.Proofs.Cell.Charges
import GalvoWeld.Proofs.Gate.Histories

/-!
# What is announced when a weld is

A worker tells the gate first that its task is done, and reports it afterwards. The starter may come
in between: it passes the gate as soon as the last task is known there, and its own report overtakes
those of the others. What is sure when a weld is announced is that the list and the move of its
request were done and announced, except where the worker has the event in its hand.
-/

namespace GalvoWeld.Cell

variable {δ : Type}

/-! ### Tasks that the gate knows of -/

/-- The tasks of this request were done, and are announced or about to be. -/
structure Primed (h : List Deed) (c : Cell δ) (r : Request) (f : FigurePoint) (g : UInt64) :
    Prop where
  armed : .armed r f g ∈ h
  list : r.contourPrepared = true ∨ listDesk.Settled h c.lister (r.listJob g)
  move : moveDesk.Settled h c.mover (r.moveJob f g)

/-- The start job of a request whose tasks were done. -/
def StartJob.Primed (h : List Deed) (c : Cell δ) (job : StartJob) : Prop :=
  ∃ r f, job = r.startJob job.generation ∧ Cell.Primed h c r f job.generation

/-- The tasks that the gate knows of and those that a start was waiting for were done, and are
announced or about to be. -/
structure Announced (h : List Deed) (c : Cell δ) : Prop where
  list : c.gate.noted .list = true → ∃ r f, .armed r f c.gate.generation ∈ h ∧
    listDesk.Settled h c.lister (r.listJob c.gate.generation)
  move : c.gate.noted .move = true → ∃ r f, .armed r f c.gate.generation ∈ h ∧
    moveDesk.Settled h c.mover (r.moveJob f c.gate.generation)
  admitted : ∀ job, c.starter = .admitted job → job.Primed h c
  started : ∀ job result, .started job result ∈ h → job.Primed h c

theorem Announced.start (w : Welder δ) : Announced [] (idle w) where
  list := nofun
  move := nofun
  admitted := nofun
  started _ _ hm := absurd hm List.not_mem_nil

section
variable [Device δ] {h ds : List Deed} {label : Label} {c next : Cell δ}

theorem Primed.act {r : Request} {f : FigurePoint} {g : UInt64} (hp : Primed h c r f g)
    (ht : Tidy h c) (ha : Act c label ds next) : Primed (h ++ ds) next r f g where
  armed := List.mem_append_left _ hp.armed
  list := hp.list.imp_right fun hs => hs.turn (ha.turn_lister ht)
  move := hp.move.turn (ha.turn_mover ht)

theorem StartJob.Primed.act {job : StartJob} (hp : job.Primed h c) (ht : Tidy h c)
    (ha : Act c label ds next) : job.Primed (h ++ ds) next := by
  obtain ⟨r, f, hjob, hprimed⟩ := hp
  exact ⟨r, f, hjob, hprimed.act ht ha⟩

/-! ### How the gate learns of a task -/

/-- The gate learns of a list from the lister only, and of a move from the mover only. -/
theorem Act.notes {task : Gate.Task} (ha : Act c label ds next) (hn : next.gate.noted task = true)
    (htask : task = .list ∨ task = .move) :
    (c.gate.noted task = true ∧ next.gate.generation = c.gate.generation) ∨
      (task = .list ∧ ds = [] ∧ ∃ seam, next.lister = .reporting (.listBuilt seam) ∧
        c.lister = .finished next.gate.generation seam (.ok ())) ∨
      (task = .move ∧ ds = [] ∧ ∃ seam, next.mover = .reporting (.scannerMoved seam) ∧
        c.mover = .finished next.gate.generation seam (.ok ())) := by
  cases ha with
  | giveUp | arm => rcases htask with rfl | rfl <;> cases hn
  | heightDone | cancel => rcases htask with rfl | rfl <;> exact .inl ⟨hn, rfl⟩
  | previewHeight =>
    rcases Gate.noted_completeIn hn with hold | ⟨-, rfl⟩
    · exact .inl ⟨hold, Gate.generation_completeIn ..⟩
    · rcases htask with hother | hother <;> cases hother
  | listDone hl =>
    rcases Gate.noted_completeIn hn with hold | ⟨hg, rfl⟩
    · exact .inl ⟨hold, Gate.generation_completeIn ..⟩
    · exact .inr (.inl ⟨rfl, rfl, _, rfl, by rw [Gate.generation_completeIn, hg, hl]⟩)
  | moveDone hm =>
    rcases Gate.noted_completeIn hn with hold | ⟨hg, rfl⟩
    · exact .inl ⟨hold, Gate.generation_completeIn ..⟩
    · exact .inr (.inr ⟨rfl, rfl, _, rfl, by rw [Gate.generation_completeIn, hg, hm]⟩)
  | listFailed | moveFailed =>
    have hsame := Gate.resetIn_of_noted hn
    rw [hsame] at hn
    exact .inl ⟨hn, by rw [hsame]⟩
  | _ => exact .inl ⟨hn, rfl⟩

/-- A starter past the gate was there already, or comes from the gate. -/
theorem Act.admits {job : StartJob} (ha : Act c label ds next) (hs : next.starter = .admitted job) :
    c.starter = .admitted job ∨
      (c.starter = .waiting job ∧ c.gate.generation = job.generation ∧ c.gate.isReady = true ∧
        next = { c with starter := .admitted job } ∧ ds = []) := by
  cases ha with
  | startFetch | startLeave | startReport => cases hs
  | @pass job' hw _ ho =>
    obtain rfl := Starter.admitted.inj hs
    obtain ⟨-, hg, hready⟩ := (Gate.outcome_eq_ok_iff ..).1 ho
    exact .inr ⟨hw, hg, hready, rfl, rfl⟩
  | turnBack | giveIn => exact absurd hs (afterFault_ne_admitted _ _ job)
  | start =>
    cases hr : c.welder.startMark.1 with
    | ok => simp [hr] at hs
    | error fault =>
      simp only [hr] at hs
      exact absurd hs (afterFault_ne_admitted _ _ job)
  | _ => exact .inl hs

/-! ### What every act keeps -/

/-- A worker that tells the gate of its job has the event in its hand. -/
theorem Desk.Account.settled {α : Type} {k : Desk α} {hand : Hand α} {g : UInt64} {seam : Nat}
    (ha : k.Account h hand) (hold : hand = .finished g seam (.ok ())) {hand' : Hand α}
    (hnew : hand' = .reporting (k.success seam)) :
    ∃ r f, .armed r f g ∈ h ∧ k.Settled h hand' (k.mine r f g) := by
  obtain ⟨job, hfresh, ⟨r, f, hm, hjob⟩, rfl, rfl⟩ := ha.finished g seam hold
  exact ⟨r, f, hm, .inr (hjob ▸ ⟨hfresh, hnew⟩)⟩

omit [Device δ] in
/-- A gate that lets somebody through speaks of the request that armed it. -/
theorem Announced.primed (hp : Announced h c) (hv : Vouched h c)
    (hr : (generations h).Pairwise (· < ·)) (hready : c.gate.isReady = true) {r : Request}
    {f : FigurePoint} (hm : .armed r f c.gate.generation ∈ h) :
    Primed h c r f c.gate.generation := by
  obtain ⟨harmed, -, hlist, hmove⟩ := (Gate.isReady_iff c.gate).1 hready
  refine ⟨hm, ?_, ?_⟩
  · rcases hlist with hdone | hprepared
    · obtain ⟨r', f', hm', hs⟩ := hp.list hdone
      obtain ⟨rfl, rfl⟩ := armed_unique hr hm hm'
      exact .inr hs
    · obtain ⟨r', f', hf⟩ := hv.gate harmed
      obtain ⟨rfl, rfl⟩ := armed_unique hr hm hf.armed
      exact .inl (hf.prepared hprepared)
  · obtain ⟨r', f', hm', hs⟩ := hp.move hmove
    obtain ⟨rfl, rfl⟩ := armed_unique hr hm hm'
    exact hs

theorem Announced.act (hp : Announced h c) (hi : Issued h c) (hv : Vouched h c) (ht : Tidy h c)
    (hr : (generations h).Pairwise (· < ·)) (ha : Act c label ds next) :
    Announced (h ++ ds) next where
  list hn := by
    rcases ha.notes hn (.inl rfl) with ⟨hold, hg⟩ | ⟨-, rfl, seam, hnew, hl⟩ | ⟨hother, -⟩
    · obtain ⟨r, f, hm, hs⟩ := hp.list hold
      rw [hg]
      exact ⟨r, f, List.mem_append_left _ hm, hs.turn (ha.turn_lister ht)⟩
    · rw [List.append_nil]
      exact ht.lister.settled hl hnew
    · cases hother
  move hn := by
    rcases ha.notes hn (.inr rfl) with ⟨hold, hg⟩ | ⟨hother, -⟩ | ⟨-, rfl, seam, hnew, hl⟩
    · obtain ⟨r, f, hm, hs⟩ := hp.move hold
      rw [hg]
      exact ⟨r, f, List.mem_append_left _ hm, hs.turn (ha.turn_mover ht)⟩
    · cases hother
    · rw [List.append_nil]
      exact ht.mover.settled hl hnew
  admitted job hs := by
    rcases ha.admits hs with hold | ⟨hw, hg, hready, rfl, rfl⟩
    · exact (hp.admitted job hold).act ht ha
    · obtain ⟨r, f, hm, hjob⟩ := hi.waiting job hw
      have hprimed := hp.primed hv hr hready (hg ▸ hm)
      rw [hg] at hprimed
      rw [List.append_nil]
      exact ⟨r, f, hjob, { hprimed with }⟩
  started job result hm := by
    rcases List.mem_append.1 hm with hold | hnew
    · exact (hp.started job result hold).act ht ha
    · exact (hp.admitted job (ha.started hnew).2.1).act ht ha

/-! ### The report of a start -/

/-- What is known of the reports of a run with few restarts. -/
structure Recorded (h : List Deed) (c : Cell δ) : Prop where
  issued : Issued h c
  vouched : Vouched h c
  tidy : Tidy h c
  single : Single h c
  announced : Announced h c

end

section
variable [Device δ] {w : Welder δ} {labels : List Label} {c : Cell δ}

theorem recorded_of_run (hrun : run (idle w) labels = some c)
    (few : restarts (history (idle w) labels) < UInt64.size) :
    Recorded (history (idle w) labels) c := by
  have hlast := run_counted (P := Recorded) hrun Counted.start few
    ⟨Issued.start w, Vouched.start w, Tidy.start w, Single.start w, Announced.start w⟩ ?_
  · exact hlast.2
  · intro label _ h d ds e hc hfew hd ha
    exact {
      issued := hd.issued.act ha
      vouched := hd.vouched.act hd.issued hc.rising ha
      tidy := hd.tidy.act hd.issued ha
      single := hd.single.act (hc.act ha hfew).rising ha
      announced := hd.announced.act hd.issued hd.vouched hd.tidy hc.rising ha }

/-- A start is reported for a request that armed the gate, right behind its start job. Its move was
announced by then if and only if the mover does not have the event in its hand, and so was its list
unless it uses that of an earlier seam. -/
theorem announced_before_start {before after : List Deed} {seam : Nat}
    (hrun : run (idle w) labels = some c)
    (few : restarts (history (idle w) labels) < UInt64.size)
    (hsplit : history (idle w) labels = before ++ .reported (.weldingStarted seam) :: after) :
    ∃ front back mid r f g, labels = front ++ .starter :: back ∧
      run (idle w) front = some mid ∧ history (idle w) front = before ∧
      mid.events = reportedIn before ∧
      .armed r f g ∈ before ∧ seam = r.data.seam ∧ startDesk.Fresh before (r.startJob g) ∧
      (r.contourPrepared = false →
        (listDesk.Told before (r.listJob g) ↔
          ¬ listDesk.Held before mid.lister (r.listJob g))) ∧
      (moveDesk.Told before (r.moveJob f g) ↔
        ¬ moveDesk.Held before mid.mover (r.moveJob f g)) := by
  obtain ⟨front, label, back, mid, next, rfl, hfront, -, hact, -, rfl, -⟩ :=
    run_split_alone hrun hsplit fun ha hm => (ha.reports hm).1
  have hfew : restarts (history (idle w) front) < UInt64.size := by
    rw [hsplit, restarts_append] at few
    omega
  have hrec := recorded_of_run hfront hfew
  obtain ⟨rfl, job, hfresh, hseam⟩ := hact.announces hrec.tidy (List.mem_singleton_self _)
  obtain ⟨r, f, hjob, hprimed⟩ := hrec.announced.started job _ hfresh.mem
  have hown : seam = r.data.seam := by
    rw [hseam, hjob]
    rfl
  refine ⟨front, back, mid, r, f, job.generation, rfl, hfront, rfl, events_of_run hfront,
    hprimed.armed, hown, hjob ▸ hfresh, fun hnew => ?_, ?_⟩
  · have hsettled := hprimed.list.resolve_left (by simp [hnew])
    exact ⟨hrec.single.list.not_held, fun hfree => hsettled.resolve_right hfree⟩
  · exact ⟨hrec.single.move.not_held, fun hfree => hprimed.move.resolve_right hfree⟩

end

/-- On the bench: the lister reports before the weld is started, and the mover has yet to. -/
def benchOvertaking : List Label := benchAdmission ++ [.lister, .starter, .starter]

def benchOvertakenDeeds : List Deed :=
  benchDeeds ++ [.reported (.listBuilt 0), .started ⟨1, 0⟩ (.ok ())]

/-- On the bench the start is announced between the list and the move. -/
theorem bench_start_announced :
    history bench benchOvertaking =
      benchOvertakenDeeds ++ .reported (.weldingStarted 0) :: [] ∧
    ∃ front back mid r f g, benchOvertaking = front ++ .starter :: back ∧
      run bench front = some mid ∧ history bench front = benchOvertakenDeeds ∧
      mid.events = reportedIn benchOvertakenDeeds ∧
      .armed r f g ∈ benchOvertakenDeeds ∧ 0 = r.data.seam ∧
      startDesk.Fresh benchOvertakenDeeds (r.startJob g) ∧
      (r.contourPrepared = false →
        (listDesk.Told benchOvertakenDeeds (r.listJob g) ↔
          ¬ listDesk.Held benchOvertakenDeeds mid.lister (r.listJob g))) ∧
      (moveDesk.Told benchOvertakenDeeds (r.moveJob f g) ↔
        ¬ moveDesk.Held benchOvertakenDeeds mid.mover (r.moveJob f g)) := by
  obtain ⟨c, hrun⟩ : ∃ c, run bench benchOvertaking = some c := Option.isSome_iff_exists.1 rfl
  have few : restarts (history bench benchOvertaking) < UInt64.size := by decide +kernel
  have hsplit : history bench benchOvertaking =
      benchOvertakenDeeds ++ .reported (.weldingStarted 0) :: [] := rfl
  exact ⟨hsplit, announced_before_start hrun few hsplit⟩

/-- It is not so that list and move are announced before the start: on the bench the starter passes
the gate and announces the weld while both workers have their events in their hands. -/
theorem start_announced_first :
    ¬ ∀ (labels : List Label) (c : Cell CardDevice) (before after : List Deed) (r : Request)
      (f : FigurePoint) (g : UInt64), run bench labels = some c →
      history bench labels = before ++ .reported (.weldingStarted r.data.seam) :: after →
      .accepted r ∈ before → .armed r f g ∈ before → startDesk.Fresh before (r.startJob g) →
      r.contourPrepared = false →
      .reported (.listBuilt r.data.seam) ∈ before ∧
        .reported (.scannerMoved r.data.seam) ∈ before := by
  intro hall
  obtain ⟨c, hrun⟩ : ∃ c, run bench (benchAdmission ++ [.starter, .starter]) = some c :=
    Option.isSome_iff_exists.1 rfl
  have hsplit : history bench (benchAdmission ++ [.starter, .starter]) =
      (benchDeeds ++ [.started ⟨1, 0⟩ (.ok ())]) ++ .reported (.weldingStarted 0) :: [] := rfl
  obtain ⟨hlist, -⟩ := hall _ c _ _ (benchRequest .weld false) benchPoint 1 hrun hsplit
    (by simp [benchDeeds]) (by simp [benchDeeds]) (startDesk.fresh_now ..) rfl
  simp [benchDeeds] at hlist

end GalvoWeld.Cell
