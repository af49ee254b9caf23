import GalvoWeld.Proofs.Cell.History
import GalvoWeld.Proofs.Gate.Readiness

/-!
# The acts of a weld cell

The steps of a cell once more, as a relation with one case for each thing that a caller or worker
can do: when it is possible, what is remembered of it, and the cell after it. What a run keeps is
proved act by act, and no other proof looks into the step function.
-/

namespace GalvoWeld.Cell

variable {δ : Type} [Device δ]

/-- Where a call goes on that resets the gate first: the calls by which a seam is given up. -/
def Call.afterReset? : Call → Option Caller
  | .seamStart _ => some .clearing
  | .seamEnd => some .clearing
  | .stopMark => some .stopping
  | _ => none

/-- What the steps of a cell are. -/
inductive Act (c : Cell δ) : Label → List Deed → Cell δ → Prop where
  | call {i call result} (hi : c.callers i = .returned result) :
    Act c (.call i call) [.began i call] (setCaller c i (.called call))
  | giveUp {i call place} (hi : c.callers i = .called call) (hc : call.afterReset? = some place) :
    Act c (.advance i) [.reset] (setCaller { c with gate := c.gate.reset } i place)
  | heightDone {i} (hi : c.callers i = .called .heightDone) :
    Act c (.advance i) [.heightDone, .ended i (.ok ())]
      (setCaller { c with gate := c.gate.complete .height } i (.returned (.ok ())))
  | refuseEmpty {i r} (hi : c.callers i = .called (.request r)) (hp : r.figure.points = []) :
    Act c (.advance i) [.ended i (.error .noWeldFigure)]
      (setCaller c i (.returned (.error .noWeldFigure)))
  | refuseSecond {i r seam} (hi : c.callers i = .called (.request r))
      (hp : r.figure.points ≠ []) (hn : c.requested = some seam) :
    Act c (.advance i) [.ended i (.error (.alreadyRequested seam))]
      (setCaller c i (.returned (.error (.alreadyRequested seam))))
  | accept {i r first rest} (hi : c.callers i = .called (.request r))
      (hp : r.figure.points = first :: rest) (hn : c.requested = none) :
    Act c (.advance i) [.accepted r]
      (setCaller { c with requested := some r.data.seam } i (.claimed r first))
  | shutAgain {i} (hi : c.callers i = .called .shutdown) (hj : c.joined = true) :
    Act c (.advance i) [.ended i (.ok ())] (setCaller c i (.returned (.ok ())))
  | closeList {i} (hi : c.callers i = .called .shutdown) (hj : c.joined = false) :
    Act c (.advance i) [] (setCaller { c with listSlot := c.listSlot.close } i .closedList)
  | clear {i} (hi : c.callers i = .clearing) :
    Act c (.advance i) [.cleared, .ended i (.ok ())]
      (setCaller { c with welder := c.welder.resetSeam, requested := none } i (.returned (.ok ())))
  | stop {i} (hi : c.callers i = .stopping) :
    Act c (.advance i) [.ended i c.welder.stopMark.1]
      (setCaller { c with welder := c.welder.stopMark.2 } i (.returned c.welder.stopMark.1))
  | arm {i r first} (hi : c.callers i = .claimed r first) :
    Act c (.advance i) [.armed r first (c.gate.arm r.contourPrepared).generation]
      (setCaller { c with gate := c.gate.arm r.contourPrepared } i
        (.armed r first (c.gate.arm r.contourPrepared).generation))
  | previewHeight {i r first g} (hi : c.callers i = .armed r first g) (hk : r.kind = .preview) :
    Act c (.advance i) []
      (setCaller { c with gate := (c.gate.completeIn g .height).2 } i (.heightSettled r first g))
  | weldHeight {i r first g} (hi : c.callers i = .armed r first g) (hk : r.kind = .weld) :
    Act c (.advance i) [] (setCaller c i (.heightSettled r first g))
  | keepList {i r first g} (hi : c.callers i = .heightSettled r first g)
      (hp : r.contourPrepared = true) :
    Act c (.advance i) [] (setCaller c i (.listPosted r first g))
  | postList {i r first g} (hi : c.callers i = .heightSettled r first g)
      (hp : r.contourPrepared = false) :
    Act c (.advance i) []
      (setCaller { c with listSlot := c.listSlot.post (r.listJob g) } i (.listPosted r first g))
  | postMove {i r first g} (hi : c.callers i = .listPosted r first g) :
    Act c (.advance i) []
      (setCaller { c with moveSlot := c.moveSlot.post (r.moveJob first g) } i (.movePosted r g))
  | postStart {i r g} (hi : c.callers i = .movePosted r g) :
    Act c (.advance i) [.ended i (.ok ())]
      (setCaller { c with startSlot := c.startSlot.post (r.startJob g) } i (.returned (.ok ())))
  | closeMove {i} (hi : c.callers i = .closedList) :
    Act c (.advance i) [] (setCaller { c with moveSlot := c.moveSlot.close } i .closedMove)
  | closeStart {i} (hi : c.callers i = .closedMove) :
    Act c (.advance i) [] (setCaller { c with startSlot := c.startSlot.close } i .closedStart)
  | cancel {i} (hi : c.callers i = .closedStart) :
    Act c (.advance i) [] (setCaller { c with gate := c.gate.cancel } i .joining)
  | join {i} (hi : c.callers i = .joining) (hg : allGone c = true) :
    Act c (.advance i) [.ended i (.ok ())] (setCaller { c with joined := true } i
      (.returned (.ok ())))
  | listFetch {job} (hl : c.lister = .parked) (hc : c.listSlot.closed = false)
      (hj : c.listSlot.job = some job) :
    Act c .lister []
      { c with lister := .holding job, listSlot := { c.listSlot with job := none } }
  | listLeave (hl : c.lister = .parked) (hc : c.listSlot.closed = true) :
    Act c .lister [] { c with lister := .gone }
  | list {job} (hl : c.lister = .holding job) :
    Act c .lister [.listed job (fillList c.welder job).1]
      { c with welder := (fillList c.welder job).2
               lister := .finished job.generation job.data.seam (fillList c.welder job).1 }
  | listDone {g seam} (hl : c.lister = .finished g seam (.ok ())) :
    Act c .lister []
      { c with gate := (c.gate.completeIn g .list).2, lister := .reporting (.listBuilt seam) }
  | listFailed {g seam fault} (hl : c.lister = .finished g seam (.error fault)) :
    Act c .lister (settleDeeds c.gate g (.error fault))
      { c with gate := c.gate.resetIn g, lister := .reporting (.fatal seam fault) }
  | listReport {event} (hl : c.lister = .reporting event) :
    Act c .lister [.reported event] { c with events := c.events ++ [event], lister := .parked }
  | moveFetch {job} (hm : c.mover = .parked) (hc : c.moveSlot.closed = false)
      (hj : c.moveSlot.job = some job) :
    Act c .mover []
      { c with mover := .holding job, moveSlot := { c.moveSlot with job := none } }
  | moveLeave (hm : c.mover = .parked) (hc : c.moveSlot.closed = true) :
    Act c .mover [] { c with mover := .gone }
  | move {job} (hm : c.mover = .holding job) :
    Act c .mover [.moved job (c.welder.moveTo job.target).1]
      { c with welder := (c.welder.moveTo job.target).2
               mover := .finished job.generation job.seam (c.welder.moveTo job.target).1 }
  | moveDone {g seam} (hm : c.mover = .finished g seam (.ok ())) :
    Act c .mover []
      { c with gate := (c.gate.completeIn g .move).2, mover := .reporting (.scannerMoved seam) }
  | moveFailed {g seam fault} (hm : c.mover = .finished g seam (.error fault)) :
    Act c .mover (settleDeeds c.gate g (.error fault))
      { c with gate := c.gate.resetIn g, mover := .reporting (.fatal seam fault) }
  | moveReport {event} (hm : c.mover = .reporting event) :
    Act c .mover [.reported event] { c with events := c.events ++ [event], mover := .parked }
  | startFetch {job} (hs : c.starter = .parked) (hc : c.startSlot.closed = false)
      (hj : c.startSlot.job = some job) :
    Act c .starter []
      { c with starter := .waiting job, startSlot := { c.startSlot with job := none } }
  | startLeave (hs : c.starter = .parked) (hc : c.startSlot.closed = true) :
    Act c .starter [] { c with starter := .gone }
  | pass {job} (hs : c.starter = .waiting job) (hg : c.gate.holds job.generation = false)
      (ho : c.gate.outcome job.generation c.welder.seam.config.gateTimeoutMs = .ok ()) :
    Act c .starter [] { c with starter := .admitted job }
  | turnBack {job fault} (hs : c.starter = .waiting job) (hg : c.gate.holds job.generation = false)
      (ho : c.gate.outcome job.generation c.welder.seam.config.gateTimeoutMs = .error fault) :
    Act c .starter [] { c with starter := afterFault job.seam fault }
  | giveIn {job fault} (hs : c.starter = .waiting job) (hg : c.gate.holds job.generation = true)
      (ho : c.gate.outcome job.generation c.welder.seam.config.gateTimeoutMs = .error fault) :
    Act c .timeout [] { c with starter := afterFault job.seam fault }
  | start {job} (hs : c.starter = .admitted job) :
    Act c .starter [.started job c.welder.startMark.1]
      { c with welder := c.welder.startMark.2
               starter := match c.welder.startMark.1 with
                 | .ok () => .reporting (.weldingStarted job.seam)
                 | .error fault => afterFault job.seam fault }
  | startReport {event} (hs : c.starter = .reporting event) :
    Act c .starter [.reported event] { c with events := c.events ++ [event], starter := .parked }

/-! ### Every step is an act -/

variable {c next : Cell δ}

theorem act_of_beginCall {i : Nat} {call : Call} (hi : c.callers i = .called call) :
    Act c (.advance i) (beginDeeds c i call) (beginCall c i call) := by
  cases call with
  | seamStart seam => exact .giveUp hi rfl
  | seamEnd => exact .giveUp hi rfl
  | stopMark => exact .giveUp hi rfl
  | heightDone => exact .heightDone hi
  | request r =>
    simp only [beginDeeds, beginCall]
    cases hp : r.figure.points with
    | nil => exact .refuseEmpty hi hp
    | cons first rest =>
      cases hn : c.requested with
      | none => exact .accept hi hp hn
      | some seam => exact .refuseSecond hi (by simp [hp]) hn
  | shutdown =>
    by_cases hj : c.joined = true
    · simp only [beginDeeds, beginCall, if_pos hj]
      exact .shutAgain hi hj
    · simp only [beginDeeds, beginCall, if_neg hj]
      exact .closeList hi (by simpa using hj)

theorem act_of_advance {i : Nat} (hs : advance? c i = some next) :
    Act c (.advance i) (callerDeeds c i) next := by
  unfold advance? at hs
  unfold callerDeeds
  cases hi : c.callers i with
  | returned result => simp [hi] at hs
  | called call =>
    obtain rfl := Option.some.inj (hi ▸ hs)
    exact act_of_beginCall hi
  | clearing =>
    obtain rfl := Option.some.inj (hi ▸ hs)
    exact .clear hi
  | stopping =>
    obtain rfl := Option.some.inj (hi ▸ hs)
    exact .stop hi
  | claimed r first =>
    obtain rfl := Option.some.inj (hi ▸ hs)
    exact .arm hi
  | armed r first g =>
    obtain rfl := Option.some.inj (hi ▸ hs)
    cases hk : r.kind with
    | preview => simpa [hk] using Act.previewHeight hi hk
    | weld => simpa [hk] using Act.weldHeight hi hk
  | heightSettled r first g =>
    obtain rfl := Option.some.inj (hi ▸ hs)
    cases hp : r.contourPrepared with
    | true => simpa [hp] using Act.keepList hi hp
    | false => simpa [hp] using Act.postList hi hp
  | listPosted r first g =>
    obtain rfl := Option.some.inj (hi ▸ hs)
    exact .postMove hi
  | movePosted r g =>
    obtain rfl := Option.some.inj (hi ▸ hs)
    exact .postStart hi
  | closedList =>
    obtain rfl := Option.some.inj (hi ▸ hs)
    exact .closeMove hi
  | closedMove =>
    obtain rfl := Option.some.inj (hi ▸ hs)
    exact .closeStart hi
  | closedStart =>
    obtain rfl := Option.some.inj (hi ▸ hs)
    exact .cancel hi
  | joining =>
    simp only [hi] at hs
    split at hs
    · next hg =>
      obtain rfl := Option.some.inj hs
      exact .join hi hg
    · cases hs

theorem act_of_listerStep (hs : listerStep? c = some next) :
    Act c .lister (listerDeeds c) next := by
  unfold listerStep? at hs
  unfold listerDeeds
  cases hl : c.lister with
  | parked =>
    simp only [hl, fetch?] at hs
    split at hs
    · next hc =>
      obtain rfl := Option.some.inj hs
      exact .listLeave hl hc
    · next hc =>
      cases hj : c.listSlot.job with
      | none => simp [hj] at hs
      | some job =>
        obtain rfl := Option.some.inj (hj ▸ hs)
        exact .listFetch hl (by simpa using hc) hj
  | holding job =>
    obtain rfl := Option.some.inj (hl ▸ hs)
    exact .list hl
  | finished g seam result =>
    obtain rfl := Option.some.inj (hl ▸ hs)
    cases result with
    | ok => exact .listDone hl
    | error fault => exact .listFailed hl
  | reporting event =>
    obtain rfl := Option.some.inj (hl ▸ hs)
    exact .listReport hl
  | gone => simp [hl] at hs

theorem act_of_moverStep (hs : moverStep? c = some next) : Act c .mover (moverDeeds c) next := by
  unfold moverStep? at hs
  unfold moverDeeds
  cases hm : c.mover with
  | parked =>
    simp only [hm, fetch?] at hs
    split at hs
    · next hc =>
      obtain rfl := Option.some.inj hs
      exact .moveLeave hm hc
    · next hc =>
      cases hj : c.moveSlot.job with
      | none => simp [hj] at hs
      | some job =>
        obtain rfl := Option.some.inj (hj ▸ hs)
        exact .moveFetch hm (by simpa using hc) hj
  | holding job =>
    obtain rfl := Option.some.inj (hm ▸ hs)
    exact .move hm
  | finished g seam result =>
    obtain rfl := Option.some.inj (hm ▸ hs)
    cases result with
    | ok => exact .moveDone hm
    | error fault => exact .moveFailed hm
  | reporting event =>
    obtain rfl := Option.some.inj (hm ▸ hs)
    exact .moveReport hm
  | gone => simp [hm] at hs

theorem act_of_starterStep (hs : starterStep? c = some next) :
    Act c .starter (starterDeeds c) next := by
  unfold starterStep? at hs
  unfold starterDeeds
  cases ht : c.starter with
  | parked =>
    simp only [ht] at hs
    split at hs
    · next hc =>
      obtain rfl := Option.some.inj hs
      exact .startLeave ht hc
    · next hc =>
      cases hj : c.startSlot.job with
      | none => simp [hj] at hs
      | some job =>
        obtain rfl := Option.some.inj (hj ▸ hs)
        exact .startFetch ht (by simpa using hc) hj
  | waiting job =>
    simp only [ht] at hs
    split at hs
    · cases hs
    · next hg =>
      obtain rfl := Option.some.inj hs
      have hfree : c.gate.holds job.generation = false := by simpa using hg
      simp only [leaveGate]
      cases ho : c.gate.outcome job.generation c.welder.seam.config.gateTimeoutMs with
      | ok => exact .pass ht hfree ho
      | error fault => exact .turnBack ht hfree ho
  | admitted job =>
    obtain rfl := Option.some.inj (ht ▸ hs)
    exact .start ht
  | reporting event =>
    obtain rfl := Option.some.inj (ht ▸ hs)
    exact .startReport ht
  | gone => simp [ht] at hs

theorem act_of_timeoutStep (hs : timeoutStep? c = some next) : Act c .timeout [] next := by
  unfold timeoutStep? at hs
  cases ht : c.starter with
  | waiting job =>
    simp only [ht] at hs
    split at hs
    · next hg =>
      obtain rfl := Option.some.inj hs
      obtain ⟨fault, ho⟩ := Gate.outcome_of_holds hg c.welder.seam.config.gateTimeoutMs
      simp only [leaveGate, ho]
      exact .giveIn ht hg ho
    · cases hs
  | parked => simp [ht] at hs
  | admitted job => simp [ht] at hs
  | reporting event => simp [ht] at hs
  | gone => simp [ht] at hs

/-- Every step is an act, and its deeds are those of the step. -/
theorem act_of_step {label : Label} (hs : step c label = some next) :
    Act c label (deeds c label) next := by
  cases label with
  | call i call =>
    simp only [step] at hs
    split at hs
    · next result hi =>
      obtain rfl := Option.some.inj hs
      exact .call hi
    · cases hs
  | advance i => exact act_of_advance hs
  | lister => exact act_of_listerStep hs
  | mover => exact act_of_moverStep hs
  | starter => exact act_of_starterStep hs
  | timeout => exact act_of_timeoutStep hs

/-- What holds at the beginning and is kept by every act holds after every run. -/
theorem run_invariant {P : List Deed → Cell δ → Prop} {start last : Cell δ} {labels : List Label}
    {before : List Deed} (hrun : run start labels = some last) (hstart : P before start)
    (hact : ∀ label ∈ labels, ∀ h d ds e, P h d → Act d label ds e → P (h ++ ds) e) :
    P (before ++ history start labels) last := by
  have hkeep : ∀ label ∈ labels, ∀ h d e, P h d → step d label = some e →
      P (h ++ deeds d label) e :=
    fun label hl h d e hd hs => hact label hl h d _ e hd (act_of_step hs)
  exact run_induction hrun hstart hkeep

end GalvoWeld.Cell
