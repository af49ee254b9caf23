import GalvoWeld.Cell.Step
import GalvoWeld.Device.Card

/-!
# The history of a run

A run of a weld cell leaves a history: what its steps did, in their order. Statements about a run
are statements about its history and about the cell that it ends in; that one deed came after
another is said with sublists.
-/

namespace GalvoWeld.Cell

/-- What a step may do that is worth remembering. -/
inductive Deed where
  | began (caller : Nat) (call : Call)
  /-- A call returns. -/
  | ended (caller : Nat) (result : Except Fault Unit)
  | accepted (r : Request)
  /-- An accepted request arms the gate, in this generation. -/
  | armed (r : Request) (first : FigurePoint) (generation : UInt64)
  /-- The gate is reset. -/
  | reset
  | heightDone
  /-- The scanner forgets its seam, and the cell that one is requested. -/
  | cleared
  | listed (job : ListJob) (result : Except Fault Unit)
  | moved (job : MoveJob) (result : Except Fault Unit)
  | started (job : StartJob) (result : Except Fault Unit)
  | reported (event : Event)

variable {δ : Type} [Device δ]

/-! ### The deeds of a step -/

/-- What the first step of a call does. -/
def beginDeeds (c : Cell δ) (i : Nat) : Call → List Deed
  | .seamStart _ => [.reset]
  | .seamEnd => [.reset]
  | .stopMark => [.reset]
  | .heightDone => [.heightDone, .ended i (.ok ())]
  | .request r =>
    match r.figure.points with
    | [] => [.ended i (.error .noWeldFigure)]
    | _ :: _ =>
      match c.requested with
      | some seam => [.ended i (.error (.alreadyRequested seam))]
      | none => [.accepted r]
  | .shutdown => if c.joined then [.ended i (.ok ())] else []

def callerDeeds (c : Cell δ) (i : Nat) : List Deed :=
  match c.callers i with
  | .called call => beginDeeds c i call
  | .clearing => [.cleared, .ended i (.ok ())]
  | .stopping => [.ended i c.welder.stopMark.1]
  | .claimed r first => [.armed r first (c.gate.arm r.contourPrepared).generation]
  | .movePosted .. => [.ended i (.ok ())]
  | .joining => [.ended i (.ok ())]
  | _ => []

/-- The gate is reset by a result of this generation. -/
def settleDeeds (gate : Gate) (generation : UInt64) : Except Fault Unit → List Deed
  | .ok () => []
  | .error _ => if gate.generation = generation then [.reset] else []

theorem eq_reset_of_settle {gate : Gate} {generation : UInt64} {result : Except Fault Unit}
    {d : Deed} (hd : d ∈ settleDeeds gate generation result) : d = .reset := by
  cases result with
  | ok => cases hd
  | error fault =>
    simp only [settleDeeds] at hd
    split at hd
    · exact List.mem_singleton.1 hd
    · cases hd

/-- Nothing but a reset can come of a result. -/
theorem filterMap_settle {β : Type} {f : Deed → Option β} (hf : f .reset = none) (gate : Gate)
    (generation : UInt64) (result : Except Fault Unit) :
    (settleDeeds gate generation result).filterMap f = [] := by
  refine List.filterMap_eq_nil_iff.2 fun d hd => ?_
  rw [eq_reset_of_settle hd, hf]

def listerDeeds (c : Cell δ) : List Deed :=
  match c.lister with
  | .holding job => [.listed job (fillList c.welder job).1]
  | .finished generation _ result => settleDeeds c.gate generation result
  | .reporting event => [.reported event]
  | _ => []

def moverDeeds (c : Cell δ) : List Deed :=
  match c.mover with
  | .holding job => [.moved job (c.welder.moveTo job.target).1]
  | .finished generation _ result => settleDeeds c.gate generation result
  | .reporting event => [.reported event]
  | _ => []

def starterDeeds (c : Cell δ) : List Deed :=
  match c.starter with
  | .admitted job => [.started job c.welder.startMark.1]
  | .reporting event => [.reported event]
  | _ => []

def deeds (c : Cell δ) : Label → List Deed
  | .call i call => [.began i call]
  | .advance i => callerDeeds c i
  | .lister => listerDeeds c
  | .mover => moverDeeds c
  | .starter => starterDeeds c
  | .timeout => []

/-! ### Histories -/

/-- What the steps of a run do. -/
def history (c : Cell δ) : List Label → List Deed
  | [] => []
  | label :: rest => deeds c label ++ (step c label).elim [] fun next => history next rest

/-- A cell that has not done anything. -/
def idle (w : Welder δ) : Cell δ := { welder := w }

theorem run_append (c : Cell δ) (front back : List Label) :
    run c (front ++ back) = (run c front).bind fun mid => run mid back := by
  induction front generalizing c with
  | nil => rfl
  | cons label rest ih =>
    cases hs : step c label with
    | none => simp [run, hs]
    | some next => simp [run, hs, ih]

theorem run_through {c mid last : Cell δ} {front back : List Label}
    (hfront : run c front = some mid) (hback : run mid back = some last) :
    run c (front ++ back) = some last := by
  rw [run_append, hfront]
  exact hback

theorem history_append {c mid : Cell δ} {front : List Label} (hrun : run c front = some mid)
    (back : List Label) : history c (front ++ back) = history c front ++ history mid back := by
  induction front generalizing c with
  | nil =>
    obtain rfl : c = mid := by simpa [run] using hrun
    rfl
  | cons label rest ih =>
    obtain ⟨next, hs, hrest⟩ := Option.bind_eq_some_iff.1 hrun
    simp [history, hs, ih hrest]

theorem run_cons_eq_some {c last : Cell δ} {label : Label} {rest : List Label} :
    run c (label :: rest) = some last ↔ ∃ next, step c label = some next ∧
      run next rest = some last :=
  Option.bind_eq_some_iff

/-- What holds of a history and a cell, and is kept by every step with one of these labels, holds
after every run of them. -/
theorem run_induction {P : List Deed → Cell δ → Prop} {c last : Cell δ} {labels : List Label}
    {before : List Deed} (hrun : run c labels = some last) (hstart : P before c)
    (hstep : ∀ label ∈ labels, ∀ h d next, P h d → step d label = some next →
      P (h ++ deeds d label) next) :
    P (before ++ history c labels) last := by
  induction labels generalizing c before with
  | nil =>
    obtain rfl : c = last := by simpa [run] using hrun
    simpa [history] using hstart
  | cons label rest ih =>
    obtain ⟨next, hs, hrest⟩ := run_cons_eq_some.1 hrun
    have hnext : P (before ++ deeds c label) next :=
      hstep label (List.mem_cons_self ..) before c next hstart hs
    have hkeep : ∀ l ∈ rest, ∀ h d next, P h d → step d l = some next →
        P (h ++ deeds d l) next :=
      fun l hl => hstep l (List.mem_cons_of_mem _ hl)
    have hlast := ih hrest hnext hkeep
    simpa [history, hs] using hlast

/-- A deed of a run is a deed of one of its steps. -/
theorem history_split {c last : Cell δ} {labels : List Label} {before after : List Deed}
    {d : Deed} (hrun : run c labels = some last)
    (hsplit : history c labels = before ++ d :: after) :
    ∃ front label back mid ds es, labels = front ++ label :: back ∧ run c front = some mid ∧
      deeds mid label = ds ++ d :: es ∧ before = history c front ++ ds := by
  induction labels generalizing c before with
  | nil => simp [history] at hsplit
  | cons label rest ih =>
    obtain ⟨next, hs, hrest⟩ := run_cons_eq_some.1 hrun
    have hdeeds : deeds c label ++ history next rest = before ++ d :: after := by
      simpa [history, hs] using hsplit
    have hlater : ∀ early, before = deeds c label ++ early →
        history next rest = early ++ d :: after → ∃ front l back mid ds es,
          label :: rest = front ++ l :: back ∧ run c front = some mid ∧
          deeds mid l = ds ++ d :: es ∧ before = history c front ++ ds := by
      intro early hbefore hearly
      obtain ⟨front, l, back, mid, ds, es, hlabels, hfront, hmid, hhist⟩ := ih hrest hearly
      refine ⟨label :: front, l, back, mid, ds, es, ?_, ?_, hmid, ?_⟩
      · rw [hlabels, List.cons_append]
      · exact run_cons_eq_some.2 ⟨next, hs, hfront⟩
      · simp [history, hs, hbefore, hhist]
    -- the deed is one of those of the first step, or stands behind them
    rcases List.append_eq_append_iff.1 hdeeds with ⟨early, hbefore, hearly⟩ | ⟨es, hnow, hrec⟩
    · exact hlater early hbefore hearly
    · cases es with
      | nil =>
        refine hlater [] ?_ hrec.symm
        simpa using hnow.symm
      | cons e es =>
        obtain rfl : d = e := (List.cons.inj hrec).1
        exact ⟨[], label, rest, c, before, es, rfl, rfl, hnow, rfl⟩

/-! ### A cell on the bench

Runs that show that something does happen start here: a cell with a scanner card, and requests for
a seam of two points. -/

def benchPoint : FigurePoint := ⟨⟨0, 0⟩, 0.5, 0, 100⟩

def benchRequest (kind : RequestKind) (contourPrepared : Bool) : Request :=
  { kind
    data := {}
    figure := Figure.ofPoints [benchPoint, ⟨⟨1, 0⟩, 0.5, 0, 100⟩]
    wobbleFile := none
    contourPrepared }

def bench : Cell CardDevice := idle (Welder.create {} CardDevice.fresh ⟨[], []⟩)

/-- A caller begins a call and takes further steps of it. -/
def callSteps (i : Nat) (call : Call) (steps : Nat) : List Label :=
  .call i call :: List.replicate steps (.advance i)

end GalvoWeld.Cell
