import Mathlib
import GalvoWeld.Proofs.Gate.Readiness

/-!
# Readiness from the history of the gate

What was asked of a gate decides whether it is ready and what waiting at it ends with. Here both are
read off the operations alone. An operation counts or not by the generation it meets, and the
generation is the number of restarts before it, modulo `2^64`.
-/

namespace GalvoWeld.Gate

/-! ### Operations -/

inductive Operation where
  | arm (contourPrepared : Bool)
  | complete (task : Task)
  | completeIn (generation : UInt64) (task : Task)
  | reset
  | resetIn (generation : UInt64)
  | cancel
deriving DecidableEq, Repr

def apply (gate : Gate) : Operation → Gate
  | .arm contourPrepared => gate.arm contourPrepared
  | .complete task => gate.complete task
  | .completeIn generation task => (gate.completeIn generation task).2
  | .reset => gate.reset
  | .resetIn generation => gate.resetIn generation
  | .cancel => gate.cancel

/-- A new gate after these operations. -/
def after (ops : List Operation) : Gate := ops.foldl apply {}

/-! ### What counts -/

namespace Operation

/-- Does this begin a new generation where the present one is `current`? -/
def restarts (op : Operation) (current : UInt64) : Bool :=
  match op with
  | .arm _ => true
  | .reset => true
  | .resetIn generation => current = generation
  | _ => false

/-- Is this a completion of the task that counts where the present generation is `current`? -/
def completes (op : Operation) (task : Task) (current : UInt64) : Bool :=
  match op with
  | .complete done => done = task
  | .completeIn generation done => current = generation ∧ done = task
  | _ => false

end Operation

/-- The number of restarts in a history. -/
def restartCount (ops : List Operation) : Nat :=
  ops.foldl (fun n op => if op.restarts (UInt64.ofNat n) then n + 1 else n) 0

/-- The generation that a history leads to. -/
def current (ops : List Operation) : UInt64 := UInt64.ofNat (restartCount ops)

/-- After `before`, something in `since` counts as this when its turn comes. -/
def Occurs (counts : Operation → UInt64 → Bool) (before since : List Operation) : Prop :=
  ∃ front op back, since = front ++ op :: back ∧ counts op (current (before ++ front)) = true

/-- The last restart is an arm: what was before it, whether its contour was prepared, and what
came since. -/
structure LastArm (ops before : List Operation) (prepared : Bool) (since : List Operation) :
    Prop where
  split : ops = before ++ .arm prepared :: since
  quiet : ¬ Occurs Operation.restarts (before ++ [.arm prepared]) since

/-- The task was done since the arm. -/
def Done (before : List Operation) (prepared : Bool) (since : List Operation) (task : Task) :
    Prop :=
  Occurs (fun op current => op.completes task current) (before ++ [.arm prepared]) since

/-- A list is there: an earlier one, or one that was done since the arm. -/
def Listed (before : List Operation) (prepared : Bool) (since : List Operation) : Prop :=
  prepared = true ∨ Done before prepared since .list ∨ Done before prepared since .contourPrepared

/-- Everything was done since the last restart, which is an arm. -/
def WasReady (ops : List Operation) : Prop :=
  ∃ before prepared since, LastArm ops before prepared since ∧
    Done before prepared since .height ∧ Listed before prepared since ∧
    Done before prepared since .move

/-- The first thing that was not done since the last restart, which is an arm. -/
inductive FirstMissing (ops : List Operation) : Phase → Prop
  | height {before prepared since} : LastArm ops before prepared since →
    ¬ Done before prepared since .height → FirstMissing ops .heightPending
  | list {before prepared since} : LastArm ops before prepared since →
    Done before prepared since .height → ¬ Listed before prepared since →
    FirstMissing ops .listPending
  | move {before prepared since} : LastArm ops before prepared since →
    Done before prepared since .height → Listed before prepared since →
    ¬ Done before prepared since .move → FirstMissing ops .movePending

/-! ### One more operation -/

/-- Is this task noted as done? -/
def noted (gate : Gate) : Task → Bool
  | .height => gate.heightDone
  | .list => gate.listDone
  | .contourPrepared => gate.contourPrepared
  | .move => gate.moveDone

theorem noted_complete (gate : Gate) (done task : Task) :
    (gate.complete done).noted task = (gate.noted task || decide (done = task)) := by
  cases done <;> cases task <;> simp [complete, noted]

theorem noted_completeIn {gate : Gate} {g : UInt64} {done task : Gate.Task}
    (hn : (gate.completeIn g done).2.noted task = true) :
    gate.noted task = true ∨ gate.generation = g ∧ done = task := by
  rcases gate.completeIn_cases g done with ⟨hg, heq⟩ | ⟨-, heq⟩
  · rw [heq, gate.noted_complete, Bool.or_eq_true, decide_eq_true_eq] at hn
    exact hn.imp_right fun hdone => ⟨hg, hdone⟩
  · rw [heq] at hn
    exact .inl hn

/-- A gate that was reset knows of nothing. -/
theorem resetIn_of_noted {gate : Gate} {g : UInt64} {task : Gate.Task}
    (hn : (gate.resetIn g).noted task = true) : gate.resetIn g = gate := by
  by_cases hg : gate.generation = g
  · rw [Gate.resetIn, if_pos hg] at hn
    cases task <;> cases hn
  · exact if_neg hg

theorem generation_apply (gate : Gate) (op : Operation) :
    (gate.apply op).generation =
      if op.restarts gate.generation then gate.generation + 1 else gate.generation := by
  cases op with
  | complete task => cases task <;> rfl
  | completeIn generation task => exact gate.generation_completeIn generation task
  | resetIn generation =>
    simp only [apply, resetIn, Operation.restarts, decide_eq_true_eq]
    split <;> rfl
  | _ => rfl

/-- What does not restart the gate keeps it armed and notes what it completes. -/
theorem apply_of_quiet {gate : Gate} {op : Operation} (h : op.restarts gate.generation = false)
    (task : Task) :
    (gate.apply op).armed = gate.armed ∧
      (gate.apply op).noted task = (gate.noted task || op.completes task gate.generation) := by
  cases op with
  | arm contourPrepared => cases h
  | reset => cases h
  | complete done =>
    have harmed : (gate.complete done).armed = gate.armed := by cases done <;> rfl
    exact ⟨harmed, gate.noted_complete done task⟩
  | completeIn generation done =>
    have harmed : (gate.complete done).armed = gate.armed := by cases done <;> rfl
    rcases gate.completeIn_cases generation done with ⟨hg, heq⟩ | ⟨hg, heq⟩
    · simp only [apply, heq, Operation.completes, hg, true_and]
      exact ⟨harmed, gate.noted_complete done task⟩
    · simp [apply, heq, Operation.completes, hg]
  | resetIn generation =>
    have hg : ¬ gate.generation = generation := by simpa [Operation.restarts] using h
    simp [apply, resetIn, hg, Operation.completes]
  | cancel => exact ⟨rfl, by cases task <;> simp [apply, cancel, noted, Operation.completes]⟩

theorem cancelled_apply (gate : Gate) (op : Operation) :
    (gate.apply op).cancelled = (gate.cancelled || decide (op = .cancel)) := by
  cases op with
  | complete task => cases task <;> simp [apply, complete]
  | completeIn generation task =>
    rcases gate.completeIn_cases generation task with ⟨-, heq⟩ | ⟨-, heq⟩ <;>
      cases task <;> simp [apply, heq, complete]
  | resetIn generation =>
    simp only [apply, resetIn]
    split <;> simp [reset, restart]
  | _ => simp [apply, arm, reset, restart, cancel]

/-! ### A whole history -/

theorem after_snoc (ops : List Operation) (op : Operation) :
    after (ops ++ [op]) = (after ops).apply op := by
  rw [after, List.foldl_append]
  rfl

theorem generation_after (ops : List Operation) : (after ops).generation = current ops := by
  induction ops using List.reverseRecOn with
  | nil => rfl
  | append_singleton ops op ih =>
    have hcount : restartCount (ops ++ [op]) =
        if op.restarts (current ops) then restartCount ops + 1 else restartCount ops := by
      rw [restartCount, List.foldl_append]
      rfl
    rw [after_snoc, generation_apply, ih]
    unfold current at hcount ⊢
    rw [hcount]
    split
    · rw [UInt64.ofNat_add]
      rfl
    · rfl

theorem cancelled_after (ops : List Operation) : (after ops).cancelled = true ↔ .cancel ∈ ops := by
  induction ops using List.reverseRecOn with
  | nil => simp [after]
  | append_singleton ops op ih =>
    rw [after_snoc, cancelled_apply, Bool.or_eq_true, ih, List.mem_append, List.mem_singleton,
      decide_eq_true_eq, eq_comm (a := op)]

theorem occurs_snoc {counts : Operation → UInt64 → Bool} {before since : List Operation}
    {op : Operation} :
    Occurs counts before (since ++ [op]) ↔
      Occurs counts before since ∨ counts op (current (before ++ since)) = true := by
  constructor
  · rintro ⟨front, o, back, hsplit, hcounts⟩
    rcases List.eq_nil_or_concat back with rfl | ⟨back, last, rfl⟩
    · obtain ⟨rfl, hlast⟩ := List.append_inj' hsplit rfl
      obtain rfl := List.singleton_inj.1 hlast
      exact .inr hcounts
    · rw [List.concat_eq_append, ← List.cons_append, ← List.append_assoc] at hsplit
      exact .inl ⟨front, o, back, (List.append_inj' hsplit rfl).1, hcounts⟩
  · rintro (⟨front, o, back, rfl, hcounts⟩ | hlast)
    · exact ⟨front, o, back ++ [op], by simp, hcounts⟩
    · exact ⟨since, op, [], rfl, hlast⟩

theorem not_occurs_nil (counts : Operation → UInt64 → Bool) (before : List Operation) :
    ¬ Occurs counts before [] := by
  rintro ⟨front, op, back, hsplit, -⟩
  exact absurd hsplit (by simp)

/-- Where nothing restarts the gate, it stays armed and notes what is completed. -/
theorem after_of_quiet {before since : List Operation}
    (h : ¬ Occurs Operation.restarts before since) :
    (after (before ++ since)).armed = (after before).armed ∧
      ∀ task, (after (before ++ since)).noted task = true ↔
        (after before).noted task = true ∨
          Occurs (fun op current => op.completes task current) before since := by
  induction since using List.reverseRecOn with
  | nil => simp [not_occurs_nil]
  | append_singleton since op ih =>
    rw [occurs_snoc, not_or, Bool.not_eq_true] at h
    obtain ⟨harmed, hnoted⟩ := ih h.1
    have hquiet : op.restarts (after (before ++ since)).generation = false := by
      rw [generation_after]
      exact h.2
    rw [← List.append_assoc, after_snoc]
    refine ⟨(apply_of_quiet hquiet .height).1.trans harmed, fun task => ?_⟩
    rw [(apply_of_quiet hquiet task).2, Bool.or_eq_true, hnoted, occurs_snoc, generation_after,
      or_assoc]

/-- Since the last arm the gate has noted what was done. -/
theorem LastArm.noted {ops before since : List Operation} {prepared : Bool}
    (h : LastArm ops before prepared since) :
    (after ops).armed = true ∧ ∀ task, (after ops).noted task = true ↔
      (task = .contourPrepared ∧ prepared = true) ∨ Done before prepared since task := by
  obtain ⟨rfl, hquiet⟩ := h
  have hsplit : before ++ .arm prepared :: since = before ++ [.arm prepared] ++ since := by simp
  have harm := after_snoc before (.arm prepared)
  obtain ⟨harmed, hnoted⟩ := after_of_quiet hquiet
  rw [hsplit]
  rw [harm] at harmed hnoted
  refine ⟨harmed, fun task => (hnoted task).trans (or_congr_left ?_)⟩
  cases task <;> simp [apply, arm, restart, Gate.noted]

/-- An armed gate was armed by its last restart. -/
theorem lastArm_of_armed {ops : List Operation} (h : (after ops).armed = true) :
    ∃ before prepared since, LastArm ops before prepared since := by
  induction ops using List.reverseRecOn with
  | nil => cases h
  | append_singleton ops op ih =>
    by_cases hrestarts : op.restarts (current ops) = true
    · -- of the restarts only an arm leaves the gate armed
      rw [after_snoc] at h
      cases op with
      | arm prepared => exact ⟨ops, prepared, [], rfl, not_occurs_nil _ _⟩
      | reset => cases h
      | resetIn generation =>
        have hg : (after ops).generation = generation := by
          rw [generation_after]
          simpa [Operation.restarts] using hrestarts
        simp [apply, resetIn, hg, reset, restart] at h
      | _ => cases hrestarts
    · have hquiet : op.restarts (after ops).generation = false := by
        rw [generation_after]
        exact Bool.eq_false_iff.2 hrestarts
      rw [after_snoc, (apply_of_quiet hquiet .height).1] at h
      obtain ⟨before, prepared, since, rfl, hsince⟩ := ih h
      refine ⟨before, prepared, since ++ [op], by simp, ?_⟩
      rw [occurs_snoc, List.append_assoc]
      exact not_or.2 ⟨hsince, hrestarts⟩

theorem LastArm.listed {ops before since : List Operation} {prepared : Bool}
    (h : LastArm ops before prepared since) :
    ((after ops).listDone = true ∨ (after ops).contourPrepared = true) ↔
      Listed before prepared since := by
  have hlist := h.noted.2 .list
  have hprepared := h.noted.2 .contourPrepared
  simp only [Gate.noted, reduceCtorEq, false_and, false_or, true_and] at hlist hprepared
  rw [hlist, hprepared, Listed]
  exact or_left_comm

theorem LastArm.height {ops before since : List Operation} {prepared : Bool}
    (h : LastArm ops before prepared since) :
    (after ops).heightDone = true ↔ Done before prepared since .height := by
  simpa [Gate.noted] using h.noted.2 .height

theorem LastArm.move {ops before since : List Operation} {prepared : Bool}
    (h : LastArm ops before prepared since) :
    (after ops).moveDone = true ↔ Done before prepared since .move := by
  simpa [Gate.noted] using h.noted.2 .move

theorem isReady_after (ops : List Operation) : (after ops).isReady = true ↔ WasReady ops := by
  rw [isReady_iff]
  constructor
  · rintro ⟨harmed, hheight, hlist, hmove⟩
    obtain ⟨before, prepared, since, hlast⟩ := lastArm_of_armed harmed
    exact ⟨before, prepared, since, hlast, hlast.height.1 hheight, hlast.listed.1 hlist,
      hlast.move.1 hmove⟩
  · rintro ⟨before, prepared, since, hlast, hheight, hlist, hmove⟩
    exact ⟨hlast.noted.1, hlast.height.2 hheight, hlast.listed.2 hlist, hlast.move.2 hmove⟩

/-- The phase of an armed gate is the first flag that is not set. -/
theorem phase_of_armed {gate : Gate} (harmed : gate.armed = true) :
    (gate.heightDone = false ∧ gate.phase = .heightPending) ∨
    (gate.heightDone = true ∧ ¬ (gate.listDone = true ∨ gate.contourPrepared = true) ∧
      gate.phase = .listPending) ∨
    (gate.heightDone = true ∧ (gate.listDone = true ∨ gate.contourPrepared = true) ∧
      gate.moveDone = false ∧ gate.phase = .movePending) ∨
    gate.isReady = true := by
  obtain ⟨g, armed, height, list, prepared, move, cancelled⟩ := gate
  simp only at harmed
  subst harmed
  cases height <;> cases list <;> cases prepared <;> cases move <;> simp [phase, isReady]

theorem firstMissing_of_phase {ops : List Operation} (harmed : (after ops).armed = true)
    (hready : (after ops).isReady = false) : FirstMissing ops (after ops).phase := by
  obtain ⟨before, prepared, since, hlast⟩ := lastArm_of_armed harmed
  rcases phase_of_armed harmed with ⟨hheight, hphase⟩ | ⟨hheight, hlist, hphase⟩ |
    ⟨hheight, hlist, hmove, hphase⟩ | hopen
  · rw [hphase]
    exact .height hlast fun hdone => absurd (hlast.height.2 hdone) (by simp [hheight])
  · rw [hphase]
    exact .list hlast (hlast.height.1 hheight) fun hlisted => hlist (hlast.listed.2 hlisted)
  · rw [hphase]
    exact .move hlast (hlast.height.1 hheight) (hlast.listed.1 hlist) fun hdone =>
      absurd (hlast.move.2 hdone) (by simp [hmove])
  · rw [hready] at hopen
    cases hopen

theorem FirstMissing.pending {ops : List Operation} {phase : Phase} (h : FirstMissing ops phase) :
    phase ≠ .idle ∧ phase ≠ .ready := by
  cases h <;> exact ⟨nofun, nofun⟩

theorem armed_of_timeout {gate : Gate} {g : UInt64} {ms waited : Nat} {phase : Phase}
    (h : gate.outcome g ms = .error (.gateTimeout waited phase)) :
    waited = ms ∧ phase = gate.phase ∧ gate.armed = true ∧ gate.isReady = false := by
  unfold outcome at h
  split_ifs at h with hcancelled hstale hopen harmed
  · cases h
  · cases h
  · obtain ⟨rfl, rfl⟩ := Fault.gateTimeout.inj (Except.error.inj h)
    exact ⟨rfl, rfl, harmed, Bool.eq_false_iff.2 hopen⟩
  · cases h

/-- Whether a gate is ready, and what waiting at it ends with, for every history. -/
theorem gate_follows_history (ops : List Operation) :
    ((after ops).isReady = true ↔ WasReady ops) ∧
    ∀ (generation : UInt64) (ms : Nat),
      ((after ops).outcome generation ms = .error .shuttingDown ↔ .cancel ∈ ops) ∧
      (.cancel ∉ ops → generation ≠ current ops →
        (after ops).outcome generation ms = .error .gateAborted) ∧
      (.cancel ∉ ops → generation = current ops →
        ((after ops).outcome generation ms = .ok () ↔ WasReady ops)) ∧
      ∀ waited phase, (after ops).outcome generation ms = .error (.gateTimeout waited phase) →
        waited = ms ∧ FirstMissing ops phase ∧ phase ≠ .idle ∧ phase ≠ .ready := by
  have hcancelled := cancelled_after ops
  have hgeneration := generation_after ops
  refine ⟨isReady_after ops, fun generation ms => ⟨?_, fun hcancel hstale => ?_,
    fun hcancel hcurrent => ?_, fun waited phase htimeout => ?_⟩⟩
  · rw [← hcancelled]
    unfold outcome
    split_ifs with hc <;> simp [hc]
  · rw [← hcancelled] at hcancel
    rw [← hgeneration] at hstale
    rw [outcome, if_neg hcancel, if_pos hstale.symm]
  · rw [← hcancelled, Bool.not_eq_true] at hcancel
    rw [outcome_eq_ok_iff, ← isReady_after]
    exact ⟨fun hok => hok.2.2, fun hready => ⟨hcancel, hgeneration.trans hcurrent.symm, hready⟩⟩
  · obtain ⟨hwaited, rfl, harmed, hready⟩ := armed_of_timeout htimeout
    have hmissing := firstMissing_of_phase harmed hready
    exact ⟨hwaited, hmissing, hmissing.pending⟩

/-- A completion of an old generation comes in between and does not count. -/
def benchHistory : List Operation :=
  [.reset, .arm false, .completeIn 1 .list, .complete .height, .completeIn 2 .list,
    .completeIn 2 .move]

theorem bench_gate_opens : WasReady benchHistory ∧ (after benchHistory).outcome 2 5 = .ok () ∧
    (after benchHistory).outcome 1 5 = .error .gateAborted := by
  obtain ⟨hready, hwait⟩ := gate_follows_history benchHistory
  have hopen : WasReady benchHistory := hready.1 (by decide)
  exact ⟨hopen, ((hwait 2 5).2.2.1 (by decide) (by decide)).2 hopen,
    (hwait 1 5).2.1 (by decide) (by decide)⟩

end GalvoWeld.Gate
