import GalvoWeld.Proofs.Cell.Acts

/-!
# Generations in a run

Every arming and every reset of the gate begins a new generation, so that as long as there are
fewer than `2^64` of them the generation of the gate is their number, no two requests arm the gate
in the same generation, and a generation that is over does not come back.
-/

namespace GalvoWeld.Cell

variable {δ : Type} [Device δ]

/-! ### Counting restarts -/

/-- Does the gate begin a new generation? -/
def Deed.restartsGate : Deed → Bool
  | .armed .. => true
  | .reset => true
  | _ => false

/-- How often the gate began a new generation. -/
def restarts (h : List Deed) : Nat := h.countP Deed.restartsGate

/-- The generation in which a request arms the gate. -/
def Deed.generation? : Deed → Option Nat
  | .armed _ _ g => some g.toNat
  | _ => none

/-- The generations in which requests armed the gate. -/
def generations (h : List Deed) : List Nat := h.filterMap Deed.generation?

@[simp] theorem restarts_append (h ds : List Deed) :
    restarts (h ++ ds) = restarts h + restarts ds := List.countP_append ..

@[simp] theorem generations_append (h ds : List Deed) :
    generations (h ++ ds) = generations h ++ generations ds := List.filterMap_append ..

theorem mem_generations {h : List Deed} {r : Request} {f : FigurePoint} {g : UInt64}
    (hm : .armed r f g ∈ h) : g.toNat ∈ generations h :=
  List.mem_filterMap.2 ⟨_, hm, rfl⟩

theorem generations_eq_nil {ds : List Deed} (hds : restarts ds = 0) : generations ds = [] := by
  refine List.filterMap_eq_nil_iff.2 fun d hd => ?_
  have hno := List.countP_eq_zero.1 hds d hd
  cases d <;> simp_all [Deed.restartsGate, Deed.generation?]

/-! ### The generation of the gate -/

/-- The generation of the gate is the number of its restarts, and the requests that armed it did so
in rising generations. -/
structure Counted (h : List Deed) (gate : Gate) : Prop where
  gate : gate.generation = UInt64.ofNat (restarts h)
  rising : (generations h).Pairwise (· < ·)
  bound : ∀ n ∈ generations h, n ≤ restarts h

theorem Counted.start : Counted [] {} := ⟨rfl, List.Pairwise.nil, by simp [generations]⟩

/-- A step without a restart. -/
theorem Counted.same {h ds : List Deed} {gate next : Gate} (hc : Counted h gate)
    (hg : next.generation = gate.generation) (hds : restarts ds = 0) :
    Counted (h ++ ds) next := by
  have hnone := generations_eq_nil hds
  refine ⟨?_, ?_, ?_⟩
  · rw [hg, hc.gate, restarts_append, hds, Nat.add_zero]
  · simpa [hnone] using hc.rising
  · simpa [hnone, hds] using hc.bound

theorem Counted.reset {h : List Deed} {gate : Gate} (hc : Counted h gate) :
    Counted (h ++ [.reset]) gate.reset := by
  have hone : restarts [Deed.reset] = 1 := rfl
  have hnone : generations [Deed.reset] = [] := rfl
  refine ⟨?_, ?_, ?_⟩
  · rw [restarts_append, hone, UInt64.ofNat_add, ← hc.gate]
    rfl
  · simpa [hnone] using hc.rising
  · intro n hn
    have hle := hc.bound n (by simpa [hnone] using hn)
    rw [restarts_append]
    omega

theorem Counted.toNat_arm {h : List Deed} {gate : Gate} (hc : Counted h gate) (prepared : Bool)
    (few : restarts h + 1 < UInt64.size) :
    (gate.arm prepared).generation.toNat = restarts h + 1 := by
  have hgen : (gate.arm prepared).generation = UInt64.ofNat (restarts h + 1) := by
    rw [UInt64.ofNat_add, ← hc.gate]
    rfl
  rw [hgen, UInt64.toNat_ofNat_of_lt' few]

theorem Counted.arm {h : List Deed} {gate : Gate} (hc : Counted h gate) (r : Request)
    (f : FigurePoint) (few : restarts h + 1 < UInt64.size) :
    Counted (h ++ [.armed r f (gate.arm r.contourPrepared).generation])
      (gate.arm r.contourPrepared) := by
  have hnat := hc.toNat_arm r.contourPrepared few
  have hone : ∀ g, restarts [Deed.armed r f g] = 1 := fun _ => rfl
  have hnew : ∀ g, generations [Deed.armed r f g] = [g.toNat] := fun _ => rfl
  refine ⟨?_, ?_, ?_⟩
  · rw [restarts_append, hone, ← hnat, UInt64.ofNat_toNat]
  · rw [generations_append, hnew, hnat]
    refine List.pairwise_append.2 ⟨hc.rising, List.pairwise_singleton _ _, ?_⟩
    intro n hn m hm
    have hle := hc.bound n hn
    rw [List.mem_singleton.1 hm]
    omega
  · intro n hn
    rw [generations_append, hnew, hnat, List.mem_append, List.mem_singleton] at hn
    rw [restarts_append, hone]
    rcases hn with hold | hnow
    · have hle := hc.bound n hold
      omega
    · omega

theorem Counted.resetIn {h : List Deed} {gate : Gate} (hc : Counted h gate) (g : UInt64)
    (fault : Fault) : Counted (h ++ settleDeeds gate g (.error fault)) (gate.resetIn g) := by
  by_cases hg : gate.generation = g
  · simpa only [settleDeeds, Gate.resetIn, if_pos hg] using hc.reset
  · simpa only [settleDeeds, Gate.resetIn, if_neg hg] using hc.same rfl rfl

theorem Counted.act {h ds : List Deed} {label : Label} {c next : Cell δ} (hc : Counted h c.gate)
    (ha : Act c label ds next) (few : restarts (h ++ ds) < UInt64.size) :
    Counted (h ++ ds) next.gate := by
  cases ha with
  | giveUp => exact hc.reset
  | arm =>
    refine hc.arm _ _ ?_
    rw [restarts_append] at few
    exact few
  | previewHeight => exact hc.same (Gate.generation_completeIn ..) rfl
  | listDone => exact hc.same (Gate.generation_completeIn ..) rfl
  | moveDone => exact hc.same (Gate.generation_completeIn ..) rfl
  | listFailed => exact hc.resetIn _ _
  | moveFailed => exact hc.resetIn _ _
  | _ => exact hc.same rfl rfl

/-- What is kept by every act of a run with few restarts, while the generations are counted, holds
after the run. -/
theorem run_counted {P : List Deed → Cell δ → Prop} {start last : Cell δ} {labels : List Label}
    {before : List Deed} (hrun : run start labels = some last) (hc : Counted before start.gate)
    (few : restarts (before ++ history start labels) < UInt64.size) (hstart : P before start)
    (hact : ∀ label ∈ labels, ∀ h d ds e, Counted h d.gate → restarts (h ++ ds) < UInt64.size →
      P h d → Act d label ds e → P (h ++ ds) e) :
    Counted (before ++ history start labels) last.gate ∧
      P (before ++ history start labels) last := by
  refine run_invariant (P := fun h d => restarts h < UInt64.size → Counted h d.gate ∧ P h d) hrun
    (fun _ => ⟨hc, hstart⟩) ?_ few
  intro label hl h d ds e hd ha hfew
  -- restarts only grow along the run, so that there were few of them at every step before
  have hless : restarts h < UInt64.size := by
    rw [restarts_append] at hfew
    omega
  obtain ⟨hcount, hkept⟩ := hd hless
  exact ⟨hcount.act ha hfew, hact label hl h d ds e hcount hfew hkept ha⟩

/-! ### One request in a generation -/

/-- Two requests that armed the gate in the same generation are one. -/
theorem armed_unique {h : List Deed} (hr : (generations h).Pairwise (· < ·)) {r r' : Request}
    {f f' : FigurePoint} {g : UInt64} (hm : .armed r f g ∈ h) (hm' : .armed r' f' g ∈ h) :
    r = r' ∧ f = f' := by
  induction h with
  | nil => cases hm
  | cons d h ih =>
    have htail : (generations h).Pairwise (· < ·) := by
      have happ := generations_append [d] h
      rw [List.singleton_append] at happ
      rw [happ] at hr
      exact (List.pairwise_append.1 hr).2.1
    have hfresh : ∀ {r f}, d = .armed r f g → ∀ {r' f'}, .armed r' f' g ∉ h := by
      rintro r f rfl r' f' hin
      have hlt := List.rel_of_pairwise_cons hr (mem_generations hin)
      exact Nat.lt_irrefl _ hlt
    rcases List.mem_cons.1 hm with hd | hin
    · rcases List.mem_cons.1 hm' with hd' | hin'
      · have heq := hd.trans hd'.symm
        injection heq with hreq hfirst
        exact ⟨hreq, hfirst⟩
      · exact absurd hin' (hfresh hd.symm)
    · rcases List.mem_cons.1 hm' with hd' | hin'
      · exact absurd hin (hfresh hd'.symm)
      · exact ih htail hin hin'

end GalvoWeld.Cell
