import GalvoWeld.Proofs.Cell.Announcements
import GalvoWeld.Proofs.Cell.ListAtStart

/-!
# The gate and the last request

The flags of the gate say no more than what was done for the request that armed it. They say no
less either: what was done is noted as soon as the gate is told, as long as it is in the generation
of the request. So the history of a run tells whether the gate is ready for the last request.
-/

namespace GalvoWeld.Cell

variable {δ : Type}

/-! ### What the gate knows -/

/-- What was done for a request is noted at the gate, or somebody is about to tell it. -/
structure Known (h : List Deed) (c : Cell δ) (r : Request) (f : FigurePoint) : Prop where
  armed : c.gate.armed = true
  prepared : r.contourPrepared = true → c.gate.noted .contourPrepared = true
  height : [.armed r f c.gate.generation, .heightDone].Sublist h → c.gate.noted .height = true
  preview : r.kind = .preview →
    c.gate.noted .height = true ∨ ∃ i, c.callers i = .armed r f c.gate.generation
  list : .listed (r.listJob c.gate.generation) (.ok ()) ∈ h →
    c.gate.noted .list = true ∨ ∃ seam, c.lister = .finished c.gate.generation seam (.ok ())
  move : .moved (r.moveJob f c.gate.generation) (.ok ()) ∈ h →
    c.gate.noted .move = true ∨ ∃ seam, c.mover = .finished c.gate.generation seam (.ok ())

/-- All is known of the request that armed the gate in its present generation. -/
def Heeded (h : List Deed) (c : Cell δ) : Prop :=
  ∀ r f, .armed r f c.gate.generation ∈ h → Known h c r f

theorem Heeded.start (w : Welder δ) : Heeded [] (idle w) :=
  fun _ _ hm => absurd hm List.not_mem_nil

section
variable [Device δ] {h ds : List Deed} {label : Label} {c next : Cell δ}

theorem after_of_append {a d : Deed} (hs : [a, d].Sublist (h ++ ds)) (hd : d ∉ ds) :
    [a, d].Sublist h := by
  obtain ⟨front, back, heq, hfront, hback⟩ := List.sublist_append_iff.1 hs
  cases hlast : back.getLast? with
  | none =>
    obtain rfl := List.getLast?_eq_none_iff.1 hlast
    rw [heq, List.append_nil]
    exact hfront
  | some e =>
    have hsame := congrArg List.getLast? heq
    rw [List.getLast?_append, hlast] at hsame
    obtain rfl : d = e := Option.some.inj hsame
    exact absurd (hback.subset (List.mem_of_getLast? hlast)) hd

/-! ### How the gate is told -/

theorem noted_completeIn_of_noted {gate : Gate} {task : Gate.Task} (hn : gate.noted task = true)
    (g : UInt64) (done : Gate.Task) : (gate.completeIn g done).2.noted task = true := by
  rcases Gate.completeIn_cases gate g done with ⟨-, heq⟩ | ⟨-, heq⟩
  · rw [heq, gate.noted_complete, hn, Bool.true_or]
  · rw [heq, hn]

theorem noted_completeIn_self (gate : Gate) (task : Gate.Task) :
    (gate.completeIn gate.generation task).2.noted task = true := by
  simp [Gate.completeIn, Gate.noted_complete]

/-- Within a generation the gate stays armed and forgets nothing. -/
theorem Act.gate_grows (ha : Act c label ds next) (hds : restarts ds = 0) :
    next.gate.generation = c.gate.generation ∧ next.gate.armed = c.gate.armed ∧
      ∀ task, c.gate.noted task = true → next.gate.noted task = true := by
  have hreset : restarts [Deed.reset] = 1 := rfl
  have hresetIn : ∀ g fault, restarts (settleDeeds c.gate g (.error fault)) = 0 →
      c.gate.resetIn g = c.gate := by
    intro g fault hnone
    simp only [settleDeeds] at hnone
    split at hnone
    · rw [hreset] at hnone
      cases hnone
    · next hg => exact if_neg hg
  have hcomplete : ∀ g task, (c.gate.completeIn g task).2.generation = c.gate.generation ∧
      (c.gate.completeIn g task).2.armed = c.gate.armed ∧
      ∀ t, c.gate.noted t = true → (c.gate.completeIn g task).2.noted t = true :=
    fun g task => ⟨Gate.generation_completeIn .., armed_completeIn ..,
      fun _ hn => noted_completeIn_of_noted hn g task⟩
  cases ha with
  | giveUp | arm => cases hds
  | heightDone =>
    refine ⟨rfl, rfl, fun task hn => ?_⟩
    exact (c.gate.noted_complete .height task).trans (by rw [hn, Bool.true_or])
  | previewHeight | listDone | moveDone => exact hcomplete _ _
  | listFailed | moveFailed =>
    rw [hresetIn _ _ hds]
    exact ⟨rfl, rfl, fun _ hn => hn⟩
  | cancel => exact ⟨rfl, rfl, fun task hn => by cases task <;> exact hn⟩
  | _ => exact ⟨rfl, rfl, fun _ hn => hn⟩

theorem Act.tells_height (ha : Act c label ds next) (hm : .heightDone ∈ ds) :
    next.gate.noted .height = true := by
  cases ha with
  | heightDone => rfl
  | listFailed => cases eq_reset_of_settle hm
  | moveFailed => cases eq_reset_of_settle hm
  | _ => simp at hm

/-- A caller that has armed the gate for a preview tells it of the height with the next step. -/
theorem Act.tells_preview (ha : Act c label ds next) {i : Nat} {r : Request} {f : FigurePoint}
    (hi : c.callers i = .armed r f c.gate.generation) (hk : r.kind = .preview) :
    next.callers i = .armed r f c.gate.generation ∨ next.gate.noted .height = true := by
  by_cases hown : label = .advance i
  · subst hown
    cases ha with
    | previewHeight hi' =>
      cases hi.symm.trans hi'
      exact .inr (noted_completeIn_self c.gate .height)
    | weldHeight hi' hk' =>
      cases hi.symm.trans hi'
      cases hk.symm.trans hk'
    | _ => simp_all
  · refine .inl ?_
    rw [ha.callers_eq ?_ hown, hi]
    rintro call rfl
    cases ha with
    | call hret => cases hi.symm.trans hret

theorem Act.tells_list (ha : Act c label ds next) {seam : Nat}
    (hl : c.lister = .finished c.gate.generation seam (.ok ())) :
    next.lister = .finished c.gate.generation seam (.ok ()) ∨ next.gate.noted .list = true := by
  cases ha with
  | listDone hl' =>
    cases hl.symm.trans hl'
    exact .inr (noted_completeIn_self c.gate .list)
  | listFetch hl' | listLeave hl' | list hl' | listFailed hl' | listReport hl' =>
    cases hl.symm.trans hl'
  | _ => exact .inl hl

theorem Act.tells_move (ha : Act c label ds next) {seam : Nat}
    (hm : c.mover = .finished c.gate.generation seam (.ok ())) :
    next.mover = .finished c.gate.generation seam (.ok ()) ∨ next.gate.noted .move = true := by
  cases ha with
  | moveDone hm' =>
    cases hm.symm.trans hm'
    exact .inr (noted_completeIn_self c.gate .move)
  | moveFetch hm' | moveLeave hm' | move hm' | moveFailed hm' | moveReport hm' =>
    cases hm.symm.trans hm'
  | _ => exact .inl hm

theorem Act.finishes_list (ha : Act c label ds next) {job : ListJob} {result : Except Fault Unit}
    (hm : .listed job result ∈ ds) :
    next.lister = .finished job.generation job.data.seam result := by
  cases ha with
  | list hl =>
    obtain ⟨rfl, rfl⟩ := Deed.listed.inj (List.mem_singleton.1 hm)
    rfl
  | listFailed => cases eq_reset_of_settle hm
  | moveFailed => cases eq_reset_of_settle hm
  | _ => simp at hm

theorem Act.finishes_move (ha : Act c label ds next) {job : MoveJob} {result : Except Fault Unit}
    (hm : .moved job result ∈ ds) : next.mover = .finished job.generation job.seam result := by
  cases ha with
  | move hl =>
    obtain ⟨rfl, rfl⟩ := Deed.moved.inj (List.mem_singleton.1 hm)
    rfl
  | listFailed => cases eq_reset_of_settle hm
  | moveFailed => cases eq_reset_of_settle hm
  | _ => simp at hm

theorem Act.arms_gate (ha : Act c label ds next) {r : Request} {f : FigurePoint} {g : UInt64}
    (hm : .armed r f g ∈ ds) : g = (c.gate.arm r.contourPrepared).generation ∧
      ds = [.armed r f g] ∧ ∃ i,
        next = setCaller { c with gate := c.gate.arm r.contourPrepared } i (.armed r f g) := by
  cases ha with
  | @arm i _ _ hi =>
    obtain ⟨rfl, rfl, rfl⟩ := Deed.armed.inj (List.mem_singleton.1 hm)
    exact ⟨rfl, rfl, i, rfl⟩
  | listFailed => cases eq_reset_of_settle hm
  | moveFailed => cases eq_reset_of_settle hm
  | _ => simp at hm

/-! ### What every act keeps -/

theorem Known.act {r : Request} {f : FigurePoint} (hk : Known h c r f)
    (ha : Act c label ds next) (hds : restarts ds = 0) : Known (h ++ ds) next r f := by
  obtain ⟨hg, harmed, hgrows⟩ := ha.gate_grows hds
  constructor
  case armed => exact harmed.trans hk.armed
  case prepared => exact fun hp => hgrows _ (hk.prepared hp)
  case height =>
    intro hs
    rw [hg] at hs
    by_cases hnow : .heightDone ∈ ds
    · exact ha.tells_height hnow
    · exact hgrows .height (hk.height (after_of_append hs hnow))
  case preview =>
    intro hpreview
    rw [hg]
    rcases hk.preview hpreview with hnoted | ⟨i, hi⟩
    · exact .inl (hgrows _ hnoted)
    · exact (ha.tells_preview hi hpreview).symm.imp_right fun hstill => ⟨i, hstill⟩
  case list =>
    intro hlisted
    rw [hg] at hlisted ⊢
    rcases List.mem_append.1 hlisted with hold | hnew
    · rcases hk.list hold with hnoted | ⟨seam, hl⟩
      · exact .inl (hgrows _ hnoted)
      · exact (ha.tells_list hl).symm.imp_right fun hstill => ⟨seam, hstill⟩
    · exact .inr ⟨_, ha.finishes_list hnew⟩
  case move =>
    intro hmoved
    rw [hg] at hmoved ⊢
    rcases List.mem_append.1 hmoved with hold | hnew
    · rcases hk.move hold with hnoted | ⟨seam, hl⟩
      · exact .inl (hgrows _ hnoted)
      · exact (ha.tells_move hl).symm.imp_right fun hstill => ⟨seam, hstill⟩
    · exact .inr ⟨_, ha.finishes_move hnew⟩

omit [Device δ] in
theorem Known.arm (hc : Counted h c.gate) (hs : Single h c) (few : restarts h + 1 < UInt64.size)
    (i : Nat) (r : Request) (f : FigurePoint) :
    Known (h ++ [.armed r f (c.gate.arm r.contourPrepared).generation])
      (setCaller { c with gate := c.gate.arm r.contourPrepared } i
        (.armed r f (c.gate.arm r.contourPrepared).generation)) r f := by
  -- the generation is a new one, so that nothing was done in it before
  have hnew : (c.gate.arm r.contourPrepared).generation.toNat ∉ generations h := by
    intro hm
    have hle := hc.bound _ hm
    rw [hc.toNat_arm r.contourPrepared few] at hle
    omega
  constructor
  case armed => rfl
  case prepared => exact fun hp => hp
  case height =>
    intro hafter
    have hlate : .heightDone ∈ ([] : List Deed) :=
      mem_of_after (fun hm => hnew (mem_generations hm)) hafter
    cases hlate
  case preview => exact fun _ => .inr ⟨i, if_pos rfl⟩
  case list =>
    intro hm
    have hold := (List.mem_append.1 hm).resolve_right (by simp)
    have hdone : listStation.done (r.listJob _) (.ok ()) ∈ h := hold
    exact absurd (hs.list.done _ (Station.mem_doneIn hdone)) hnew
  case move =>
    intro hm
    have hold := (List.mem_append.1 hm).resolve_right (by simp)
    have hdone : moveStation.done (r.moveJob f _) (.ok ()) ∈ h := hold
    exact absurd (hs.move.done _ (Station.mem_doneIn hdone)) hnew

theorem Heeded.act (hk : Heeded h c) (hc : Counted h c.gate) (hs : Single h c)
    (ha : Act c label ds next) (few : restarts (h ++ ds) < UInt64.size) :
    Heeded (h ++ ds) next := by
  intro r f hm
  rcases List.mem_append.1 hm with hold | hnew
  · -- the generation is not newer than the request, so that the gate was not restarted
    have hle := hc.bound _ (mem_generations hold)
    rw [(hc.act ha few).gate, UInt64.toNat_ofNat_of_lt' few, restarts_append] at hle
    have hds : restarts ds = 0 := by omega
    rw [(ha.gate_grows hds).1] at hold
    exact (hk r f hold).act ha hds
  · generalize next.gate.generation = g at hnew
    obtain ⟨rfl, rfl, i, rfl⟩ := ha.arms_gate hnew
    rw [restarts_append] at few
    exact .arm hc hs few i r f

end

/-! ### Ready in the present generation -/

section
variable {α : Type} {k : Desk α} {h : List Deed} {hand : Hand α} {job : α}

theorem Desk.Told.mem (ht : k.Told h job) : k.done job (.ok ()) ∈ h := by
  obtain ⟨early, between, late, rfl, -⟩ := ht
  exact List.mem_append_right early (List.mem_cons_self ..)

theorem Desk.Settled.mem (hs : k.Settled h hand job) : k.done job (.ok ()) ∈ h :=
  hs.elim Desk.Told.mem fun hheld => hheld.fresh.mem

end

/-- The gate was told of what is announced or about to be. -/
theorem Desk.Settled.not_finished {α : Type} {k : Station α} {h : List Deed} {hand : Hand α}
    {charge : Holder → Option Nat} {r : Request} {f : FigurePoint} {g : UInt64}
    (hs : k.Settled h hand (k.mine r f g)) (ho : k.Once h charge) (ha : k.Account h hand)
    (hr : (generations h).Pairwise (· < ·)) (hm : .armed r f g ∈ h) :
    ∀ seam, hand ≠ .finished g seam (.ok ()) := by
  rintro seam rfl
  obtain ⟨job, hfresh, ⟨r', f', hm', hjob⟩, rfl, -⟩ := ha.finished g seam rfl
  obtain ⟨rfl, rfl⟩ := armed_unique hr hm hm'
  rw [hjob] at hfresh
  rcases hs with htold | ⟨-, hhand⟩
  · exact ho.not_fresh htold hfresh
  · cases hhand

section
variable {h : List Deed} {c : Cell δ} {r : Request} {f : FigurePoint}

/-- A caller that has yet to tell the gate of the height has not posted the move. -/
theorem Primed.not_armed {g : UInt64} (hp : Primed h c r f g) (hs : Single h c) (i : Nat) :
    c.callers i ≠ .armed r f g := by
  intro hi
  have hcharge : moveCharge c (.caller i) = some g.toNat := congrArg Caller.unmoved? hi
  have hdone : moveStation.done (r.moveJob f g) (.ok ()) ∈ h := hp.move.mem
  exact hs.move.undone _ _ hcharge (Station.mem_doneIn hdone)

theorem isReady_iff_of_current (hc : Counted h c.gate) (hrec : Recorded h c) (hk : Heeded h c)
    (hm : .armed r f c.gate.generation ∈ h) :
    c.gate.isReady = true ↔
      HeightReady h r f c.gate.generation ∧ Primed h c r f c.gate.generation := by
  have hknown := hk r f hm
  constructor
  · intro hready
    obtain ⟨r', f', hflagged⟩ := hrec.vouched.gate hknown.armed
    obtain ⟨rfl, rfl⟩ := armed_unique hc.rising hm hflagged.armed
    exact ⟨(hflagged.cleared hready).height,
      hrec.announced.primed hrec.vouched hc.rising hready hm⟩
  · rintro ⟨hheight, hprimed⟩
    refine (Gate.isReady_iff c.gate).2 ⟨hknown.armed, ?_, ?_, ?_⟩
    · rcases hheight with hpreview | hafter
      · rcases hknown.preview hpreview with hnoted | ⟨i, hi⟩
        · exact hnoted
        · exact absurd hi (hprimed.not_armed hrec.single i)
      · exact hknown.height hafter
    · rcases hprimed.list with hprepared | hsettled
      · exact .inr (hknown.prepared hprepared)
      · have hidle := hsettled.not_finished (k := listStation) hrec.single.list hrec.tidy.lister
          hc.rising hm
        rcases hknown.list hsettled.mem with hnoted | ⟨seam, hl⟩
        · exact .inl hnoted
        · exact absurd hl (hidle seam)
    · have hidle := hprimed.move.not_finished (k := moveStation) hrec.single.move hrec.tidy.mover
        hc.rising hm
      rcases hknown.move hprimed.move.mem with hnoted | ⟨seam, hl⟩
      · exact hnoted
      · exact absurd hl (hidle seam)

end

/-! ### The last request of a run -/

section
variable [Device δ] {w : Welder δ} {labels : List Label} {c : Cell δ} {early late : List Deed}
  {r : Request} {f : FigurePoint} {g : UInt64}

theorem heeded_of_run (hrun : run (idle w) labels = some c)
    (few : restarts (history (idle w) labels) < UInt64.size) :
    Heeded (history (idle w) labels) c := by
  have hlast := run_counted (P := fun h d => Single h d ∧ Heeded h d) hrun Counted.start few
    ⟨Single.start w, Heeded.start w⟩ ?_
  · exact hlast.2.2
  · intro label _ h d ds e hc hfew hd ha
    exact ⟨hd.1.act (hc.act ha hfew).rising ha, hd.2.act hc hd.1 ha hfew⟩

/-- The generation of a request is the number of restarts up to it. -/
theorem toNat_of_armed (hrun : run (idle w) labels = some c)
    (few : restarts (history (idle w) labels) < UInt64.size)
    (hsplit : history (idle w) labels = early ++ .armed r f g :: late) :
    g.toNat = restarts early + 1 ∧ ∀ n ∈ generations early, n ≤ restarts early := by
  obtain ⟨front, label, back, mid, next, rfl, hfront, -, hact, -, rfl, -⟩ :=
    run_split_single hrun hsplit rfl
  have hone : restarts [Deed.armed r f g] = 1 := rfl
  rw [hsplit, ← List.singleton_append, restarts_append, restarts_append, hone] at few
  have hcounted := (traced_of_run hfront (by omega)).counted
  have hown := (hact.arms_gate (List.mem_singleton_self _)).1
  refine ⟨?_, hcounted.bound⟩
  rw [hown, hcounted.toNat_arm r.contourPrepared (by omega)]

/-- After the last request that armed the gate, only resets begin a generation. -/
theorem restarts_eq_zero_iff (hlast : ∀ r' f' g', .armed r' f' g' ∉ late) :
    restarts late = 0 ↔ .reset ∉ late := by
  refine List.countP_eq_zero.trans ⟨fun hnone hm => hnone .reset hm rfl, fun hreset d hm => ?_⟩
  cases d with
  | armed r' f' g' => exact absurd hm (hlast r' f' g')
  | reset => exact absurd hm hreset
  | _ => nofun

theorem over_iff_reset (hrun : run (idle w) labels = some c)
    (few : restarts (history (idle w) labels) < UInt64.size)
    (hsplit : history (idle w) labels = early ++ .armed r f g :: late)
    (hlast : ∀ r' f' g', .armed r' f' g' ∉ late) :
    Over (history (idle w) labels) g ↔ .reset ∈ late := by
  have hone : restarts [Deed.armed r f g] = 1 := rfl
  have hnone := not_congr (restarts_eq_zero_iff hlast)
  rw [not_not] at hnone
  rw [← hnone, Over, (toNat_of_armed hrun few hsplit).1, hsplit, ← List.singleton_append,
    restarts_append, restarts_append, hone]
  omega

theorem not_armed_of_over (hrun : run (idle w) labels = some c)
    (few : restarts (history (idle w) labels) < UInt64.size)
    (hsplit : history (idle w) labels = early ++ .armed r f g :: late)
    (hlast : ∀ r' f' g', .armed r' f' g' ∉ late) (ho : Over (history (idle w) labels) g) :
    c.gate.armed = false := by
  have htraced := traced_of_run hrun few
  have hother := htraced.counted.ne_of_over few ho
  obtain ⟨hown, hbound⟩ := toNat_of_armed hrun few hsplit
  have hnow : c.gate.generation.toNat = restarts (history (idle w) labels) := by
    rw [htraced.counted.gate, UInt64.toNat_ofNat_of_lt' few]
  rw [← Bool.not_eq_true]
  intro harmed
  -- it would be armed for this request, which is given up, or for one before it
  obtain ⟨r', f', hflagged⟩ := htraced.vouched.gate harmed
  have hm := hflagged.armed
  rw [hsplit] at hm
  rcases List.mem_append.1 hm with hearly | hrest
  · have hle := hbound _ (mem_generations hearly)
    unfold Over at ho
    omega
  · rcases List.mem_cons.1 hrest with heq | hlate
    · exact hother (Deed.armed.inj heq).2.2
    · exact hlast _ _ _ hlate

/-- The gate is ready for the last request that armed it if and only if it was not reset since, the
height is compensated since then or the request is a preview, and its list and its move were done
and are announced or about to be, the list unless it is that of an earlier seam. -/
theorem isReady_iff_of_last (hrun : run (idle w) labels = some c)
    (few : restarts (history (idle w) labels) < UInt64.size)
    (hsplit : history (idle w) labels = early ++ .armed r f g :: late)
    (hlast : ∀ r' f' g', .armed r' f' g' ∉ late) :
    c.gate.isReady = true ↔ .reset ∉ late ∧ HeightReady (history (idle w) labels) r f g ∧
      Primed (history (idle w) labels) c r f g := by
  have hover := over_iff_reset hrun few hsplit hlast
  by_cases hreset : .reset ∈ late
  · have hunarmed := not_armed_of_over hrun few hsplit hlast (hover.2 hreset)
    have hnot : ¬ c.gate.isReady = true := fun hready => by
      simp [((Gate.isReady_iff c.gate).1 hready).1] at hunarmed
    exact iff_of_false hnot fun h => h.1 hreset
  · have hcounted := (traced_of_run hrun few).counted
    have hm : .armed r f g ∈ history (idle w) labels := by
      rw [hsplit]
      exact List.mem_append_right _ (List.mem_cons_self ..)
    have hcurrent : c.gate.generation = g := by
      have hle := hcounted.bound _ (mem_generations hm)
      have hnot := not_congr hover |>.2 hreset
      unfold Over at hnot
      rw [hcounted.gate, ← UInt64.ofNat_toNat (x := g)]
      congr 1
      omega
    subst hcurrent
    rw [isReady_iff_of_current hcounted (recorded_of_run hrun few) (heeded_of_run hrun few) hm]
    exact (and_iff_right hreset).symm

end

end GalvoWeld.Cell
