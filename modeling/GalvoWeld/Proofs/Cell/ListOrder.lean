import GalvoWeld.Proofs.Cell.Generations
import GalvoWeld.Proofs.Cell.Jobs

/-!
# The order of list jobs

While one caller makes all requests, a list job overtakes no other on its way: from the request that
has yet to post it, through the slot and the hands of the worker, into the history. The slot may
lose a job, since a later one takes its place, but it swaps none.
-/

namespace GalvoWeld.Cell

variable {δ : Type}

/-! ### Jobs on their way -/

/-- A caller with a request. -/
def Caller.requests : Caller → Bool
  | .called (.request _) => true
  | .claimed .. => true
  | .armed .. => true
  | .heightSettled .. => true
  | .listPosted .. => true
  | .movePosted .. => true
  | _ => false

/-- The generation of a list job that is not posted yet. -/
def Caller.unposted : Caller → List Nat
  | .armed _ _ g => [g.toNat]
  | .heightSettled _ _ g => [g.toNat]
  | _ => []

/-- The generation of the list job in a hand. -/
def Hand.inWork : Hand ListJob → List Nat
  | .holding job => [job.generation.toNat]
  | _ => []

def Deed.listed? : Deed → Option Nat
  | .listed job _ => some job.generation.toNat
  | _ => none

/-- The generations of the list jobs that were done. -/
def listedIn (h : List Deed) : List Nat := h.filterMap Deed.listed?

@[simp] theorem listedIn_append (h ds : List Deed) :
    listedIn (h ++ ds) = listedIn h ++ listedIn ds := List.filterMap_append ..

/-- The generations of all list jobs from the first one that was done to the one that this caller
has yet to post. -/
def way (h : List Deed) (c : Cell δ) (q : Nat) : List Nat :=
  listedIn h ++ c.lister.inWork ++ c.listSlot.job.toList.map (·.generation.toNat) ++
    (c.callers q).unposted

/-- Only one caller makes requests, and its list jobs are in order. -/
structure Orderly (q : Nat) (h : List Deed) (c : Cell δ) : Prop where
  sole : ∀ i, i ≠ q → (c.callers i).requests = false
  rising : (way h c q).Pairwise (· < ·)
  known : ∀ n ∈ way h c q, n ∈ generations h

theorem Orderly.start (q : Nat) (w : Welder δ) : Orderly q [] (idle w) := by
  refine ⟨fun _ _ => rfl, ?_, ?_⟩
  · exact List.Pairwise.nil
  · nofun

/-! ### One step -/

variable {q : Nat} {h ds : List Deed} {c next : Cell δ}

theorem Orderly.eq_of_requests (ho : Orderly q h c) {i : Nat}
    (hr : (c.callers i).requests = true) : i = q := by
  refine Decidable.byContradiction fun hne => ?_
  rw [ho.sole i hne] at hr
  cases hr

/-- Jobs may leave the way. -/
theorem Orderly.fewer (ho : Orderly q h c) (hsole : ∀ i, i ≠ q → (next.callers i).requests = false)
    (hway : (way (h ++ ds) next q).Sublist (way h c q)) : Orderly q (h ++ ds) next := by
  refine ⟨hsole, ho.rising.sublist hway, fun n hn => ?_⟩
  rw [generations_append]
  exact List.mem_append_left _ (ho.known n (hway.subset hn))

/-- A caller that takes no part in the order goes on. -/
theorem Orderly.place (ho : Orderly q h c) {d : Cell δ} {i : Nat} {place : Caller}
    (hcallers : d.callers = c.callers) (hlister : d.lister = c.lister)
    (hslot : d.listSlot.job = c.listSlot.job) (hds : listedIn ds = [])
    (hrequests : place.requests = true → i = q ∨ (c.callers i).requests = true)
    (hunposted : place.unposted.Sublist (c.callers i).unposted) :
    Orderly q (h ++ ds) (setCaller d i place) := by
  have hother : ∀ j, (setCaller d i place).callers j = if j = i then place else c.callers j := by
    intro j
    rw [callers_setCaller, hcallers]
  refine ho.fewer (fun j hj => ?_) ?_
  · rw [hother]
    split
    · next hji =>
      subst hji
      cases hp : place.requests with
      | false => rfl
      | true =>
        rcases hrequests hp with hjq | hwas
        · exact absurd hjq hj
        · exact absurd (ho.eq_of_requests hwas) hj
    · exact ho.sole j hj
  · have hq : ((setCaller d i place).callers q).unposted.Sublist (c.callers q).unposted := by
      rw [hother]
      split
      · next hqi =>
        subst hqi
        exact hunposted
      · exact .refl _
    unfold way
    rw [listedIn_append, hds, List.append_nil]
    have hsame : (setCaller d i place).lister = c.lister := hlister
    have hjob : (setCaller d i place).listSlot.job = c.listSlot.job := hslot
    rw [hsame, hjob]
    exact (List.Sublist.refl _).append hq

/-- A request joins the way behind all others when it arms the gate. -/
theorem Orderly.arm (ho : Orderly q h c) (hc : Counted h c.gate)
    (few : restarts h + 1 < UInt64.size) {r : Request} {first : FigurePoint}
    (hq : c.callers q = .claimed r first) :
    Orderly q (h ++ [.armed r first (c.gate.arm r.contourPrepared).generation])
      (setCaller { c with gate := c.gate.arm r.contourPrepared } q
        (.armed r first (c.gate.arm r.contourPrepared).generation)) := by
  have hnat := hc.toNat_arm r.contourPrepared few
  generalize c.gate.arm r.contourPrepared = gate at hnat ⊢
  have hway : way (h ++ [.armed r first gate.generation])
      (setCaller { c with gate } q (.armed r first gate.generation)) q =
        way h c q ++ [gate.generation.toNat] := by
    simp [way, hq, Caller.unposted, listedIn, Deed.listed?, setCaller]
  have hnew : generations (h ++ [.armed r first gate.generation]) =
      generations h ++ [gate.generation.toNat] := generations_append ..
  refine ⟨fun j hj => ?_, ?_, ?_⟩
  · rw [callers_setCaller, if_neg hj]
    exact ho.sole j hj
  · rw [hway]
    refine List.pairwise_append.2 ⟨ho.rising, List.pairwise_singleton _ _, ?_⟩
    intro n hn m hm
    have hle := hc.bound n (ho.known n hn)
    rw [List.mem_singleton.1 hm]
    omega
  · intro n hn
    rw [hway] at hn
    rw [hnew]
    rcases List.mem_append.1 hn with hold | hlast
    · exact List.mem_append_left _ (ho.known n hold)
    · exact List.mem_append_right _ hlast

theorem listedIn_settle (gate : Gate) (g : UInt64) (fault : Fault) :
    listedIn (settleDeeds gate g (.error fault)) = [] := filterMap_settle rfl ..

/-- The order outlasts a step that moves no job. -/
theorem Orderly.same (ho : Orderly q h c) (hcallers : next.callers = c.callers)
    (hwork : next.lister.inWork = c.lister.inWork) (hslot : next.listSlot.job = c.listSlot.job)
    (hds : listedIn ds = []) : Orderly q (h ++ ds) next := by
  have hway : way (h ++ ds) next q = way h c q := by
    unfold way
    rw [listedIn_append, hds, List.append_nil, hwork, hslot, hcallers]
  refine ho.fewer ?_ (hway ▸ List.Sublist.refl _)
  rw [hcallers]
  exact ho.sole

variable [Device δ]

theorem Orderly.act {label : Label} (ho : Orderly q h c) (hc : Counted h c.gate)
    (hl : ∀ i r, label = .call i (.request r) → i = q) (ha : Act c label ds next)
    (few : restarts (h ++ ds) < UInt64.size) : Orderly q (h ++ ds) next := by
  cases ha with
  | @call i call result hi =>
    refine ho.place rfl rfl rfl rfl (fun hr => .inl ?_) (List.nil_sublist _)
    cases call with
    | request r => exact hl i r rfl
    | _ => cases hr
  | @giveUp i call place hi hp =>
    have hquiet : place.requests = false ∧ place.unposted = [] := by
      cases call <;> cases hp <;> exact ⟨rfl, rfl⟩
    refine ho.place rfl rfl rfl rfl (fun hr => ?_) ?_
    · rw [hquiet.1] at hr
      cases hr
    · rw [hquiet.2]
      exact List.nil_sublist _
  | @arm i r first hi =>
    obtain rfl : i = q := ho.eq_of_requests (by rw [hi]; rfl)
    rw [restarts_append] at few
    exact ho.arm hc few hi
  | @accept i r first rest hi =>
    exact ho.place rfl rfl rfl rfl (fun _ => .inr (by rw [hi]; rfl)) (List.nil_sublist _)
  | @previewHeight i r first g hi =>
    exact ho.place rfl rfl rfl rfl (fun _ => .inr (by rw [hi]; rfl)) (by rw [hi]; exact .refl _)
  | @weldHeight i r first g hi =>
    exact ho.place rfl rfl rfl rfl (fun _ => .inr (by rw [hi]; rfl)) (by rw [hi]; exact .refl _)
  | @keepList i r first g hi =>
    exact ho.place rfl rfl rfl rfl (fun _ => .inr (by rw [hi]; rfl)) (List.nil_sublist _)
  | @postMove i r first g hi =>
    exact ho.place rfl rfl rfl rfl (fun _ => .inr (by rw [hi]; rfl)) (List.nil_sublist _)
  | @postList i r first g hi =>
    obtain rfl : i = q := ho.eq_of_requests (by rw [hi]; rfl)
    refine ho.fewer (fun j hj => ?_) ?_
    · rw [callers_setCaller, if_neg hj]
      exact ho.sole j hj
    · -- the job takes the place of whatever is in the slot
      simp only [way, callers_setCaller, if_true, hi, Caller.unposted, List.append_nil]
      exact ((List.sublist_append_left _ _).append_right _)
  | @listFetch job hlister _ hj =>
    refine ho.fewer ho.sole ?_
    simp [way, hlister, hj, Hand.inWork]
  | @list job hlister =>
    refine ho.fewer ho.sole ?_
    simp [way, hlister, Hand.inWork, listedIn, Deed.listed?]
  | listLeave hlister => exact ho.same rfl (by rw [hlister]; rfl) rfl rfl
  | listDone hlister => exact ho.same rfl (by rw [hlister]; rfl) rfl rfl
  | listFailed hlister => exact ho.same rfl (by rw [hlister]; rfl) rfl (listedIn_settle ..)
  | listReport hlister => exact ho.same rfl (by rw [hlister]; rfl) rfl rfl
  | moveFetch => exact ho.same rfl rfl rfl rfl
  | moveLeave => exact ho.same rfl rfl rfl rfl
  | move => exact ho.same rfl rfl rfl rfl
  | moveDone => exact ho.same rfl rfl rfl rfl
  | moveFailed => exact ho.same rfl rfl rfl (listedIn_settle ..)
  | moveReport => exact ho.same rfl rfl rfl rfl
  | startFetch => exact ho.same rfl rfl rfl rfl
  | startLeave => exact ho.same rfl rfl rfl rfl
  | pass => exact ho.same rfl rfl rfl rfl
  | turnBack => exact ho.same rfl rfl rfl rfl
  | giveIn => exact ho.same rfl rfl rfl rfl
  | start => exact ho.same rfl rfl rfl rfl
  | startReport => exact ho.same rfl rfl rfl rfl
  | _ => exact ho.place rfl rfl rfl rfl nofun (List.nil_sublist _)

end GalvoWeld.Cell
