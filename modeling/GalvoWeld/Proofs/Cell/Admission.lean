import GalvoWeld.Proofs.Cell.ListAtStart
import GalvoWeld.Proofs.Cell.Trail

/-!
# Admission of requests

However many callers there are, and whatever the order of the steps: the cell has at most one
request at a time, from its acceptance until the note of it is cleared, a request that is refused
leaves everything as it was, and no request starts the scanner twice.
-/

namespace GalvoWeld.Cell

/-! ### One request until the next clearing -/

/-- Keeps account of the requests that are not cleared. -/
def note (rs : List Request) : Deed → List Request
  | .cleared => []
  | .accepted r => rs ++ [r]
  | _ => rs

/-- The requests that were accepted since the last clearing. -/
def openRequests (h : List Deed) : List Request := h.foldl note []

theorem foldl_note (rs : List Request) {span : List Deed} (hspan : .cleared ∉ span) :
    span.foldl note rs = rs ++ acceptedIn span := by
  induction span generalizing rs with
  | nil => simp [acceptedIn]
  | cons d span ih =>
    have hrest : .cleared ∉ span := fun hm => hspan (List.mem_cons_of_mem d hm)
    rw [List.foldl_cons, ih _ hrest]
    cases d with
    | cleared => exact absurd (List.mem_cons_self ..) hspan
    | accepted r => simp [note, acceptedIn, Deed.accepted?]
    | _ => rfl

theorem openRequests_append (h : List Deed) {span : List Deed} (hspan : .cleared ∉ span) :
    openRequests (h ++ span) = openRequests h ++ acceptedIn span := by
  rw [openRequests, List.foldl_append, foldl_note _ hspan]
  rfl

variable {δ : Type} [Device δ]

/-- The cell has a note of the open requests. -/
def Noted (h : List Deed) (c : Cell δ) : Prop :=
  (openRequests h).map (·.data.seam) = c.requested.toList

omit [Device δ] in
theorem Noted.same {h ds : List Deed} {c next : Cell δ} (hn : Noted h c)
    (hrequested : next.requested = c.requested) (hclear : .cleared ∉ ds)
    (haccepted : acceptedIn ds = []) : Noted (h ++ ds) next := by
  rw [Noted, openRequests_append h hclear, haccepted, List.append_nil, hrequested]
  exact hn

theorem Noted.act {h ds : List Deed} {label : Label} {c next : Cell δ} (hn : Noted h c)
    (ha : Act c label ds next) : Noted (h ++ ds) next := by
  cases ha with
  | accept hi hp hnone =>
    rw [Noted, hnone, Option.toList_none, List.map_eq_nil_iff] at hn
    rw [Noted, openRequests_append h (by simp), hn]
    rfl
  | clear =>
    rw [Noted, openRequests, List.foldl_append]
    rfl
  | listFailed =>
    refine hn.same rfl (fun hm => ?_) (filterMap_settle rfl ..)
    cases eq_reset_of_settle hm
  | moveFailed =>
    refine hn.same rfl (fun hm => ?_) (filterMap_settle rfl ..)
    cases eq_reset_of_settle hm
  | _ => exact hn.same rfl (by simp) rfl

theorem noted_of_run {w : Welder δ} {labels : List Label} {c : Cell δ}
    (hrun : run (idle w) labels = some c) : Noted (history (idle w) labels) c := by
  have hstart : Noted [] (idle w) := rfl
  exact run_invariant (P := Noted) hrun hstart fun _ _ _ _ _ _ hn ha => hn.act ha

theorem Act.accepts {c next : Cell δ} {label : Label} {r : Request}
    (ha : Act c label [.accepted r] next) : c.requested = none := by
  generalize hds : [Deed.accepted r] = ds at ha
  cases ha with
  | accept _ _ hn => exact hn
  | listFailed => cases eq_reset_of_settle (hds ▸ List.mem_singleton_self (Deed.accepted r))
  | moveFailed => cases eq_reset_of_settle (hds ▸ List.mem_singleton_self (Deed.accepted r))
  | _ => cases hds

theorem accepted_between {w : Welder δ} {labels : List Label} {c : Cell δ}
    {early span late : List Deed} (hrun : run (idle w) labels = some c)
    (hsplit : history (idle w) labels = early ++ span ++ late) (hspan : .cleared ∉ span) :
    (acceptedIn span).length ≤ 1 := by
  match hacc : acceptedIn span with
  | [] => simp
  | [_] => simp
  | a :: b :: rest =>
    have htwo : acceptedIn span = [a] ++ b :: rest := hacc
    obtain ⟨front, back, rfl, hfront, hback⟩ := List.filterMap_eq_append_iff.1 htwo
    obtain ⟨between, d, after, rfl, -, hb, -⟩ := List.filterMap_eq_cons_iff.1 hback
    obtain rfl : d = .accepted b := by
      cases d <;> cases hb
      rfl
    -- when the second one was accepted nothing was noted, so that the first had been cleared
    have hbefore : history (idle w) labels =
        (early ++ (front ++ between)) ++ .accepted b :: (after ++ late) := by
      rw [hsplit]
      simp
    obtain ⟨first, label, later, mid, next, -, hfirst, -, hact, -, hhist, -⟩ :=
      run_split_single hrun hbefore rfl
    have hnoted := noted_of_run hfirst
    rw [Noted, hact.accepts, Option.toList_none, List.map_eq_nil_iff, hhist] at hnoted
    have hclear : .cleared ∉ front ++ between := fun hm => hspan (by
      rw [← List.append_assoc]
      exact List.mem_append_left _ hm)
    rw [openRequests_append early hclear, acceptedIn_append] at hnoted
    have hnone : acceptedIn front = [] := by
      simp only [List.append_eq_nil_iff] at hnoted
      exact hnoted.2.1
    rw [acceptedIn, hfront] at hnone
    cases hnone

/-! ### Refusals -/

/-- Why a request is refused. -/
inductive Refuses (c : Cell δ) (r : Request) : Fault → Prop where
  | empty (hp : r.figure.points = []) : Refuses c r .noWeldFigure
  | second {seam} (hp : r.figure.points ≠ []) (hn : c.requested = some seam) :
    Refuses c r (.alreadyRequested seam)

/-- A call of a request and all that was done since by anybody, from this cell on: the caller took
one step besides the call, and both changed nothing but where the caller is. -/
structure Refused (c : Cell δ) (i : Nat) (r : Request) (fault : Fault) (during : List Label) :
    Prop where
  called : step c (.call i (.request r)) = some (setCaller c i (.called (.request r)))
  answered : ∃ early mid late, during = early ++ .advance i :: late ∧
    .advance i ∉ early ∧ .advance i ∉ late ∧
    run (setCaller c i (.called (.request r))) early = some mid ∧ Refuses mid r fault ∧
    step mid (.advance i) = some (setCaller mid i (.returned (.error fault)))

variable {c next last : Cell δ} {labels during : List Label} {i : Nat}

theorem run_middle {front back : List Label} {label : Label}
    (hrun : run c (front ++ label :: back) = some last) :
    ∃ mid next, run c front = some mid ∧ step mid label = some next ∧
      run next back = some last := by
  rw [run_append] at hrun
  obtain ⟨mid, hfront, hrest⟩ := Option.bind_eq_some_iff.1 hrun
  obtain ⟨next, hs, hback⟩ := run_cons_eq_some.1 hrest
  exact ⟨mid, next, hfront, hs, hback⟩

/-- A caller that does nothing stays where it is. -/
theorem callers_of_run (hrun : run c labels = some last) (hcall : ∀ call, .call i call ∉ labels)
    (hadvance : .advance i ∉ labels) : last.callers i = c.callers i := by
  refine @run_invariant _ _ (fun _ d => d.callers i = c.callers i) c last labels [] hrun rfl ?_
  intro label hl _ d _ e hd ha
  rw [ha.callers_eq ?_ ?_, hd]
  · rintro call rfl
    exact hcall call hl
  · rintro rfl
    exact hadvance hl

/-- A caller that has returned takes no step of its call. -/
theorem not_advance_of_returned {result : Except Fault Unit} (hrun : run c labels = some last)
    (hi : c.callers i = .returned result) (hcall : ∀ call, .call i call ∉ labels) :
    .advance i ∉ labels := by
  intro hm
  obtain ⟨front, back, rfl, hfirst⟩ := List.eq_append_cons_of_mem hm
  obtain ⟨mid, next, hfront, hs, -⟩ := run_middle hrun
  have hcalls : ∀ call, .call i call ∉ front :=
    fun call hc => hcall call (List.mem_append_left _ hc)
  have hplace := callers_of_run hfront hcalls hfirst
  rw [hi] at hplace
  simp [step, advance?, hplace] at hs

/-- A request that was accepted is on its way, or the call has succeeded. -/
def Caller.Accepted (place : Caller) : Prop :=
  place.errand? ≠ none ∨ place = .returned (.ok ())

theorem Act.keeps_accepted {label : Label} {ds : List Deed} (ha : Act c label ds next)
    (hi : (c.callers i).Accepted) (hcall : ∀ call, label ≠ .call i call) :
    (next.callers i).Accepted := by
  by_cases hown : label = .advance i
  · subst hown
    cases ha <;> simp_all [Caller.Accepted, Caller.errand?]
  · rw [ha.callers_eq hcall hown]
    exact hi

theorem accepted_of_run (hrun : run c labels = some last) (hi : (c.callers i).Accepted)
    (hcall : ∀ call, .call i call ∉ labels) : (last.callers i).Accepted := by
  refine @run_invariant _ _ (fun _ d => (d.callers i).Accepted) c last labels [] hrun hi ?_
  intro label hl _ d _ e hd ha
  refine ha.keeps_accepted hd ?_
  rintro call rfl
  exact hcall call hl

/-- What the first step of a request comes to. -/
theorem Act.answers {ds : List Deed} {r : Request} (ha : Act c (.advance i) ds next)
    (hi : c.callers i = .called (.request r)) :
    (next.callers i).Accepted ∨
      ∃ fault, Refuses c r fault ∧ next = setCaller c i (.returned (.error fault)) := by
  cases ha with
  | accept => exact .inl (.inl (by simp [Caller.errand?]))
  | refuseEmpty hi' hp =>
    cases hi.symm.trans hi'
    exact .inr ⟨_, .empty hp, rfl⟩
  | refuseSecond hi' hp hn =>
    cases hi.symm.trans hi'
    exact .inr ⟨_, .second hp hn, rfl⟩
  | giveUp hi' hc =>
    cases hi.symm.trans hi'
    cases hc
  | _ => simp_all

theorem refused_of_error {r : Request} {fault : Fault}
    (hrun : run c (.call i (.request r) :: during) = some last)
    (hcall : ∀ call, .call i call ∉ during) (herror : last.callers i = .returned (.error fault)) :
    Refused c i r fault during := by
  obtain ⟨begun, hbegin, hrest⟩ := run_cons_eq_some.1 hrun
  have hplace : begun = setCaller c i (.called (.request r)) := by
    cases act_of_step hbegin with
    | call => rfl
  subst hplace
  refine ⟨hbegin, ?_⟩
  have hbegan : (setCaller c i (.called (.request r))).callers i = .called (.request r) := by simp
  -- the call has returned, so that the caller took a step
  have hm : .advance i ∈ during := by
    by_contra hnone
    have hstill := callers_of_run hrest hcall hnone
    rw [herror, hbegan] at hstill
    cases hstill
  obtain ⟨early, late, rfl, hearly⟩ := List.eq_append_cons_of_mem hm
  have hcallEarly : ∀ call, .call i call ∉ early :=
    fun call hc => hcall call (List.mem_append_left _ hc)
  have hcallLate : ∀ call, .call i call ∉ late :=
    fun call hc => hcall call (List.mem_append_right _ (List.mem_cons_of_mem _ hc))
  obtain ⟨mid, next, hmid, hs, hlate⟩ := run_middle hrest
  have hwaits : mid.callers i = .called (.request r) := by
    rw [callers_of_run hmid hcallEarly hearly, hbegan]
  rcases (act_of_step hs).answers hwaits with haccepted | ⟨fault', hrefuses, rfl⟩
  · have hend := accepted_of_run hlate haccepted hcallLate
    rw [herror] at hend
    rcases hend with hcharged | hok
    · exact absurd rfl hcharged
    · cases hok
  · have hreturned : (setCaller mid i (.returned (.error fault'))).callers i =
        .returned (.error fault') := by simp
    have hnone := not_advance_of_returned hlate hreturned hcallLate
    have hend := callers_of_run hlate hcallLate hnone
    rw [herror, hreturned] at hend
    obtain rfl : fault = fault' := by
      cases hend
      rfl
    exact ⟨early, mid, late, rfl, hearly, hnone, hmid, hrefuses, hs⟩

/-! ### Admission -/

/-- Between two clearings at most one request is accepted; a request that ends with a fault was
refused with everything left as it was; and the starts come of accepted requests of different
numbers, with the start job that the request has in the generation in which it armed the gate. -/
theorem one_start_a_request {w : Welder δ} {labels : List Label} {c : Cell δ}
    (hrun : run (idle w) labels = some c) :
    (∀ early span late, history (idle w) labels = early ++ span ++ late → .cleared ∉ span →
      (acceptedIn span).length ≤ 1) ∧
    (∀ front during i r fault, labels = front ++ .call i (.request r) :: during →
      (∀ call, .call i call ∉ during) → c.callers i = .returned (.error fault) →
      ∃ c₀, run (idle w) front = some c₀ ∧ Refused c₀ i r fault during) ∧
    (trail (idle w) {} labels).started.Nodup ∧
    List.Forall₂ (fun n job => ∃ r first, (acceptedIn (history (idle w) labels))[n]? = some r ∧
        .armed r first job.generation ∈ history (idle w) labels ∧
        job = r.startJob job.generation)
      (trail (idle w) {} labels).started (startedIn (history (idle w) labels)) := by
  have ht := tracked_of_run hrun (Tracked.init w)
  refine ⟨fun early span late hsplit hspan => accepted_between hrun hsplit hspan, ?_,
    ht.once, ht.matched⟩
  intro front during i r fault hlabels hcall herror
  subst hlabels
  rw [run_append] at hrun
  obtain ⟨c₀, hfront, hrest⟩ := Option.bind_eq_some_iff.1 hrun
  exact ⟨c₀, hfront, refused_of_error hrest hcall herror⟩

/-! On the bench, two callers request a seam, the second one while the request of the first is on
its way. -/

def benchRequested : List Label := callSteps 0 (.request (benchRequest .weld false)) 6

/-- What is done from the call of the second one on, until the scanner is started. -/
def benchRivalry : List Label :=
  .advance 1 :: callSteps 0 .heightDone 1 ++ List.replicate 3 .lister ++ List.replicate 3 .mover ++
    List.replicate 3 .starter

def benchRivals : List Label :=
  benchRequested ++ .call 1 (.request (benchRequest .weld false)) :: benchRivalry

def benchRivalDeeds : List Deed :=
  let r := benchRequest .weld false
  [.began 0 (.request r), .accepted r, .armed r benchPoint 1, .ended 0 (.ok ()),
    .began 1 (.request r), .ended 1 (.error (.alreadyRequested 0)), .began 0 .heightDone,
    .heightDone, .ended 0 (.ok ()), .listed (r.listJob 1) (.ok ()),
    .moved (r.moveJob benchPoint 1) (.ok ()), .started ⟨1, 0⟩ (.ok ())]

/-- On the bench, the first of two requests starts the scanner, and the second one is refused. -/
theorem bench_one_start :
    ∃ c c₀, run bench benchRivals = some c ∧ run bench benchRequested = some c₀ ∧
      (acceptedIn (history bench benchRivals)).length ≤ 1 ∧
      c.callers 1 = .returned (.error (.alreadyRequested 0)) ∧
      Refused c₀ 1 (benchRequest .weld false) (.alreadyRequested 0) benchRivalry ∧
      (trail bench {} benchRivals).started = [0] ∧ [0].Nodup ∧
      startedIn (history bench benchRivals) = [⟨1, 0⟩] := by
  obtain ⟨c, hrun⟩ : ∃ c, run bench benchRivals = some c := Option.isSome_iff_exists.1 rfl
  have hhist : history bench benchRivals = benchRivalDeeds := rfl
  have hclear : .cleared ∉ history bench benchRivals := by
    rw [hhist]
    simp [benchRivalDeeds]
  have herror : c.callers 1 = .returned (.error (.alreadyRequested 0)) := by
    cases hrun
    rfl
  have hstarted : (trail bench {} benchRivals).started = [0] := rfl
  obtain ⟨hone, hrefused, honce, -⟩ := one_start_a_request hrun
  obtain ⟨c₀, hfront, hsecond⟩ := hrefused benchRequested benchRivalry 1 _ _ rfl (by
    simp [benchRivalry, callSteps]) herror
  have hshort := hone [] (history bench benchRivals) [] (by simp [bench]) hclear
  exact ⟨c, c₀, hrun, hfront, hshort, herror, hsecond, hstarted, hstarted ▸ honce, rfl⟩

end GalvoWeld.Cell
