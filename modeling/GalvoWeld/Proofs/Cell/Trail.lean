import Mathlib.Data.List.Forall2
import Mathlib.Data.List.Nodup
import Mathlib.Logic.Function.Basic
import GalvoWeld.Proofs.Cell.Jobs

/-!
# Requests and their starts

The accepted requests of a run are numbered in their order. A number goes along with what comes of
its request: it is with the caller at first, with the start job in the slot and at the starter, and
with the start of the scanner in the end. A bearer that hands its charge on keeps no job of its own,
so that no number comes to two starts.
-/

namespace GalvoWeld.Cell

/-! ### Accepted requests and starts in a history -/

def Deed.accepted? : Deed → Option Request
  | .accepted r => some r
  | _ => none

/-- The requests that were accepted. -/
def acceptedIn (h : List Deed) : List Request := h.filterMap Deed.accepted?

def Deed.started? : Deed → Option StartJob
  | .started job _ => some job
  | _ => none

/-- The jobs for which the scanner was started. -/
def startedIn (h : List Deed) : List StartJob := h.filterMap Deed.started?

@[simp] theorem acceptedIn_append (h ds : List Deed) :
    acceptedIn (h ++ ds) = acceptedIn h ++ acceptedIn ds := List.filterMap_append ..

@[simp] theorem startedIn_append (h ds : List Deed) :
    startedIn (h ++ ds) = startedIn h ++ startedIn ds := List.filterMap_append ..

/-! ### Bearers and trails -/

/-- Who may have charge of a request or of its start job. -/
inductive Bearer where
  | caller (i : Nat)
  | slot
  | starter
deriving DecidableEq

/-- Which of the accepted requests, by their numbers, have come where. -/
structure Trail where
  /-- How many requests were accepted. -/
  accepted : Nat := 0
  /-- The request that a bearer was charged with last. -/
  number : Bearer → Nat := fun _ => 0
  /-- The requests that the scanner was started for. -/
  started : List Nat := []

namespace Trail

/-- A caller draws the next number. -/
def accept (t : Trail) (i : Nat) : Trail :=
  { t with
    accepted := t.accepted + 1
    number := Function.update t.number (.caller i) t.accepted }

/-- A job is handed on. The number is copied, and stays with who had it. -/
def copy (t : Trail) (a b : Bearer) : Trail :=
  { t with number := Function.update t.number b (t.number a) }

/-- The starter starts the scanner. -/
def start (t : Trail) : Trail := { t with started := t.started ++ [t.number .starter] }

@[simp] theorem number_accept_self (t : Trail) (i : Nat) :
    (t.accept i).number (.caller i) = t.accepted := Function.update_self ..

theorem number_accept_of_ne (t : Trail) {i : Nat} {b : Bearer} (hb : b ≠ .caller i) :
    (t.accept i).number b = t.number b := Function.update_of_ne hb ..

@[simp] theorem number_copy_self (t : Trail) (a b : Bearer) :
    (t.copy a b).number b = t.number a := Function.update_self ..

theorem number_copy_of_ne (t : Trail) (a : Bearer) {b d : Bearer} (hd : d ≠ b) :
    (t.copy a b).number d = t.number d := Function.update_of_ne hd ..

end Trail

/-! ### Errands -/

/-- What a bearer has charge of: a request for which the gate is not armed, or the start job of a
request for which it is. -/
inductive Errand where
  | pending (r : Request)
  | issued (job : StartJob)

def Caller.errand? : Caller → Option Errand
  | .claimed r _ => some (.pending r)
  | .armed r _ g => some (.issued (r.startJob g))
  | .heightSettled r _ g => some (.issued (r.startJob g))
  | .listPosted r _ g => some (.issued (r.startJob g))
  | .movePosted r g => some (.issued (r.startJob g))
  | _ => none

def Starter.errand? : Starter → Option Errand
  | .waiting job => some (.issued job)
  | .admitted job => some (.issued job)
  | _ => none

variable {δ : Type}

def errand? (c : Cell δ) : Bearer → Option Errand
  | .caller i => (c.callers i).errand?
  | .slot => c.startSlot.job.map .issued
  | .starter => c.starter.errand?

theorem errand?_setCaller (c : Cell δ) (i : Nat) (place : Caller) :
    errand? (setCaller c i place) (.caller i) = place.errand? := by
  simp [errand?]

theorem errand?_setCaller_of_ne {c : Cell δ} {i : Nat} {place : Caller} {b : Bearer}
    (hb : b ≠ .caller i) : errand? (setCaller c i place) b = errand? c b := by
  cases b with
  | caller j =>
    have hne : j ≠ i := fun hij => hb (by rw [hij])
    simp [errand?, hne]
  | slot => rfl
  | starter => rfl

/-- A caller that has no charge then, or the one it had, brings up no errand. -/
theorem kept_setCaller {c : Cell δ} {i : Nat} {place : Caller}
    (hplace : place.errand? = none ∨ place.errand? = (c.callers i).errand?) (b : Bearer)
    (e : Errand) (he : errand? (setCaller c i place) b = some e) : errand? c b = some e := by
  by_cases hb : b = .caller i
  · subst hb
    rw [errand?_setCaller] at he
    rcases hplace with hnone | hsame
    · cases hnone.symm.trans he
    · exact hsame.symm.trans he
  · exact (errand?_setCaller_of_ne hb).symm.trans he

/-- A starter without a charge brings up no errand. -/
theorem kept_starter {c : Cell δ} {starter : Starter} (hs : starter.errand? = none) (b : Bearer)
    (e : Errand) (he : errand? { c with starter } b = some e) : errand? c b = some e := by
  cases b with
  | caller i => exact he
  | slot => exact he
  | starter => cases hs.symm.trans he

/-! ### Trails of runs -/

variable [Device δ]

/-- The trail after a step of this cell. -/
def Trail.next (t : Trail) (c : Cell δ) : Label → Trail
  | .advance i =>
    match c.callers i with
    | .called (.request r) =>
      if r.figure.points.isEmpty || c.requested.isSome then t else t.accept i
    | .movePosted .. => t.copy (.caller i) .slot
    | _ => t
  | .starter =>
    match c.starter with
    | .parked => if c.startSlot.closed then t else t.copy .slot .starter
    | .admitted _ => t.start
    | _ => t
  | _ => t

/-- The trail after a run. -/
def trail (c : Cell δ) (t : Trail) : List Label → Trail
  | [] => t
  | label :: rest => (step c label).elim t fun next => trail next (t.next c label) rest

/-- What a step does with errands: they stay or go, or one comes up, turns from a request into a
job, is handed on, or is done. -/
inductive Handing (c : Cell δ) (t : Trail) : List Deed → Cell δ → Trail → Prop where
  | keep {ds next} (haccepted : acceptedIn ds = []) (hstarted : startedIn ds = [])
      (hkept : ∀ b e, errand? next b = some e → errand? c b = some e) :
    Handing c t ds next t
  | accept {i r next} (hnew : errand? next (.caller i) = some (.pending r))
      (hkept : ∀ b, b ≠ .caller i → errand? next b = errand? c b) :
    Handing c t [.accepted r] next (t.accept i)
  | arm {i r f g next} (hold : errand? c (.caller i) = some (.pending r))
      (hnew : errand? next (.caller i) = some (.issued (r.startJob g)))
      (hkept : ∀ b, b ≠ .caller i → errand? next b = errand? c b) :
    Handing c t [.armed r f g] next t
  | copy {a b ds next} (haccepted : acceptedIn ds = []) (hstarted : startedIn ds = [])
      (hgone : errand? next a = none) (hto : errand? next b = errand? c a)
      (hkept : ∀ d, d ≠ a → d ≠ b → errand? next d = errand? c d) :
    Handing c t ds next (t.copy a b)
  | start {job result next} (hold : errand? c .starter = some (.issued job))
      (hgone : errand? next .starter = none)
      (hkept : ∀ b, b ≠ .starter → errand? next b = errand? c b) :
    Handing c t [.started job result] next t.start

omit [Device δ] in
theorem errand?_afterFault (seam : Nat) (fault : Fault) :
    (afterFault seam fault).errand? = none := by
  cases fault <;> rfl

theorem Act.handing {label : Label} {ds : List Deed} {c next : Cell δ} (ha : Act c label ds next)
    (t : Trail) : Handing c t ds next (t.next c label) := by
  cases ha with
  | call => exact .keep rfl rfl (kept_setCaller (.inl rfl))
  | @giveUp i call place hi hc =>
    have hsame : t.next c (.advance i) = t := by
      cases call <;> simp_all [Trail.next, Call.afterReset?]
    have hplace : place.errand? = none := by
      cases call <;> cases hc <;> rfl
    rw [hsame]
    exact .keep rfl rfl (kept_setCaller (.inl hplace))
  | @accept i r first rest hi hp hn =>
    have hdraw : t.next c (.advance i) = t.accept i := by
      simp [Trail.next, hi, hp, hn]
    rw [hdraw]
    exact .accept (errand?_setCaller ..) fun b hb => errand?_setCaller_of_ne hb
  | @arm i r first hi =>
    have hsame : t.next c (.advance i) = t := by simp [Trail.next, hi]
    have hold : errand? c (.caller i) = some (.pending r) := by simp [errand?, hi, Caller.errand?]
    rw [hsame]
    exact .arm hold (errand?_setCaller ..) fun b hb => errand?_setCaller_of_ne hb
  | @postStart i r g hi =>
    have hcopy : t.next c (.advance i) = t.copy (.caller i) .slot := by simp [Trail.next, hi]
    rw [hcopy]
    refine .copy rfl rfl (errand?_setCaller ..) ?_ ?_
    · simp [errand?, hi, Caller.errand?, setCaller, Slot.post]
    · intro b hcaller hslot
      rw [errand?_setCaller_of_ne hcaller]
      cases b with
      | slot => exact absurd rfl hslot
      | _ => rfl
  | startFetch hs hc hj =>
    have hcopy : t.next c .starter = t.copy .slot .starter := by simp [Trail.next, hs, hc]
    rw [hcopy]
    refine .copy rfl rfl rfl ?_ ?_
    · simp [errand?, hj, Starter.errand?]
    · intro b hslot hstarter
      cases b with
      | slot => exact absurd rfl hslot
      | starter => exact absurd rfl hstarter
      | caller => rfl
  | startLeave hs hc =>
    have hsame : t.next c .starter = t := by simp [Trail.next, hs, hc]
    rw [hsame]
    exact .keep rfl rfl (kept_starter rfl)
  | @start job hs =>
    have hnext : t.next c .starter = t.start := by simp [Trail.next, hs]
    rw [hnext]
    refine .start ?_ ?_ ?_
    · simp [errand?, hs, Starter.errand?]
    · cases hr : c.welder.startMark.1 with
      | ok => simp [errand?, Starter.errand?]
      | error fault => simp [errand?, errand?_afterFault]
    · intro b hb
      cases b with
      | starter => exact absurd rfl hb
      | _ => rfl
  | pass hs =>
    have hsame : t.next c .starter = t := by simp [Trail.next, hs]
    rw [hsame]
    refine .keep rfl rfl fun b e he => ?_
    cases b with
    | starter => simpa [errand?, hs, Starter.errand?] using he
    | _ => exact he
  | turnBack hs =>
    have hsame : t.next c .starter = t := by simp [Trail.next, hs]
    rw [hsame]
    exact .keep rfl rfl (kept_starter (errand?_afterFault ..))
  | giveIn => exact .keep rfl rfl (kept_starter (errand?_afterFault ..))
  | startReport hs =>
    have hsame : t.next c .starter = t := by simp [Trail.next, hs]
    rw [hsame]
    exact .keep rfl rfl (kept_starter rfl)
  | listFailed => exact .keep (filterMap_settle rfl ..) (filterMap_settle rfl ..) fun _ _ he => he
  | moveFailed => exact .keep (filterMap_settle rfl ..) (filterMap_settle rfl ..) fun _ _ he => he
  | listFetch | listLeave | list | listDone | listReport =>
    exact .keep rfl rfl fun _ _ he => he
  | moveFetch | moveLeave | move | moveDone | moveReport =>
    exact .keep rfl rfl fun _ _ he => he
  | previewHeight hi | weldHeight hi | keepList hi | postList hi | postMove hi =>
    simp only [Trail.next, hi]
    exact .keep rfl rfl (kept_setCaller (.inr (congrArg Caller.errand? hi).symm))
  | refuseEmpty hi hp =>
    simp only [Trail.next, hi, hp, List.isEmpty_nil, Bool.true_or, if_true]
    exact .keep rfl rfl (kept_setCaller (.inl rfl))
  | refuseSecond hi hp hn =>
    simp only [Trail.next, hi, hn, Option.isSome_some, Bool.or_true, if_true]
    exact .keep rfl rfl (kept_setCaller (.inl rfl))
  | heightDone hi | shutAgain hi | closeList hi | clear hi | stop hi | closeMove hi | closeStart hi
    | cancel hi | join hi =>
    simp only [Trail.next, hi]
    exact .keep rfl rfl (kept_setCaller (.inl rfl))

/-! ### One start for each number -/

/-- What a bearer has charge of comes of the request with this number. -/
def Errand.StemsFrom (h : List Deed) (n : Nat) : Errand → Prop
  | .pending r => (acceptedIn h)[n]? = some r
  | .issued job => ∃ r first, (acceptedIn h)[n]? = some r ∧ .armed r first job.generation ∈ h ∧
      job = r.startJob job.generation

theorem accepted_later {h : List Deed} {n : Nat} {r : Request}
    (hr : (acceptedIn h)[n]? = some r) (ds : List Deed) :
    (acceptedIn (h ++ ds))[n]? = some r := by
  obtain ⟨hlt, -⟩ := List.getElem?_eq_some_iff.1 hr
  rw [acceptedIn_append, List.getElem?_append_left hlt]
  exact hr

theorem Errand.StemsFrom.later {h : List Deed} {n : Nat} {e : Errand} (he : e.StemsFrom h n)
    (ds : List Deed) : e.StemsFrom (h ++ ds) n := by
  cases e with
  | pending r => exact accepted_later he ds
  | issued job =>
    obtain ⟨r, first, hr, harmed, hjob⟩ := he
    exact ⟨r, first, accepted_later hr ds, List.mem_append_left _ harmed, hjob⟩

theorem Errand.StemsFrom.lt {h : List Deed} {n : Nat} {e : Errand} (he : e.StemsFrom h n) :
    n < (acceptedIn h).length := by
  cases e with
  | pending r => exact (List.getElem?_eq_some_iff.1 he).1
  | issued job =>
    obtain ⟨r, first, hr, -⟩ := he
    exact (List.getElem?_eq_some_iff.1 hr).1

/-- The starts of a history and the numbers of the requests that they come of. -/
def Matched (h : List Deed) (numbers : List Nat) (jobs : List StartJob) : Prop :=
  List.Forall₂ (fun n job => (Errand.issued job).StemsFrom h n) numbers jobs

theorem Matched.later {h : List Deed} {numbers : List Nat} {jobs : List StartJob}
    (hm : Matched h numbers jobs) (ds : List Deed) : Matched (h ++ ds) numbers jobs :=
  List.Forall₂.imp (fun _ _ hs => hs.later ds) hm

theorem Matched.same {h ds : List Deed} {numbers : List Nat}
    (hm : Matched h numbers (startedIn h)) (hnone : startedIn ds = []) :
    Matched (h ++ ds) numbers (startedIn (h ++ ds)) := by
  rw [startedIn_append, hnone, List.append_nil]
  exact hm.later ds

theorem Matched.lt {h : List Deed} {numbers : List Nat} {jobs : List StartJob}
    (hm : Matched h numbers jobs) {n : Nat} (hn : n ∈ numbers) : n < (acceptedIn h).length := by
  induction hm with
  | nil => cases hn
  | cons hhead _ ih =>
    rcases List.mem_cons.1 hn with rfl | htail
    · exact hhead.lt
    · exact ih htail

/-- No two bearers have charge of one request, and none has charge of one that was started. -/
structure Tracked (h : List Deed) (t : Trail) (c : Cell δ) : Prop where
  accepted : t.accepted = (acceptedIn h).length
  stems : ∀ b e, errand? c b = some e → e.StemsFrom h (t.number b)
  apart : ∀ a b, errand? c a ≠ none → errand? c b ≠ none → t.number a = t.number b → a = b
  unspent : ∀ b, errand? c b ≠ none → t.number b ∉ t.started
  once : t.started.Nodup
  matched : Matched h t.started (startedIn h)

section
variable {h ds : List Deed} {t : Trail} {c next : Cell δ}

omit [Device δ]

theorem Tracked.init (w : Welder δ) : Tracked [] {} (idle w) where
  accepted := rfl
  stems b e he := by cases b <;> cases he
  apart a _ ha := by cases a <;> exact absurd rfl ha
  unspent b hb := by cases b <;> exact absurd rfl hb
  once := List.nodup_nil
  matched := List.Forall₂.nil

theorem Tracked.lt (ht : Tracked h t c) {b : Bearer} (hb : errand? c b ≠ none) :
    t.number b < t.accepted := by
  obtain ⟨e, he⟩ := Option.ne_none_iff_exists'.1 hb
  rw [ht.accepted]
  exact (ht.stems b e he).lt

theorem Tracked.keep (ht : Tracked h t c) (haccepted : acceptedIn ds = [])
    (hstarted : startedIn ds = [])
    (hkept : ∀ b e, errand? next b = some e → errand? c b = some e) :
    Tracked (h ++ ds) t next := by
  have hcharged : ∀ b, errand? next b ≠ none → errand? c b ≠ none := by
    intro b hb
    obtain ⟨e, he⟩ := Option.ne_none_iff_exists'.1 hb
    simp [hkept b e he]
  exact {
    accepted := by rw [acceptedIn_append, haccepted, List.append_nil, ht.accepted]
    stems := fun b e he => (ht.stems b e (hkept b e he)).later ds
    apart := fun a b ha hb => ht.apart a b (hcharged a ha) (hcharged b hb)
    unspent := fun b hb => ht.unspent b (hcharged b hb)
    once := ht.once
    matched := ht.matched.same hstarted }

theorem Tracked.accept (ht : Tracked h t c) {i : Nat} {r : Request}
    (hnew : errand? next (.caller i) = some (.pending r))
    (hkept : ∀ b, b ≠ .caller i → errand? next b = errand? c b) :
    Tracked (h ++ [.accepted r]) (t.accept i) next where
  accepted := by rw [acceptedIn_append, List.length_append, ← ht.accepted]; rfl
  stems b e he := by
    by_cases hb : b = .caller i
    · subst hb
      obtain rfl : Errand.pending r = e := Option.some.inj (hnew.symm.trans he)
      rw [Trail.number_accept_self, ht.accepted]
      simp [Errand.StemsFrom, acceptedIn, Deed.accepted?]
    · rw [t.number_accept_of_ne hb]
      exact (ht.stems b e ((hkept b hb).symm.trans he)).later _
  apart a b ha hb hsame := by
    -- the number of the new request is above all others
    by_cases hai : a = .caller i <;> by_cases hbi : b = .caller i
    · rw [hai, hbi]
    · have hlt := ht.lt (hkept b hbi ▸ hb)
      rw [hai, Trail.number_accept_self, t.number_accept_of_ne hbi] at hsame
      omega
    · have hlt := ht.lt (hkept a hai ▸ ha)
      rw [hbi, Trail.number_accept_self, t.number_accept_of_ne hai] at hsame
      omega
    · rw [t.number_accept_of_ne hai, t.number_accept_of_ne hbi] at hsame
      exact ht.apart a b (hkept a hai ▸ ha) (hkept b hbi ▸ hb) hsame
  unspent b hb hm := by
    by_cases hbi : b = .caller i
    · rw [hbi, Trail.number_accept_self] at hm
      have hlt := ht.matched.lt hm
      rw [ht.accepted] at hlt
      exact Nat.lt_irrefl _ hlt
    · rw [t.number_accept_of_ne hbi] at hm
      exact ht.unspent b (hkept b hbi ▸ hb) hm
  once := ht.once
  matched := ht.matched.same rfl

theorem Tracked.arm (ht : Tracked h t c) {i : Nat} {r : Request} {f : FigurePoint} {g : UInt64}
    (hold : errand? c (.caller i) = some (.pending r))
    (hnew : errand? next (.caller i) = some (.issued (r.startJob g)))
    (hkept : ∀ b, b ≠ .caller i → errand? next b = errand? c b) :
    Tracked (h ++ [.armed r f g]) t next := by
  have hcharged : ∀ b, errand? next b ≠ none → errand? c b ≠ none := by
    intro b hb
    by_cases hbi : b = .caller i
    · simp [hbi, hold]
    · exact hkept b hbi ▸ hb
  exact {
    accepted := by rw [acceptedIn_append, List.length_append, ← ht.accepted]; rfl
    stems := by
      intro b e he
      by_cases hbi : b = .caller i
      · subst hbi
        obtain rfl : Errand.issued (r.startJob g) = e := Option.some.inj (hnew.symm.trans he)
        have hr : (acceptedIn h)[t.number (.caller i)]? = some r := ht.stems _ _ hold
        exact ⟨r, f, accepted_later hr _, List.mem_append_right _ (List.mem_singleton_self _), rfl⟩
      · exact (ht.stems b e ((hkept b hbi).symm.trans he)).later _
    apart := fun a b ha hb => ht.apart a b (hcharged a ha) (hcharged b hb)
    unspent := fun b hb => ht.unspent b (hcharged b hb)
    once := ht.once
    matched := ht.matched.same rfl }

theorem Tracked.copy (ht : Tracked h t c) {a b : Bearer} (haccepted : acceptedIn ds = [])
    (hstarted : startedIn ds = []) (hgone : errand? next a = none)
    (hto : errand? next b = errand? c a)
    (hkept : ∀ d, d ≠ a → d ≠ b → errand? next d = errand? c d) :
    Tracked (h ++ ds) (t.copy a b) next := by
  -- who has a charge had it before, or has it of the bearer that has none any more
  have hfrom : ∀ d, errand? next d ≠ none → ∃ d', errand? c d' = errand? next d ∧
      (t.copy a b).number d = t.number d' ∧ (d = b ∧ d' = a ∨ d ≠ b ∧ d' = d ∧ d ≠ a) := by
    intro d hd
    by_cases hdb : d = b
    · subst hdb
      exact ⟨a, hto.symm, t.number_copy_self a d, .inl ⟨rfl, rfl⟩⟩
    · have hda : d ≠ a := fun hda => hd (hda ▸ hgone)
      exact ⟨d, (hkept d hda hdb).symm, t.number_copy_of_ne a hdb, .inr ⟨hdb, rfl, hda⟩⟩
  exact {
    accepted := by
      rw [acceptedIn_append, haccepted, List.append_nil, ← ht.accepted]
      rfl
    stems := by
      intro d e he
      obtain ⟨d', hsame, hnumber, -⟩ := hfrom d (by simp [he])
      rw [hnumber]
      exact (ht.stems d' e (hsame.trans he)).later ds
    apart := by
      intro d e hd he hnumbers
      obtain ⟨d', hd', hnd, hdcase⟩ := hfrom d hd
      obtain ⟨e', he', hne, hecase⟩ := hfrom e he
      have hsame : d' = e' :=
        ht.apart d' e' (hd' ▸ hd) (he' ▸ he) (hnd.symm.trans (hnumbers.trans hne))
      grind
    unspent := by
      intro d hd
      obtain ⟨d', hd', hnumber, -⟩ := hfrom d hd
      rw [hnumber]
      exact ht.unspent d' (hd' ▸ hd)
    once := ht.once
    matched := ht.matched.same hstarted }

theorem Tracked.start (ht : Tracked h t c) {job : StartJob} {result : Except Fault Unit}
    (hold : errand? c .starter = some (.issued job)) (hgone : errand? next .starter = none)
    (hkept : ∀ b, b ≠ .starter → errand? next b = errand? c b) :
    Tracked (h ++ [.started job result]) t.start next := by
  have hcharged : ∀ b, errand? next b ≠ none → b ≠ .starter ∧ errand? c b ≠ none := by
    intro b hb
    have hne : b ≠ .starter := fun hbs => hb (hbs ▸ hgone)
    exact ⟨hne, hkept b hne ▸ hb⟩
  have hstarter : errand? c .starter ≠ none := by simp [hold]
  exact {
    accepted := by rw [acceptedIn_append, List.length_append, ← ht.accepted]; rfl
    stems := by
      intro b e he
      have hne := (hcharged b (by simp [he])).1
      exact (ht.stems b e ((hkept b hne).symm.trans he)).later _
    apart := fun a b ha hb => ht.apart a b (hcharged a ha).2 (hcharged b hb).2
    unspent := by
      intro b hb hm
      obtain ⟨hne, hc⟩ := hcharged b hb
      rcases List.mem_append.1 hm with hearly | hnow
      · exact ht.unspent b hc hearly
      · exact hne (ht.apart b .starter hc hstarter (List.mem_singleton.1 hnow))
    once := by
      have hfresh := ht.unspent .starter hstarter
      have honce := ht.once.concat hfresh
      rwa [List.concat_eq_append] at honce
    matched := by
      have hjob := (ht.stems _ _ hold).later [.started job result]
      rw [startedIn_append]
      exact List.rel_append (ht.matched.later _) (.cons hjob .nil) }

theorem Tracked.handing {t' : Trail} (ht : Tracked h t c) (hh : Handing c t ds next t') :
    Tracked (h ++ ds) t' next := by
  cases hh with
  | keep haccepted hstarted hkept => exact ht.keep haccepted hstarted hkept
  | accept hnew hkept => exact ht.accept hnew hkept
  | arm hold hnew hkept => exact ht.arm hold hnew hkept
  | copy haccepted hstarted hgone hto hkept => exact ht.copy haccepted hstarted hgone hto hkept
  | start hold hgone hkept => exact ht.start hold hgone hkept

end

theorem tracked_of_run {before : List Deed} {t : Trail} {c last : Cell δ} {labels : List Label}
    (hrun : run c labels = some last) (ht : Tracked before t c) :
    Tracked (before ++ history c labels) (trail c t labels) last := by
  induction labels generalizing before t c with
  | nil =>
    obtain rfl : c = last := by simpa [run] using hrun
    simpa [history, trail] using ht
  | cons label rest ih =>
    obtain ⟨next, hs, hrest⟩ := run_cons_eq_some.1 hrun
    have hnext := ht.handing ((act_of_step hs).handing t)
    simpa [history, trail, hs] using ih hrest hnext

end GalvoWeld.Cell
