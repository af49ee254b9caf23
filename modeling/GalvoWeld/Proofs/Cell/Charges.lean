import Mathlib.Data.List.Basic
import Mathlib.Logic.Equiv.Basic
import GalvoWeld.Proofs.Cell.ListOrder
import GalvoWeld.Proofs.Cell.Reports

/-!
# One job in a generation

The job that a worker is to do for a request is with the caller that will post it, in the slot, or
in the hand of the worker, and goes from one to the next. Two of them never have jobs of one
generation, whoever makes the calls, so that a worker does no more than one job in it.
-/

namespace GalvoWeld.Cell

/-! ### Holders of jobs -/

/-- Where a job is before it is done. -/
inductive Holder where
  | caller (i : Nat)
  | slot
  | hand
deriving DecidableEq

/-- The generation in which a caller has yet to post a move job. -/
def Caller.unmoved? : Caller → Option Nat
  | .armed _ _ g => some g.toNat
  | .heightSettled _ _ g => some g.toNat
  | .listPosted _ _ g => some g.toNat
  | _ => none

def Deed.moved? : Deed → Option Nat
  | .moved job _ => some job.generation.toNat
  | _ => none

/-- A worker together with the callers that post its jobs. -/
structure Station (α : Type) extends Desk α where
  /-- The generation of a job that a caller will post. -/
  unposted? : Caller → Option Nat
  /-- The generation of a job that is done. -/
  done? : Deed → Option Nat
  done?_done : ∀ job result, done? (done job result) = some (generation job).toNat

def listStation : Station ListJob where
  toDesk := listDesk
  unposted? place := place.unposted.head?
  done? := Deed.listed?
  done?_done _ _ := rfl

def moveStation : Station MoveJob where
  toDesk := moveDesk
  unposted? := Caller.unmoved?
  done? := Deed.moved?
  done?_done _ _ := rfl

namespace Station

variable {α : Type} (k : Station α)

/-- The generations of the jobs that were done. -/
def doneIn (h : List Deed) : List Nat := h.filterMap k.done?

/-- The generation of the job that a holder has. -/
def charge (callers : Nat → Caller) (slot : Option α) (hand : Hand α) : Holder → Option Nat
  | .caller i => k.unposted? (callers i)
  | .slot => slot.map fun job => (k.generation job).toNat
  | .hand =>
    match hand with
    | .holding job => some (k.generation job).toNat
    | _ => none

/-- What a step does with jobs: they are handed on or lost, one comes up with a request that arms
the gate, or one is done. -/
inductive Passing : (Holder → Option Nat) → List Deed → (Holder → Option Nat) → Prop where
  | pass {before ds after} (hds : k.doneIn ds = []) {σ : Holder → Holder} (hσ : σ.Injective)
      (hkept : ∀ a n, after a = some n → before (σ a) = some n) : Passing before ds after
  | arm {before after i r f g} (hds : k.doneIn [.armed r f g] = [])
      (hnew : after (.caller i) = some g.toNat)
      (hkept : ∀ a, a ≠ .caller i → ∀ n, after a = some n → before a = some n) :
      Passing before [.armed r f g] after
  | work {before after job result} (hold : before .hand = some (k.generation job).toNat)
      (hgone : after .hand = none) (hkept : ∀ a n, after a = some n → before a = some n) :
      Passing before [k.done job result] after

/-- No two holders have jobs of one generation, nor has one a job of a generation in which one was
done. -/
structure Once (h : List Deed) (charge : Holder → Option Nat) : Prop where
  known : ∀ a n, charge a = some n → n ∈ generations h
  apart : ∀ a b n, charge a = some n → charge b = some n → a = b
  undone : ∀ a n, charge a = some n → n ∉ k.doneIn h
  done : ∀ n ∈ k.doneIn h, n ∈ generations h
  once : (k.doneIn h).Nodup

variable {k} {h ds : List Deed} {before after : Holder → Option Nat}

@[simp] theorem doneIn_append (h ds : List Deed) :
    k.doneIn (h ++ ds) = k.doneIn h ++ k.doneIn ds := List.filterMap_append ..

@[simp] theorem doneIn_done (job : α) (result : Except Fault Unit) :
    k.doneIn [k.done job result] = [(k.generation job).toNat] := by
  simp [doneIn, k.done?_done]

theorem Once.start : k.Once [] fun _ => none where
  known _ _ := nofun
  apart _ _ _ := nofun
  undone _ _ := nofun
  done _ := nofun
  once := List.nodup_nil

theorem Once.known_later (ho : k.Once h before) (ds : List Deed) {a : Holder} {n : Nat}
    (hn : before a = some n) : n ∈ generations (h ++ ds) := by
  rw [generations_append]
  exact List.mem_append_left _ (ho.known a n hn)

theorem Once.done_later (ho : k.Once h before) (ds : List Deed) {n : Nat} (hn : n ∈ k.doneIn h) :
    n ∈ generations (h ++ ds) := by
  rw [generations_append]
  exact List.mem_append_left _ (ho.done n hn)

theorem Once.pass (ho : k.Once h before) (hds : k.doneIn ds = []) {σ : Holder → Holder}
    (hσ : σ.Injective) (hkept : ∀ a n, after a = some n → before (σ a) = some n) :
    k.Once (h ++ ds) after := by
  have hsame : k.doneIn (h ++ ds) = k.doneIn h := by rw [doneIn_append, hds, List.append_nil]
  constructor
  case known => exact fun a n hn => ho.known_later ds (hkept a n hn)
  case apart => exact fun a b n ha hb => hσ (ho.apart _ _ n (hkept a n ha) (hkept b n hb))
  case undone => exact fun a n hn => hsame ▸ ho.undone _ n (hkept a n hn)
  case done => exact fun n hn => ho.done_later ds (hsame ▸ hn)
  case once => exact hsame ▸ ho.once

/-- The generation of a request that arms the gate is new: nobody has a job of it. -/
theorem Once.arm (ho : k.Once h before) {i : Nat} {r : Request} {f : FigurePoint} {g : UInt64}
    (hr : (generations (h ++ [.armed r f g])).Pairwise (· < ·))
    (hds : k.doneIn [.armed r f g] = []) (hnew : after (.caller i) = some g.toNat)
    (hkept : ∀ a, a ≠ .caller i → ∀ n, after a = some n → before a = some n) :
    k.Once (h ++ [.armed r f g]) after := by
  have hsame : k.doneIn (h ++ [.armed r f g]) = k.doneIn h := by
    rw [doneIn_append, hds, List.append_nil]
  have hfresh : g.toNat ∉ generations h := by
    intro hm
    rw [generations_append] at hr
    have hlt := (List.pairwise_append.1 hr).2.2 _ hm _ (mem_generations (List.mem_singleton_self _))
    exact Nat.lt_irrefl _ hlt
  have hcases : ∀ a n, after a = some n →
      a = .caller i ∧ n = g.toNat ∨ before a = some n ∧ n ≠ g.toNat := by
    intro a n hn
    by_cases ha : a = .caller i
    · subst ha
      exact .inl ⟨rfl, Option.some.inj (hn.symm.trans hnew)⟩
    · have hold := hkept a ha n hn
      exact .inr ⟨hold, fun hg => hfresh (hg ▸ ho.known a n hold)⟩
  constructor
  case known =>
    intro a n hn
    rcases hcases a n hn with ⟨-, rfl⟩ | ⟨hold, -⟩
    · exact mem_generations (List.mem_append_right _ (List.mem_singleton_self _))
    · exact ho.known_later _ hold
  case apart =>
    intro a b n ha hb
    rcases hcases a n ha with ⟨rfl, hg⟩ | ⟨hold, hne⟩ <;>
      rcases hcases b n hb with ⟨rfl, hg'⟩ | ⟨hold', hne'⟩
    · rfl
    · exact absurd hg hne'
    · exact absurd hg' hne
    · exact ho.apart a b n hold hold'
  case undone =>
    intro a n hn
    rw [hsame]
    rcases hcases a n hn with ⟨-, rfl⟩ | ⟨hold, -⟩
    · exact fun hm => hfresh (ho.done _ hm)
    · exact ho.undone a n hold
  case done => exact fun n hn => ho.done_later _ (hsame ▸ hn)
  case once => exact hsame ▸ ho.once

theorem Once.work (ho : k.Once h before) {job : α} (result : Except Fault Unit)
    (hold : before .hand = some (k.generation job).toNat) (hgone : after .hand = none)
    (hkept : ∀ a n, after a = some n → before a = some n) :
    k.Once (h ++ [k.done job result]) after := by
  have hmore : k.doneIn (h ++ [k.done job result]) = k.doneIn h ++ [(k.generation job).toNat] := by
    rw [doneIn_append, doneIn_done]
  constructor
  case known => exact fun a n hn => ho.known_later _ (hkept a n hn)
  case apart => exact fun a b n ha hb => ho.apart a b n (hkept a n ha) (hkept b n hb)
  case undone =>
    intro a n hn
    rw [hmore, List.mem_append, List.mem_singleton]
    rintro (hm | rfl)
    · exact ho.undone a n (hkept a n hn) hm
    · -- only the hand had a job of this generation, and it has done it
      obtain rfl := ho.apart a .hand _ (hkept a _ hn) hold
      cases hgone.symm.trans hn
  case done =>
    intro n hn
    rw [hmore, List.mem_append, List.mem_singleton] at hn
    rcases hn with hm | rfl
    · exact ho.done_later _ hm
    · exact ho.known_later _ hold
  case once =>
    rw [hmore]
    refine List.nodup_append.2 ⟨ho.once, List.pairwise_singleton _ _, ?_⟩
    intro n hn m hm heq
    rw [heq, List.mem_singleton.1 hm] at hn
    exact ho.undone _ _ hold hn

theorem Once.passing (ho : k.Once h before) (hp : k.Passing before ds after)
    (hr : (generations (h ++ ds)).Pairwise (· < ·)) : k.Once (h ++ ds) after := by
  cases hp with
  | pass hds hσ hkept => exact ho.pass hds hσ hkept
  | arm hds hnew hkept => exact ho.arm hr hds hnew hkept
  | work hold hgone hkept => exact ho.work _ hold hgone hkept

/-! ### One job, one result -/

theorem mem_doneIn {job : α} {result : Except Fault Unit} (hm : k.done job result ∈ h) :
    (k.generation job).toNat ∈ k.doneIn h :=
  List.mem_filterMap.2 ⟨_, hm, k.done?_done job result⟩

/-- A job stands at one place of a history. -/
theorem Once.place_unique (ho : k.Once h before) {job : α} {result : Except Fault Unit}
    {early late early' late' : List Deed} (hsplit : h = early ++ k.done job result :: late)
    (hsplit' : h = early' ++ k.done job result :: late') : early = early' ∧ late = late' := by
  have honce := ho.once
  rw [hsplit, ← List.singleton_append, doneIn_append, doneIn_append, doneIn_done] at honce
  obtain ⟨-, htail, hapart⟩ := List.nodup_append.1 honce
  have hearly : k.done job result ∉ early := fun hm =>
    hapart _ (mem_doneIn hm) _ (List.mem_append_left _ (List.mem_singleton_self _)) rfl
  have hlate : k.done job result ∉ late := fun hm =>
    (List.nodup_append.1 htail).2.2 _ (List.mem_singleton_self _) _ (mem_doneIn hm) rfl
  obtain ⟨hfront, -, hback⟩ :=
    (List.append_cons_inj_of_notMem hearly hlate).1 (hsplit.symm.trans hsplit')
  exact ⟨hfront, hback⟩

/-- What was reported was not done just now. -/
theorem Once.not_fresh (ho : k.Once h before) {job : α} (ht : k.Told h job) : ¬ k.Fresh h job := by
  rintro ⟨early', late', hsplit', hquiet⟩
  obtain ⟨early, between, late, hsplit, -⟩ := ht
  obtain ⟨-, rfl⟩ := ho.place_unique hsplit hsplit'
  have hreport := hquiet _ (List.mem_append_right _ (List.mem_cons_self ..))
  exact hreport.2 _ rfl

/-- What was reported is not in the hand any more. -/
theorem Once.not_held (ho : k.Once h before) {job : α} {hand : Hand α} (ht : k.Told h job) :
    ¬ k.Held h hand job :=
  fun hheld => ho.not_fresh ht hheld.fresh

/-! ### Ways of jobs -/

theorem Passing.keep (hds : k.doneIn ds = [])
    (hkept : ∀ a n, after a = some n → before a = some n) : k.Passing before ds after :=
  .pass hds Function.injective_id hkept

/-- One holder hands its job on to another one, which had none or loses it. -/
theorem Passing.handOn (hds : k.doneIn ds = []) {a b : Holder} (hgone : after a = none)
    (hto : ∀ n, after b = some n → before a = some n)
    (hkept : ∀ d, d ≠ a → d ≠ b → ∀ n, after d = some n → before d = some n) :
    k.Passing before ds after := by
  refine .pass hds (Equiv.swap a b).injective fun d n hn => ?_
  by_cases ha : d = a
  · subst ha
    cases hgone.symm.trans hn
  · by_cases hb : d = b
    · subst hb
      rw [Equiv.swap_apply_right]
      exact hto n hn
    · rw [Equiv.swap_apply_of_ne_of_ne ha hb]
      exact hkept d ha hb n hn

section
variable {callers : Nat → Caller} {slot : Option α} {hand hand' : Hand α} {i : Nat}
  {next : Caller} {job : α}

/-- The places of the callers when one of them goes on. -/
abbrev goneOn (callers : Nat → Caller) (i : Nat) (next : Caller) : Nat → Caller :=
  fun j => if j = i then next else callers j

/-- The other callers keep what they have. -/
theorem charge_goneOn {slot' : Option α} {j n : Nat} (hj : Holder.caller j ≠ .caller i)
    (hn : k.charge (goneOn callers i next) slot' hand (.caller j) = some n) :
    k.charge callers slot hand' (.caller j) = some n := by
  have hne : j ≠ i := fun hij => hj (by rw [hij])
  simpa [charge, goneOn, hne] using hn

theorem charge_goneOn_self :
    k.charge (goneOn callers i next) slot hand (.caller i) = k.unposted? next := by
  simp [charge, goneOn]

/-- A caller goes on with the job that it had, or with none. -/
theorem Passing.caller (hds : k.doneIn ds = [])
    (hnext : k.unposted? next = none ∨ k.unposted? next = k.unposted? (callers i)) :
    k.Passing (k.charge callers slot hand) ds (k.charge (goneOn callers i next) slot hand) := by
  refine .keep hds fun a n hn => ?_
  cases a with
  | caller j =>
    by_cases hj : Holder.caller j = .caller i
    · cases hj
      rw [charge_goneOn_self] at hn
      rcases hnext with hnone | hsame
      · cases hnone.symm.trans hn
      · exact hsame.symm.trans hn
    · exact charge_goneOn hj hn
  | slot => exact hn
  | hand => exact hn

theorem Passing.armed {r : Request} {f : FigurePoint} {g : UInt64}
    (hds : k.doneIn [.armed r f g] = []) (hnext : k.unposted? next = some g.toNat) :
    k.Passing (k.charge callers slot hand) [.armed r f g]
      (k.charge (goneOn callers i next) slot hand) := by
  refine .arm hds (charge_goneOn_self.trans hnext) fun a ha n hn => ?_
  cases a with
  | caller j => exact charge_goneOn ha hn
  | slot => exact hn
  | hand => exact hn

theorem Passing.post (hjob : k.unposted? (callers i) = some (k.generation job).toNat)
    (hnext : k.unposted? next = none) :
    k.Passing (k.charge callers slot hand) []
      (k.charge (goneOn callers i next) (some job) hand) := by
  refine .handOn rfl (b := .slot) (charge_goneOn_self.trans hnext) (fun n hn => ?_) ?_
  · exact hjob.trans hn
  · intro d hcaller hslot n hn
    cases d with
    | caller j => exact charge_goneOn hcaller hn
    | slot => exact absurd rfl hslot
    | hand => exact hn

theorem Passing.fetch :
    k.Passing (k.charge callers (some job) .parked) [] (k.charge callers none (.holding job)) := by
  refine .handOn rfl (a := .slot) (b := .hand) rfl (fun n hn => hn) fun d hslot hhand n hn => ?_
  cases d with
  | caller j => exact hn
  | slot => exact absurd rfl hslot
  | hand => exact absurd rfl hhand

theorem Passing.finish {result : Except Fault Unit} {g : UInt64} {seam : Nat} :
    k.Passing (k.charge callers slot (.holding job)) [k.done job result]
      (k.charge callers slot (.finished g seam result)) := by
  refine .work rfl rfl fun a n hn => ?_
  cases a with
  | caller j => exact hn
  | slot => exact hn
  | hand => cases hn

/-- A worker that has no job then. -/
theorem Passing.free (hds : k.doneIn ds = [])
    (hfree : k.charge callers slot hand' .hand = none) :
    k.Passing (k.charge callers slot hand) ds (k.charge callers slot hand') := by
  refine .keep hds fun a n hn => ?_
  cases a with
  | caller j => exact hn
  | slot => exact hn
  | hand => cases hfree.symm.trans hn

end

end Station

/-! ### The list and the move -/

variable {δ : Type}

def listCharge (c : Cell δ) : Holder → Option Nat :=
  listStation.charge c.callers c.listSlot.job c.lister

def moveCharge (c : Cell δ) : Holder → Option Nat :=
  moveStation.charge c.callers c.moveSlot.job c.mover

/-- Every list job and every move job is with one holder at most, and is done once at most. -/
structure Single (h : List Deed) (c : Cell δ) : Prop where
  list : listStation.Once h (listCharge c)
  move : moveStation.Once h (moveCharge c)

theorem charge_idle (w : Welder δ) :
    listCharge (idle w) = (fun _ => none) ∧ moveCharge (idle w) = fun _ => none := by
  constructor <;> funext a <;> cases a <;> rfl

theorem Single.start (w : Welder δ) : Single [] (idle w) where
  list := (charge_idle w).1 ▸ Station.Once.start
  move := (charge_idle w).2 ▸ Station.Once.start

variable [Device δ] {label : Label} {h ds : List Deed} {c next : Cell δ}

open Station

theorem Act.passing_list (ha : Act c label ds next) :
    listStation.Passing (listCharge c) ds (listCharge next) := by
  cases ha with
  | @giveUp i call place hi hc =>
    have hplace : listStation.unposted? place = none := by
      cases call <;> cases hc <;> rfl
    exact .caller rfl (.inl hplace)
  | arm => exact .armed rfl rfl
  | previewHeight hi => exact .caller rfl (.inr (congrArg listStation.unposted? hi).symm)
  | weldHeight hi => exact .caller rfl (.inr (congrArg listStation.unposted? hi).symm)
  | postList hi => exact .post (congrArg listStation.unposted? hi) rfl
  | listFetch hl hc hj =>
    simp only [listCharge, hl, hj]
    exact .fetch
  | list hl =>
    simp only [listCharge, hl]
    exact .finish
  | listFailed => exact .free (filterMap_settle rfl ..) rfl
  | moveFailed => exact .keep (filterMap_settle rfl ..) fun _ _ hn => hn
  | listLeave | listDone | listReport => exact .free rfl rfl
  | moveFetch | moveLeave | move | moveDone | moveReport | startFetch | startLeave | pass
    | turnBack | giveIn | start | startReport => exact .keep rfl fun _ _ hn => hn
  | _ => exact .caller rfl (.inl rfl)

theorem Act.passing_move (ha : Act c label ds next) :
    moveStation.Passing (moveCharge c) ds (moveCharge next) := by
  cases ha with
  | @giveUp i call place hi hc =>
    have hplace : moveStation.unposted? place = none := by
      cases call <;> cases hc <;> rfl
    exact .caller rfl (.inl hplace)
  | arm => exact .armed rfl rfl
  | previewHeight hi | weldHeight hi | keepList hi | postList hi =>
    exact .caller rfl (.inr (congrArg moveStation.unposted? hi).symm)
  | postMove hi => exact .post (congrArg moveStation.unposted? hi) rfl
  | moveFetch hm hc hj =>
    simp only [moveCharge, hm, hj]
    exact .fetch
  | move hm =>
    simp only [moveCharge, hm]
    exact .finish
  | moveFailed => exact .free (filterMap_settle rfl ..) rfl
  | listFailed => exact .keep (filterMap_settle rfl ..) fun _ _ hn => hn
  | moveLeave | moveDone | moveReport => exact .free rfl rfl
  | listFetch | listLeave | list | listDone | listReport | startFetch | startLeave | pass
    | turnBack | giveIn | start | startReport => exact .keep rfl fun _ _ hn => hn
  | _ => exact .caller rfl (.inl rfl)

theorem Single.act (hs : Single h c) (hr : (generations (h ++ ds)).Pairwise (· < ·))
    (ha : Act c label ds next) : Single (h ++ ds) next where
  list := hs.list.passing ha.passing_list hr
  move := hs.move.passing ha.passing_move hr

end GalvoWeld.Cell
