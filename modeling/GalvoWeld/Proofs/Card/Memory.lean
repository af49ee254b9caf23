import GalvoWeld.Proofs.Contour.Preview
import GalvoWeld.Proofs.Device.Building

/-!
# The list memory

What stands in the list memory of a card, told from the calls that the card has taken, and which
operations write to it: only a list that is built successfully. In the list of a preview both powers
are 0.
-/

namespace GalvoWeld

open Wobble (Setup)

namespace Card

/-! ### The memory behind the calls -/

/-- The list memory of a card, and whether the card executes it. -/
structure Memory where
  executing : Bool := false
  entries : List Call := []

/-- What a call does to the memory. A card that executes its list does not open it for writing;
what is not done at once becomes an entry of the list. -/
def Memory.take (m : Memory) : Call → Memory
  | .loadList .. => if m.executing then m else { m with entries := [] }
  | .executeList _ => { m with executing := true }
  | .stopExecution => { m with executing := false }
  | .gotoXy .. => m
  | .resetError _ => m
  | call => { m with entries := m.entries ++ [call] }

def memory (c : Card) : Memory := c.calls.foldl Memory.take {}

def Call.power? : Call → Option Nat
  | .setLaserPower _ value => some value
  | _ => none

/-- The laser powers that the list sets. -/
def Memory.powers (m : Memory) : List Nat := m.entries.filterMap Call.power?

/-- The list sets no laser power but 0. -/
def Memory.Dark (m : Memory) : Prop := ∀ value ∈ m.powers, value = 0

instance (m : Memory) : Decidable m.Dark := inferInstanceAs (Decidable (∀ _ ∈ _, _))

theorem mem_powers {m : Memory} {value : Nat} :
    value ∈ m.powers ↔ ∃ channel, .setLaserPower channel value ∈ m.entries := by
  constructor
  · intro hm
    obtain ⟨call, hcall, hpower⟩ := List.mem_filterMap.1 hm
    cases call <;> cases hpower
    exact ⟨_, hcall⟩
  · rintro ⟨channel, hm⟩
    exact List.mem_filterMap.2 ⟨_, hm, rfl⟩

/-- The card knows what its calls say about executing. -/
def Faithful (c : Card) : Prop := c.memory.executing = c.executing

theorem memory_record (c : Card) (calls : List Call) :
    (c.record calls).memory = calls.foldl Memory.take c.memory := by
  simp [memory]

/-- An operation after which the list memory is as before. -/
def Spares (c c' : Card) : Prop :=
  c.Faithful → c'.Faithful ∧ c'.memory.entries = c.memory.entries

theorem Spares.refl (c : Card) : Spares c c := fun hf => ⟨hf, rfl⟩

theorem spares_gotoXy (c : Card) (x y : Int) : Spares c (c.record [.gotoXy x y]) := by
  intro hf
  unfold Faithful at hf ⊢
  rw [memory_record]
  exact ⟨hf, rfl⟩

theorem spares_executeList (c : Card) (list : Nat) : Spares c (c.executeList list) := by
  intro hf
  have hmemory : (c.executeList list).memory = c.memory.take (.executeList list) :=
    memory_record c [.executeList list]
  unfold Faithful
  rw [hmemory]
  exact ⟨rfl, rfl⟩

theorem spares_abort (c : Card) (code : Nat) :
    Spares c (c.stopExecution.record [.resetError code]) := by
  intro hf
  have hmemory : (c.stopExecution.record [.resetError code]).memory =
      (c.memory.take .stopExecution).take (.resetError code) := by
    rw [memory_record, List.foldl_cons, List.foldl_nil]
    exact congrArg (Memory.take · (.resetError code)) (memory_record c [.stopExecution])
  unfold Faithful
  rw [hmemory]
  exact ⟨rfl, rfl⟩

theorem spares_loadList {c : Card} (hexec : c.executing = true) (list position : Nat) :
    Spares c (c.loadList list position).2 := by
  intro hf
  have hmemory : (c.loadList list position).2.memory = c.memory := by
    have hrecord : (c.loadList list position).2.memory = c.memory.take (.loadList list position) :=
      memory_record c [.loadList list position]
    rw [hrecord]
    simp [Memory.take, hf.trans hexec]
  unfold Faithful
  rw [hmemory]
  exact ⟨hf, rfl⟩

/-! ### Entries of a list -/

/-- Calls that become entries of the list. -/
def Call.isEntry : Call → Bool
  | .loadList .. => false
  | .executeList _ => false
  | .stopExecution => false
  | .gotoXy .. => false
  | .resetError _ => false
  | _ => true

theorem take_of_isEntry {call : Call} (he : call.isEntry = true) (m : Memory) :
    m.take call = { m with entries := m.entries ++ [call] } := by
  cases call <;> first | rfl | cases he

theorem foldl_take_entries {calls : List Call} (he : ∀ call ∈ calls, call.isEntry = true)
    (m : Memory) : calls.foldl Memory.take m = { m with entries := m.entries ++ calls } := by
  induction calls generalizing m with
  | nil => simp
  | cons call calls ih =>
    have hrest : ∀ c ∈ calls, c.isEntry = true := fun c hc => he c (List.mem_cons_of_mem call hc)
    have hcall := take_of_isEntry (he call (List.mem_cons_self ..)) m
    rw [List.foldl_cons, hcall, ih hrest, List.append_assoc, List.singleton_append]

theorem memory_of_opened {c c' : Card} {list position : Nat} {calls : List Call}
    (hf : c.Faithful) (hexec : c.executing = false) (he : ∀ call ∈ calls, call.isEntry = true)
    (hcalls : c'.calls = c.calls ++ .loadList list position :: calls) :
    c'.memory = { executing := false, entries := calls } := by
  have hfold : c'.memory = calls.foldl Memory.take (c.memory.take (.loadList list position)) := by
    unfold memory
    rw [hcalls, List.foldl_append, List.foldl_cons]
  have hclosed : c.memory.executing = false := hf.trans hexec
  rw [hfold, foldl_take_entries he]
  simp [Memory.take, hclosed]

theorem isEntry_lowered (calibration : Float) (contour : Contour) (memo : Memo) :
    ∀ call ∈ lowered calibration memo contour, call.isEntry = true := by
  intro call hm
  have hloud := isQuiet_lowered calibration contour memo call hm
  cases call <;> first | rfl | cases hloud

theorem isEntry_listCalls {s : Seam} {setup : Setup} {contour : List Call}
    (hc : ∀ call ∈ contour, call.isEntry = true) :
    ∀ call ∈ listCalls s setup contour ++ [.setEndOfList], call.isEntry = true := by
  intro call hm
  rcases List.mem_append.1 hm with hlist | hend
  · rcases mem_listCalls hlist with ⟨speed, rfl⟩ | hwobble | hcontour
    · rfl
    · cases call <;> first | rfl | cases hwobble
    · exact hc call hcontour
  · obtain rfl := List.mem_singleton.1 hend
    rfl

/-! ### The list of a preview -/

theorem setLaserPower_of_lowered {calibration : Float} {contour : Contour} {memo : Memo}
    {channel value : Nat} (hm : .setLaserPower channel value ∈ lowered calibration memo contour) :
    ∃ percent, (.power percent ∈ contour ∨ .ringPower percent ∈ contour) ∧
      value = analogValue percent := by
  induction contour generalizing memo with
  | nil => cases hm
  | cons command rest ih =>
    rcases List.mem_append.1 hm with hnow | hlater
    · have hsome := Option.mem_toList.1 hnow
      cases command with
      | power percent =>
        simp only [Memo.lower] at hsome
        split at hsome <;> cases hsome
        exact ⟨percent, .inl (List.mem_cons_self ..), rfl⟩
      | ringPower percent =>
        simp only [Memo.lower] at hsome
        split at hsome <;> cases hsome
        exact ⟨percent, .inr (List.mem_cons_self ..), rfl⟩
      | markSpeed speed =>
        simp only [Memo.lower] at hsome
        split at hsome <;> cases hsome
      | setUp => cases hsome
      | jump p => cases hsome
      | mark p => cases hsome
    · obtain ⟨percent, hin, hvalue⟩ := ih hlater
      exact ⟨percent, hin.imp (List.mem_cons_of_mem _) (List.mem_cons_of_mem _), hvalue⟩

theorem analogValue_zero : analogValue 0 = 0 := by decide +kernel

/-- A list that was built is all that the memory holds. -/
theorem memory_of_lower {s : Seam} {contour : Contour} {setup : Setup} {disk disk' : Disk}
    {d d' : CardDevice} (hf : d.card.Faithful)
    (hl : Device.lower s contour setup disk d = (.ok (), disk', d')) :
    d'.card.Faithful ∧ d'.card.memory.entries =
      listCalls s setup (lowered s.config.calibrationFactor d.memo contour) ++
        [.setEndOfList] := by
  obtain ⟨hexec, hexec', hcalls⟩ := CardDevice.lower_ok hl
  have hmemory := memory_of_opened hf hexec (isEntry_listCalls (isEntry_lowered _ _ _)) hcalls
  unfold Faithful
  rw [hmemory]
  exact ⟨hexec'.symm, rfl⟩

theorem zero_of_preview {s : Seam} {contour : Contour} {setup : Setup} {memo : Memo}
    {channel value : Nat} (hmode : s.data.mode = .preview) (hcontour : s.contour = .ok contour)
    (hm : .setLaserPower channel value ∈
      listCalls s setup (lowered s.config.calibrationFactor memo contour)) : value = 0 := by
  obtain ⟨figure, -, hpoints⟩ := Seam.contour_ok hcontour
  rw [hmode, decide_eq_true rfl] at hpoints
  rcases mem_listCalls hm with ⟨speed, hspeed⟩ | hwobble | hpower
  · cases hspeed
  · cases hwobble
  · obtain ⟨percent, hin, rfl⟩ := setLaserPower_of_lowered hpower
    rw [power_of_preview hpoints hin]
    exact analogValue_zero

/-- The list of a seam in preview is dark. -/
theorem dark_of_lower {s : Seam} {contour : Contour} {setup : Setup} {disk disk' : Disk}
    {d d' : CardDevice} (hf : d.card.Faithful) (hmode : s.data.mode = .preview)
    (hcontour : s.contour = .ok contour)
    (hl : Device.lower s contour setup disk d = (.ok (), disk', d')) : d'.card.memory.Dark := by
  intro value hvalue
  obtain ⟨channel, hm⟩ := mem_powers.1 hvalue
  rw [(memory_of_lower hf hl).2] at hm
  rcases List.mem_append.1 hm with hlist | hend
  · exact zero_of_preview hmode hcontour hlist
  · cases List.mem_singleton.1 hend

end Card

end GalvoWeld
