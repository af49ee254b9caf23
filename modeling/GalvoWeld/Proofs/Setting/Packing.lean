import GalvoWeld.Setting.Line
import Mathlib.Data.List.Chain

/-!
# Lines packed for the controller

Packing cuts the lines of all commands into groups of neighbours and writes one line for each: a
single line stays as it is, several writes share one line below the limit. Nothing is lost, doubled
or moved, and between two writes that follow each other a line ends only where the next write would
have reached the limit.
-/

namespace GalvoWeld.Setting

/-! ### Groups of lines -/

/-- The bodies of writes on one line, each behind a blank. -/
def sharedLine (lines : List String) : String :=
  "S" ++ String.join (lines.map fun line => " " ++ lineBody line)

/-- The line that stands for a group. -/
def groupLine : List String → String
  | [line] => line
  | lines => sharedLine lines

/-- What may stand on one line: a single line, or several writes that stay below the limit. -/
inductive Group : List String → Prop
  | single (line : String) : Group [line]
  | several {lines : List String} (hmany : 2 ≤ lines.length)
      (hwrites : ∀ line ∈ lines, isWriteLine line = true)
      (hfits : (sharedLine lines).utf8ByteSize < lineLimit) : Group lines

/-- If two groups that follow each other are output as writes, the first one is full: the first
line of the other would have reached the limit. -/
def Full (group next : List String) : Prop :=
  isWriteLine (groupLine group) = true → isWriteLine (groupLine next) = true →
    ∀ line ∈ next.head?, lineLimit ≤ (sharedLine (group ++ [line])).utf8ByteSize

theorem Group.isWriteLine_iff {group : List String} (hgroup : Group group) :
    isWriteLine (groupLine group) = true ↔ ∀ line ∈ group, isWriteLine line = true := by
  cases hgroup with
  | single line => simp [groupLine]
  | several hmany hwrites hfits =>
    refine ⟨fun _ => hwrites, fun _ => ?_⟩
    match group, hmany with
    | line :: line' :: rest, _ => simp [groupLine, sharedLine, isWriteLine, String.join_cons]

theorem packedLine_eq (lines : List String) : packedLine lines = sharedLine lines := by
  have hfold : ∀ packed : String,
      lines.foldl (fun packed line => packed ++ " " ++ lineBody line) packed =
        packed ++ String.join (lines.map fun line => " " ++ lineBody line) := by
    induction lines with
    | nil => simp
    | cons line rest ih =>
      intro packed
      rw [List.foldl_cons, ih, List.map_cons, String.join_cons, String.append_assoc,
        String.append_assoc, String.append_assoc]
  exact hfold "S"

theorem fitsOneLine_iff (lines : List String) :
    fitsOneLine lines = true ↔ (sharedLine lines).utf8ByteSize < lineLimit := by
  rw [fitsOneLine, packedLine_eq, decide_eq_true_eq]

/-! ### The groups that packing makes -/

/-- A run of writes that is closed, if there is one. -/
def closedRun (run : List String) : List (List String) := if run.isEmpty then [] else [run]

/-- The groups of lines behind a run of writes that is not closed yet. -/
def groupsAfter (run : List String) : List String → List (List String)
  | [] => closedRun run
  | line :: rest =>
    if isWriteLine line then
      if run.isEmpty || fitsOneLine (run ++ [line]) then groupsAfter (run ++ [line]) rest
      else closedRun run ++ groupsAfter [line] rest
    else closedRun run ++ [line] :: groupsAfter [] rest

theorem runLine_eq (run : List String) : runLine run = (closedRun run).map groupLine := by
  match run with
  | [] => rfl
  | [line] => rfl
  | line :: line' :: rest =>
    simp only [runLine, closedRun, packedLine_eq]
    rfl

theorem packAfter_eq (run lines : List String) :
    packAfter run lines = (groupsAfter run lines).map groupLine := by
  fun_induction groupsAfter run lines with
  | case1 run => exact runLine_eq run
  | case2 run line rest hwrite hjoins ih => rw [packAfter, if_pos hwrite, if_pos hjoins, ih]
  | case3 run line rest hwrite hfull ih =>
    rw [packAfter, if_pos hwrite, if_neg hfull, ih, runLine_eq, List.map_append]
  | case4 run line rest hread ih =>
    rw [packAfter, if_neg hread, ih, runLine_eq, List.map_append]
    rfl

theorem flatten_closedRun (run : List String) : (closedRun run).flatten = run := by
  cases run <;> simp [closedRun]

theorem flatten_groupsAfter (run lines : List String) :
    (groupsAfter run lines).flatten = run ++ lines := by
  fun_induction groupsAfter run lines with
  | case1 run => rw [flatten_closedRun, List.append_nil]
  | case2 run line rest hwrite hjoins ih => rw [ih, List.append_assoc, List.singleton_append]
  | case3 run line rest hwrite hfull ih =>
    rw [List.flatten_append, flatten_closedRun, ih, List.singleton_append]
  | case4 run line rest hread ih =>
    rw [List.flatten_append, flatten_closedRun, List.flatten_cons, ih]
    rfl

/-- A run that may be closed at any time. -/
structure Run (run : List String) : Prop where
  writes : ∀ line ∈ run, isWriteLine line = true
  fits : 2 ≤ run.length → (sharedLine run).utf8ByteSize < lineLimit

theorem Run.empty : Run [] := ⟨nofun, fun hmany => absurd hmany (by decide)⟩

theorem Run.join {run : List String} {line : String} (hrun : Run run)
    (hwrite : isWriteLine line = true)
    (hjoins : (run.isEmpty || fitsOneLine (run ++ [line])) = true) : Run (run ++ [line]) := by
  refine ⟨fun l hm => ?_, fun hmany => ?_⟩
  · rcases List.mem_append.1 hm with hold | hnew
    · exact hrun.writes l hold
    · obtain rfl := List.mem_singleton.1 hnew
      exact hwrite
  · rcases Bool.or_eq_true_iff.1 hjoins with hempty | hfits
    · obtain rfl := List.isEmpty_iff.1 hempty
      exact absurd hmany (by simp)
    · exact (fitsOneLine_iff _).1 hfits

theorem Run.closed {run : List String} (hrun : Run run) : ∀ group ∈ closedRun run, Group group := by
  intro group hm
  match run with
  | [] => cases hm
  | [line] =>
    obtain rfl := List.mem_singleton.1 hm
    exact .single line
  | line :: line' :: rest =>
    obtain rfl := List.mem_singleton.1 hm
    exact .several (by simp) hrun.writes (hrun.fits (by simp))

theorem group_of_mem_groupsAfter {run lines : List String} (hrun : Run run) :
    ∀ group ∈ groupsAfter run lines, Group group := by
  fun_induction groupsAfter run lines with
  | case1 run => exact hrun.closed
  | case2 run line rest hwrite hjoins ih => exact ih (hrun.join hwrite hjoins)
  | case3 run line rest hwrite hfull ih =>
    intro group hm
    rcases List.mem_append.1 hm with hclosed | hlater
    · exact hrun.closed group hclosed
    · exact ih (Run.empty.join hwrite rfl) group hlater
  | case4 run line rest hread ih =>
    intro group hm
    rcases List.mem_append.1 hm with hclosed | hlater
    · exact hrun.closed group hclosed
    rcases List.mem_cons.1 hlater with rfl | hlater
    · exact .single line
    · exact ih Run.empty group hlater

theorem mem_closedRun {run group : List String} (hm : group ∈ closedRun run) : group = run := by
  cases run with
  | nil => cases hm
  | cons line rest => exact List.mem_singleton.1 hm

theorem isChain_closedRun (run : List String) : (closedRun run).IsChain Full := by
  cases run with
  | nil => exact .nil
  | cons line rest => exact .singleton _

theorem eq_of_head_groupsAfter {line first : String} {rest group : List String}
    (hgroup : group ∈ (groupsAfter [line] rest).head?) (hfirst : first ∈ group.head?) :
    first = line := by
  have hflatten := flatten_groupsAfter [line] rest
  obtain ⟨groups, hgroups⟩ := List.head?_eq_some_iff.1 hgroup
  obtain ⟨more, rfl⟩ := List.head?_eq_some_iff.1 hfirst
  rw [hgroups, List.flatten_cons] at hflatten
  exact (List.cons.inj hflatten).1

theorem isChain_groupsAfter (run lines : List String) : (groupsAfter run lines).IsChain Full := by
  fun_induction groupsAfter run lines with
  | case1 run => exact isChain_closedRun run
  | case2 run line rest hwrite hjoins ih => exact ih
  | case3 run line rest hwrite hfull ih =>
    refine List.isChain_append.2 ⟨isChain_closedRun run, ih, fun group hlast next hnext => ?_⟩
    obtain rfl := mem_closedRun (List.mem_of_getLast? hlast)
    intro _ _ first hfirst
    obtain rfl := eq_of_head_groupsAfter hnext hfirst
    have hover : ¬ fitsOneLine (group ++ [first]) = true :=
      fun hfits => hfull (Bool.or_eq_true_iff.2 (.inr hfits))
    rw [fitsOneLine_iff] at hover
    exact Nat.le_of_not_lt hover
  | case4 run line rest hread ih =>
    -- a read is no write: nothing is asked of the lines before and behind it
    have hbehind : ([line] :: groupsAfter [] rest).IsChain Full :=
      List.isChain_cons.2 ⟨fun next _ hwrite => absurd hwrite hread, ih⟩
    refine List.isChain_append.2 ⟨isChain_closedRun run, hbehind, fun group _ next hnext => ?_⟩
    obtain rfl := Option.some.inj hnext
    exact fun _ hwrite => absurd hwrite hread

/-! ### The lines of commands -/

theorem isWriteLine_lines {c : Command} {line : String} (hm : line ∈ c.lines) :
    isWriteLine line = c.writes := by
  obtain ⟨⟨key, value⟩, -, rfl⟩ := List.mem_map.1 hm
  cases c.writes with
  | true => simp [isWriteLine, writeLine]
  | false => simp [isWriteLine, readLine, List.isPrefixOf]

theorem isWriteLine_of_mem_packedLines {commands : List Command} {line : String}
    (hwrites : ∀ c ∈ commands, c.writes = true) (hm : line ∈ packedLines commands) :
    isWriteLine line = true := by
  rw [packedLines, packAfter_eq] at hm
  obtain ⟨group, hgroup, rfl⟩ := List.mem_map.1 hm
  have hparts : ∀ part ∈ group, part ∈ commands.flatMap Command.lines := by
    intro part hpart
    have hflat := List.mem_flatten.2 ⟨group, hgroup, hpart⟩
    rwa [flatten_groupsAfter, List.nil_append] at hflat
  refine (group_of_mem_groupsAfter Run.empty group hgroup).isWriteLine_iff.2 fun part hpart => ?_
  obtain ⟨c, hc, hline⟩ := List.mem_flatMap.1 (hparts part hpart)
  rw [isWriteLine_lines hline, hwrites c hc]

theorem packedLines_ne_nil {commands : List Command}
    (hlines : commands.flatMap Command.lines ≠ []) : packedLines commands ≠ [] := by
  intro hnil
  rw [packedLines, packAfter_eq, List.map_eq_nil_iff] at hnil
  have hflat := flatten_groupsAfter [] (commands.flatMap Command.lines)
  rw [hnil] at hflat
  exact hlines hflat.symm

/-- The lines of commands are packed group by group: the groups hold all lines in their order, each
is a single line or several writes that stay below the limit together, and of two that follow each
other as writes the first has no room for more. A line writes if and only if its command does. -/
theorem packedLines_groups (commands : List Command) :
    (∃ groups : List (List String), groups.flatten = commands.flatMap Command.lines ∧
      packedLines commands = groups.map groupLine ∧
      (∀ group ∈ groups, Group group ∧
        (isWriteLine (groupLine group) = true ↔ ∀ line ∈ group, isWriteLine line = true)) ∧
      groups.IsChain Full) ∧
    ∀ c ∈ commands, ∀ line ∈ c.lines, isWriteLine line = c.writes := by
  constructor
  · have hgroups : ∀ group ∈ groupsAfter [] (commands.flatMap Command.lines), Group group :=
      group_of_mem_groupsAfter Run.empty
    refine ⟨groupsAfter [] (commands.flatMap Command.lines), ?_, ?_, ?_, ?_⟩
    · exact flatten_groupsAfter [] _
    · exact packAfter_eq [] _
    · exact fun group hm => ⟨hgroups group hm, (hgroups group hm).isWriteLine_iff⟩
    · exact isChain_groupsAfter [] _
  · intro c _ line hm
    exact isWriteLine_lines hm

end GalvoWeld.Setting
