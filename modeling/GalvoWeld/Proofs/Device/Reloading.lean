import Mathlib.Data.List.Induction
import GalvoWeld.Proofs.Card.WeldingList
import GalvoWeld.Proofs.Seam.Decisions

/-!
# Wobble figures loaded one after another

The first figure that a prepared seam can use decides about its wobbling. A figure that is loaded
after it is attached and not looked at; a file that is not read turns wobbling off. The list of the
seam is built with what stands then.
-/

namespace GalvoWeld

open Wobble (Setup)
open Card (Call wobbleCalls wobbleOff listCalls listNumber lowered)

/-- A figure file, and the files that there are when it is loaded. -/
structure FigureFile where
  disk : Disk
  path : String

def FigureFile.readable (file : FigureFile) : Bool := (Figure.load file.disk file.path).isOk

namespace Card

/-- The calls of a list that are about wobbling: what sets it up, and its end. -/
def wobbleEntries (s : Seam) (setup : Setup) : List Call :=
  wobbleCalls s setup ++ (if setup = .off then [] else [wobbleOff])

theorem filter_listCalls (s : Seam) (setup : Setup) (calibration : Float) (memo : Memo)
    (contour : Contour) :
    (listCalls s setup (lowered calibration memo contour)).filter Call.setsWobble =
      wobbleEntries s setup := by
  have hwobble : (wobbleCalls s setup).filter Call.setsWobble = wobbleCalls s setup :=
    List.filter_eq_self.2 (setsWobble_wobbleCalls s setup)
  have hcontour : (lowered calibration memo contour).filter Call.setsWobble = [] :=
    filter_lowered _ _ _ fun _ => isQuiet_of_setsWobble
  have hend : (if setup = .off then [] else [wobbleOff]).filter Call.setsWobble =
      if setup = .off then [] else [wobbleOff] :=
    List.filter_eq_self.2 (setsWobble_end setup)
  rw [listCalls, List.filter_cons_of_neg Bool.false_ne_true, List.filter_append, List.filter_append,
    hwobble, hcontour, hend, List.append_nil]
  rfl

end Card

open Card (wobbleEntries)

namespace Seam

/-- What the figure of a file defines for this seam, as calls: nothing if it is not read, or
refused. -/
def definedBy? (s : Seam) (file : FigureFile) : Option (List Call) :=
  match Figure.load file.disk file.path with
  | .error _ => none
  | .ok figure =>
    match (s.attachWobble figure).resolveWobble with
    | (.error _, _) => none
    | (.ok setup, t) => some (wobbleEntries t setup)

/-! ### What stands after some files -/

/-- A prepared seam after some files: nothing is decided yet, or the first figure that could be used
has decided, and wobbling was left so unless a later file was not read. -/
inductive Reloaded (p : Seam) (files : List FigureFile) : Seam → Prop
  | undecided {figure : Option Figure} {c : Wobble.Compensation}
      (hnone : ∀ file ∈ files, p.definedBy? file = none) :
      Reloaded p files { p with wobbleFigure := figure, compensation := c }
  | decided {s : Seam} {before later : List FigureFile} {first : FigureFile} {calls : List Call}
      (hfiles : files = before ++ first :: later)
      (hnone : ∀ file ∈ before, p.definedBy? file = none)
      (hfirst : p.definedBy? first = some calls) (hstage : s.stage = .wobbleDefined)
      (hcalls : wobbleEntries s s.wobble =
        if later.all FigureFile.readable then calls else [wobbleOff]) : Reloaded p files s

variable {p s t : Seam} {files : List FigureFile} {file : FigureFile}

theorem resolveWobble_attach_same (figure figure' : Option Figure) (c : Wobble.Compensation) :
    (attachWobble { p with wobbleFigure := figure', compensation := c } figure).resolveWobble =
      (p.attachWobble figure).resolveWobble := rfl

theorem Reloaded.load_undecided {outcome : Except Fault Unit × Seam} {figure : Option Figure}
    {c : Wobble.Compensation} (hprepared : p.stage = .prepared) (hoff : p.wobble = .off)
    (hnone : ∀ file ∈ files, p.definedBy? file = none)
    (hload : Loads { p with wobbleFigure := figure, compensation := c } file.disk file.path
      outcome) : Reloaded p (files ++ [file]) outcome.2 := by
  have hsnoc : p.definedBy? file = none → ∀ f ∈ files ++ [file], p.definedBy? f = none := by
    intro hlast f hm
    rcases List.mem_append.1 hm with hold | hnew
    · exact hnone f hold
    · rw [List.mem_singleton.1 hnew]
      exact hlast
  -- the seam is still prepared, so that a figure that is read is decided about
  cases hload with
  | unread hread =>
    have hsame : ({ p with wobbleFigure := none, compensation := c, wobble := .off } : Seam) =
        { p with wobbleFigure := none, compensation := c } := by rw [← hoff]
    simp only [hsame]
    exact .undecided (hsnoc (by simp only [definedBy?, hread]))
  | attached hread hstage => exact absurd hprepared hstage
  | @rejected attached fault t hread hstage hdecision =>
    rw [resolveWobble_attach_same] at hdecision
    have hresolves := (p.attachWobble attached).resolves
    have hkept := (p.attachWobble attached).resolveWobble_eq
    rw [hdecision] at hresolves hkept
    cases hresolves with
    | fails hfatal hwobble hvectors =>
      simp only at hkept ⊢
      rw [hkept, hwobble]
      exact .undecided (hsnoc (by simp only [definedBy?, hread, hdecision]))
  | @defined attached setup t hread hstage hdecision =>
    rw [resolveWobble_attach_same] at hdecision
    have hresolves := (p.attachWobble attached).resolves
    rw [hdecision] at hresolves
    cases hresolves with
    | decides hsetup hvectors =>
      have hdefined : p.definedBy? file = some (wobbleEntries t setup) := by
        simp only [definedBy?, hread, hdecision]
      refine .decided rfl hnone hdefined rfl ?_
      simp only [hsetup]
      rfl

theorem Reloaded.load (hprepared : p.stage = .prepared) (hoff : p.wobble = .off)
    (hs : Reloaded p files s) (file : FigureFile) :
    Reloaded p (files ++ [file]) (s.loadWobble file.disk file.path).2 := by
  have hload := s.loads file.disk file.path
  generalize s.loadWobble file.disk file.path = outcome at hload ⊢
  cases hs with
  | undecided hnone => exact .load_undecided hprepared hoff hnone hload
  | @decided s before later first calls hfiles hnone hfirst hstage hcalls =>
    have hsnoc : files ++ [file] = before ++ first :: (later ++ [file]) := by
      rw [hfiles, List.append_assoc, List.cons_append]
    have hread : (later ++ [file]).all FigureFile.readable =
        (later.all FigureFile.readable && file.readable) := by
      simp only [List.all_append, List.all_cons, List.all_nil, Bool.and_true]
    -- from here on nothing is decided: only a file that is not read changes the wobbling
    cases hload with
    | unread hload =>
      have hunread : file.readable = false := by simp only [FigureFile.readable, hload]; rfl
      refine .decided hsnoc hnone hfirst hstage ?_
      rw [hread, hunread, Bool.and_false]
      rfl
    | attached hload _ =>
      have hreadable : file.readable = true := by simp only [FigureFile.readable, hload]; rfl
      refine .decided hsnoc hnone hfirst hstage ?_
      rw [hread, hreadable, Bool.and_true]
      exact hcalls
    | rejected _ hprepared' _ => rw [hstage] at hprepared'; cases hprepared'
    | defined _ hprepared' _ => rw [hstage] at hprepared'; cases hprepared'

theorem stage_of_loadWobble {disk : Disk} {path : String}
    (hl : s.loadWobble disk path = (.ok (), t)) : t.stage ≠ .prepared := by
  have hload := s.loads disk path
  generalize houtcome : s.loadWobble disk path = outcome at hload
  rw [hl] at houtcome
  cases hload with
  | unread hread => cases houtcome
  | attached hread hstage =>
    obtain rfl := (Prod.mk.inj houtcome).2
    exact hstage
  | rejected hread hstage hdecision => cases houtcome
  | defined hread hstage hdecision =>
    obtain rfl := (Prod.mk.inj houtcome).2
    nofun

/-- When what the first figure leaves to stand is what the last one defines. -/
theorem definedBy?_last_iff {front before later : List FigureFile} {first last : FigureFile}
    {calls : List Call} (hfiles : front ++ [last] = before ++ first :: later)
    (hfirst : p.definedBy? first = some calls) :
    p.definedBy? last = some (if later.all FigureFile.readable then calls else [wobbleOff]) ↔
      later = [] ∨
      (later.all FigureFile.readable = true ∧ p.definedBy? last = p.definedBy? first) ∨
      (later.all FigureFile.readable = false ∧ p.definedBy? last = some [wobbleOff]) := by
  have hreadable : later = [] → later.all FigureFile.readable = true := by
    rintro rfl
    rfl
  have hsingle : later = [] → last = first := by
    rintro rfl
    exact List.singleton_inj.1 (List.append_inj' hfiles rfl).2
  rw [hfirst]
  cases hall : later.all FigureFile.readable with
  | true =>
    refine ⟨fun hsame => .inr (.inl ⟨rfl, hsame⟩), ?_⟩
    rintro (hnil | ⟨-, hsame⟩ | ⟨hunread, -⟩)
    · rw [hsingle hnil]
      exact hfirst
    · exact hsame
    · cases hunread
  | false =>
    refine ⟨fun hoff => .inr (.inr ⟨rfl, hoff⟩), ?_⟩
    rintro (hnil | ⟨hread, -⟩ | ⟨-, hoff⟩)
    · rw [hreadable hnil] at hall
      cases hall
    · cases hread
    · exact hoff

end Seam

namespace Welder

variable {δ : Type}

/-! ### Lists that are built after that -/

def loadFile (w : Welder δ) (file : FigureFile) : Except Fault Unit × Welder δ :=
  loadWobble { w with disk := file.disk } file.path

/-- The welder after these files were loaded, each successfully or not. -/
def loadFiles (w : Welder δ) (files : List FigureFile) : Welder δ :=
  files.foldl (fun w file => (w.loadFile file).2) w

theorem loadFiles_snoc (w : Welder δ) (files : List FigureFile) (file : FigureFile) :
    w.loadFiles (files ++ [file]) = ((w.loadFiles files).loadFile file).2 := by
  rw [loadFiles, List.foldl_append]
  rfl

theorem device_loadFiles (w : Welder δ) (files : List FigureFile) :
    (w.loadFiles files).device = w.device := by
  induction files using List.reverseRecOn with
  | nil => rfl
  | append_singleton files file ih =>
    rw [loadFiles_snoc]
    exact ih

theorem reloaded_loadFiles {w : Welder δ} (hprepared : w.seam.stage = .prepared)
    (hoff : w.seam.wobble = .off) (files : List FigureFile) :
    w.seam.Reloaded files (w.loadFiles files).seam := by
  induction files using List.reverseRecOn with
  | nil => exact .undecided (fun file hm => absurd hm List.not_mem_nil)
  | append_singleton files file ih =>
    rw [loadFiles_snoc]
    exact ih.load hprepared hoff file

theorem prepared_of_prepare {w w' : Welder δ} {data : SeamData} {figure : Figure}
    (hp : w.prepare data figure = (.ok (), w')) :
    w'.seam.stage = .prepared ∧ w'.seam.wobble = .off := by
  unfold prepare at hp
  split at hp
  · cases hp
  · obtain rfl := (Prod.mk.inj hp).2
    exact ⟨rfl, rfl⟩

theorem entries_of_buildWeldingList {w w' : Welder CardDevice}
    (hstage : w.seam.stage = .wobbleDefined) (hb : w.buildWeldingList = (.ok (), w')) :
    ∃ list, w'.device.card.calls =
        w.device.card.calls ++ .loadList listNumber 0 :: (list ++ [.setEndOfList]) ∧
      list.filter Call.setsWobble = wobbleEntries w.seam w.seam.wobble := by
  unfold buildWeldingList at hb
  rw [hstage] at hb
  rcases compile_cases hb with ⟨fault, hfault, -⟩ | ⟨contour, -, hlower, -⟩
  · cases hfault
  · obtain ⟨-, -, hcalls⟩ := CardDevice.lower_ok hlower
    exact ⟨_, hcalls, Card.filter_listCalls ..⟩

/-- A seam is prepared, wobble figures are loaded for it, the last one successfully, and its list is
built. The list sets up what the first figure defines that could be used, or no wobbling if a later
file was not read. So it sets up what the last one defines if that is the first one, or if both come
to the same, or if there is no wobbling with the last one either. -/
theorem first_figure_decides {v w u w' : Welder CardDevice} {data : SeamData} {figure : Figure}
    {front : List FigureFile} {last : FigureFile}
    (hprepare : v.prepare data figure = (.ok (), w))
    (hlast : (w.loadFiles front).loadFile last = (.ok (), u))
    (hbuild : u.buildWeldingList = (.ok (), w')) :
    ∃ list before first later calls,
      w'.device.card.calls =
        w.device.card.calls ++ .loadList listNumber 0 :: (list ++ [.setEndOfList]) ∧
      front ++ [last] = before ++ first :: later ∧
      (∀ file ∈ before, w.seam.definedBy? file = none) ∧ w.seam.definedBy? first = some calls ∧
      list.filter Call.setsWobble =
        (if later.all FigureFile.readable then calls else [wobbleOff]) ∧
      (w.seam.definedBy? last = some (list.filter Call.setsWobble) ↔ later = [] ∨
        (later.all FigureFile.readable = true ∧
          w.seam.definedBy? last = w.seam.definedBy? first) ∨
        (later.all FigureFile.readable = false ∧ w.seam.definedBy? last = some [wobbleOff])) := by
  obtain ⟨hprepared, hoff⟩ := prepared_of_prepare hprepare
  have hu : u = w.loadFiles (front ++ [last]) := by rw [loadFiles_snoc, hlast]
  have hdevice := w.device_loadFiles (front ++ [last])
  have hreloaded := reloaded_loadFiles hprepared hoff (front ++ [last])
  rw [← hu] at hreloaded hdevice
  have hdecided : u.seam.stage ≠ .prepared := by
    simp only [loadFile, loadWobble, Prod.mk.injEq] at hlast
    obtain ⟨hok, rfl⟩ := hlast
    exact Seam.stage_of_loadWobble (Prod.ext hok rfl)
  generalize hs : u.seam = s at hreloaded hdecided
  cases hreloaded with
  | undecided hnone => exact absurd hprepared hdecided
  | @decided s before later first calls hfiles hnone hfirst hstage hcalls =>
    subst hs
    obtain ⟨list, hlist, hentries⟩ := entries_of_buildWeldingList hstage hbuild
    rw [hdevice] at hlist
    rw [hcalls] at hentries
    refine ⟨list, before, first, later, calls, hlist, hfiles, hnone, hfirst, hentries, ?_⟩
    rw [hentries]
    exact Seam.definedBy?_last_iff hfiles hfirst

/-! ### A triangle and then a square -/

/-- A file with this text, the only one that there is. -/
def soleFile (text : String) : FigureFile := ⟨⟨[(["w"], text)], []⟩, "w"⟩

theorem splitOn_slash : "w".splitOn "/" = ["w"] := by
  rw [String.splitOn, if_neg (by decide), String.splitOnAux, if_neg (by decide +kernel),
    if_neg (by decide +kernel), String.splitOnAux, if_pos (by decide +kernel)]
  decide +kernel

theorem load_soleFile (text : String) :
    Figure.load (soleFile text).disk (soleFile text).path = Figure.ofDocument text := by
  have hcheck : Disk.checkPath "w" = .ok () := rfl
  have hresolve : Disk.resolve (soleFile text).disk "w" = .ok (.file text) := by
    simp only [Disk.resolve, hcheck, Disk.startOf, splitOn_slash]
    rfl
  have hpath : (soleFile text).path = "w" := rfl
  rw [Figure.load, hpath, hresolve]

/-- Records may be lists of their fields. -/
def triangleText : String := "[\"\", 0, \"\", 1, 1, [[[0, 0], 0], [[1, 0], 0], [[0, 1], 0]]]"

def squareText : String :=
  "[\"\", 0, \"\", 1, 1, [[[0, 0], 0], [[1, 0], 0], [[1, 1], 0], [[0, 1], 0]]]"

def triangleFile : FigureFile := soleFile triangleText

def squareFile : FigureFile := soleFile squareText

def freeData : SeamData := { power := 0.5, wobbleMode := .free }

def twoPoints : Figure := Figure.ofPoints [⟨⟨1, 0⟩, 0.5, 0, -1⟩, ⟨⟨2, 0⟩, 0.5, 0, -1⟩]

def preparedWelder : Welder CardDevice :=
  ((Welder.create {} CardDevice.fresh ⟨[], []⟩).prepare freeData twoPoints).2

def reloadedWelder : Welder CardDevice :=
  ((preparedWelder.loadFiles [triangleFile]).loadFile squareFile).2

theorem eq_of_isOk {outcome : Except Fault Unit × Welder CardDevice}
    (hok : outcome.1.isOk = true) : outcome = (.ok (), outcome.2) := by
  obtain ⟨result, w⟩ := outcome
  cases result with
  | error fault => cases hok
  | ok => rfl

theorem loadFile_square : (preparedWelder.loadFiles [triangleFile]).loadFile squareFile =
    (.ok (), reloadedWelder) := by
  refine eq_of_isOk ?_
  simp only [loadFiles, List.foldl_cons, List.foldl_nil, loadFile, loadWobble, Seam.loadWobble,
    triangleFile, squareFile, load_soleFile]
  decide +kernel

theorem built_reloadedWelder : reloadedWelder.buildWeldingList.1.isOk = true ∧
    (reloadedWelder.buildWeldingList.2.device.card.calls.filter Call.setsWobble).length = 4 := by
  simp only [reloadedWelder, loadFiles, List.foldl_cons, List.foldl_nil, loadFile, loadWobble,
    Seam.loadWobble, triangleFile, squareFile, load_soleFile]
  decide +kernel

theorem triangle_decides :
    ∃ list before first later calls,
      reloadedWelder.buildWeldingList.2.device.card.calls =
        preparedWelder.device.card.calls ++ .loadList listNumber 0 :: (list ++ [.setEndOfList]) ∧
      [triangleFile, squareFile] = before ++ first :: later ∧
      (∀ file ∈ before, preparedWelder.seam.definedBy? file = none) ∧
      preparedWelder.seam.definedBy? first = some calls ∧
      list.filter Call.setsWobble =
        (if later.all FigureFile.readable then calls else [wobbleOff]) ∧
      (preparedWelder.seam.definedBy? squareFile = some (list.filter Call.setsWobble) ↔
        later = [] ∨
        (later.all FigureFile.readable = true ∧ preparedWelder.seam.definedBy? squareFile =
          preparedWelder.seam.definedBy? first) ∨
        (later.all FigureFile.readable = false ∧
          preparedWelder.seam.definedBy? squareFile = some [wobbleOff])) := by
  have hprepare : (Welder.create {} CardDevice.fresh ⟨[], []⟩).prepare freeData twoPoints =
      (.ok (), preparedWelder) := Prod.ext rfl rfl
  exact first_figure_decides hprepare loadFile_square (eq_of_isOk built_reloadedWelder.1)

/-- It is not so that a list sets up what the figure loaded last defines: a triangle that was loaded
before is used in place of the square. -/
theorem last_figure_ignored :
    ¬ ∀ (v w u w' : Welder CardDevice) (data : SeamData) (figure : Figure)
      (front : List FigureFile) (last : FigureFile), data.wobbleMode = .free →
      v.prepare data figure = (.ok (), w) →
      (w.loadFiles front).loadFile last = (.ok (), u) → u.buildWeldingList = (.ok (), w') →
      ∃ list, w'.device.card.calls =
          w.device.card.calls ++ .loadList listNumber 0 :: (list ++ [.setEndOfList]) ∧
        w.seam.definedBy? last = some (list.filter Call.setsWobble) := by
  intro hall
  obtain ⟨list, hlist, hdefined⟩ := hall (Welder.create {} CardDevice.fresh ⟨[], []⟩)
    preparedWelder reloadedWelder reloadedWelder.buildWeldingList.2 freeData twoPoints
    [triangleFile] squareFile rfl (Prod.ext rfl rfl) loadFile_square
    (eq_of_isOk built_reloadedWelder.1)
  have hlast : (preparedWelder.seam.definedBy? squareFile).map List.length = some 5 := by
    simp only [Seam.definedBy?, squareFile, load_soleFile]
    decide +kernel
  have hwritten := built_reloadedWelder.2
  have hnew : preparedWelder.device.card.calls = [] := rfl
  rw [hdefined] at hlast
  rw [hlist, hnew] at hwritten
  simp only [List.nil_append, List.filter_cons_of_neg, List.filter_append, Option.map_some,
    Option.some.injEq, Call.setsWobble, List.length_append, List.filter_nil, List.length_nil,
    Bool.false_eq_true, not_false_eq_true] at hlast hwritten
  omega

end Welder

end GalvoWeld
