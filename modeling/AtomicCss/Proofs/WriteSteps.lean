import AtomicCss.Proofs.Checked
import AtomicCss.Proofs.FileTrees
import AtomicCss.Proofs.Outputs
import Mathlib.Data.List.Sort

/-!
# Sequences of builds that are written

A build is made before any file is touched. Its outputs are then written one by one, in the order of
their names, and what has been written is not taken back when a later output cannot be written. The
name of a palette is part of the names of two outputs: without a slash they stand in the directory
itself.
-/
namespace AtomicCss

namespace Text

theorem splitOn_of_notMem {sep : Char} {s : List Char} (h : sep ∉ s) : splitOn sep s = [s] := by
  induction s with
  | nil => rfl
  | cons c s ih =>
    rw [List.mem_cons, not_or] at h
    rw [splitOn, ih h.2]
    simp [Ne.symm h.1]

end Text

namespace Path

/-- The texts that name something in a directory. -/
structure IsName (s : String) : Prop where
  noSlash : '/' ∉ s.toList
  nonempty : s ≠ ""
  notHere : s ≠ "."
  notAbove : s ≠ ".."

theorem ofText_of_isName {s : String} (h : IsName s) : ofText s = ⟨"", [s]⟩ := by
  have hroot : rootOf s.toList = "" := by
    cases hs : s.toList with
    | nil => rfl
    | cons c cs =>
      have hc : c ≠ '/' := by
        rintro rfl
        exact h.noSlash (by simp [hs])
      simp [rootOf, hc]
  rw [ofText, hroot, Text.splitOn_of_notMem h.noSlash]
  simp [h.nonempty, h.notHere]

theorem child_of_isName (directory : Path) {s : String} (h : IsName s) :
    directory.child s = ⟨directory.root, directory.parts ++ [s]⟩ := by
  rw [child, ofText_of_isName h, join]
  simp [isAbsolute]

end Path

namespace Build

theorem mem_sortedFiles {b : Build} {f : String × String} : f ∈ b.sortedFiles ↔ f ∈ b.files :=
  (List.mergeSort_perm b.files _).mem_iff

theorem nodup_keys_files (b : Build) : (Dict.keys b.files).Nodup := Dict.nodup_keys_ofList _

/-- The names of the files differ, so there is one way to sort them. -/
theorem sortedFiles_eq (b : Build) :
    b.sortedFiles = b.files.insertionSort fun x y => x.1 ≤ y.1 := by
  have : Std.Total fun x y : String × String => x.1 ≤ y.1 := ⟨fun x y => String.le_total x.1 y.1⟩
  have : IsTrans (String × String) fun x y => x.1 ≤ y.1 := ⟨fun _ _ _ => String.le_trans⟩
  have hsorted : b.sortedFiles.Pairwise fun x y => x.1 ≤ y.1 := by
    have hpairwise : b.sortedFiles.Pairwise fun x y => decide (x.1 ≤ y.1) = true :=
      List.pairwise_mergeSort
        (fun x y z hxy hyz => by
          simpa using String.le_trans (by simpa using hxy) (by simpa using hyz))
        (fun x y => by simpa using String.le_total x.1 y.1) b.files
    exact hpairwise.imp fun h => by simpa using h
  apply List.Perm.eq_of_pairwise ?_ hsorted (List.pairwise_insertionSort _ _)
    ((List.mergeSort_perm _ _).trans (List.perm_insertionSort _ _).symm)
  intro f g hf hg hfg hgf
  have hnames : f.1 = g.1 := String.le_antisymm hfg hgf
  have hget := Dict.get?_of_mem b.nodup_keys_files (mem_sortedFiles.1 hf)
  rw [hnames, Dict.get?_of_mem b.nodup_keys_files ((List.perm_insertionSort _ _).mem_iff.1 hg)]
    at hget
  exact Prod.ext hnames (Option.some.inj hget).symm

/-- No palette has a slash in its name. -/
def HasPlainPalettes (b : Build) : Prop :=
  ∀ palette ∈ b.compiled.tree.paletteNames, '/' ∉ palette.toList

theorem isName_of_mem_files {s : Schema} {o : BuildOptions} {b : Build} (h : b.MadeFrom s o)
    (hplain : b.HasPlainPalettes) {f : String × String} (hf : f ∈ b.files) :
    Path.IsName f.1 := by
  have houtput : f ∈ b.outputs := by
    rcases Dict.mem_of_mem_merge hf with hnil | houtput
    · cases hnil
    · exact houtput
  have hname : f.1 ∈ b.outputs.map (·.1) := List.mem_map_of_mem houtput
  have hslash : '/' ∉ f.1.toList ∧ 2 < f.1.length := by
    rw [names_outputs] at hname
    rcases List.mem_append.1 hname with hname | hmap
    · rcases List.mem_append.1 hname with hfix | hsheet
      · have hfixed : ∀ name ∈ fixedNames, '/' ∉ name.toList ∧ 2 < name.length := by decide
        exact hfixed _ hfix
      · obtain ⟨palette, hp, hpf⟩ := List.mem_map.1 hsheet
        have hfront : 2 < "palette.".length := by decide
        rw [← hpf, sheetName]
        simp [hplain palette (h.mem_palettes.1 hp)]
        omega
    · obtain ⟨palette, hp, hpf⟩ := List.mem_map.1 hmap
      have hfront : 2 < "class-map.".length := by decide
      rw [← hpf, mapName]
      simp [hplain palette (h.mem_paletteValues.1 hp)]
      omega
  refine ⟨hslash.1, ?_, ?_, ?_⟩
  all_goals
    intro heq
    rw [heq] at hslash
    exact absurd hslash.2 (by decide)

end Build

/-- A schema to be built and a directory for the outputs. -/
structure WriteStep where
  schema : Schema
  options : BuildOptions := {}
  directory : Path

/-- Why a step fails: at the build, or at the files. -/
inductive StepError
  | build (e : BuildError)
  | file (e : FileError)

namespace WriteStep

def run (start : Position) (w : WriteStep) (t : FileTree) : FileTree × Except StepError Build :=
  match Build.ofSchema w.schema w.options with
  | .error e => (t, .error (.build e))
  | .ok b =>
    match b.write start w.directory t with
    | (t', none) => (t', .ok b)
    | (t', some e) => (t', .error (.file e))

end WriteStep

/-- A step with the files before and after it. -/
structure Transition where
  before : FileTree
  step : WriteStep
  after : FileTree
  outcome : Except StepError Build

def WriteStep.transition (start : Position) (w : WriteStep) (t : FileTree) : Transition :=
  ⟨t, w, (w.run start t).1, (w.run start t).2⟩

/-- The steps of a sequence, each taken from where the one before it has left the files. -/
def transitions (start : Position) : List WriteStep → FileTree → List Transition
  | [], _ => []
  | w :: ws, t => w.transition start t :: transitions start ws (w.transition start t).after

namespace Transition

variable {start : Position} {x : Transition} {b : Build}

/-- Every file of a build is where its name leads from the step's directory, with its text, and
every file elsewhere is as it was. -/
structure Holds (start : Position) (x : Transition) (b : Build) : Prop where
  present : ∀ f ∈ b.files, ∃ p, x.after.locate start (x.step.directory.child f.1) = .ok p
    ∧ x.after.fileAt? p = some f.2
  elsewhere : ∀ p, (∀ f ∈ b.files, x.after.locate start (x.step.directory.child f.1) ≠ .ok p) →
    x.after.fileAt? p = x.before.fileAt? p

/-- Every file of a build stands in the step's directory itself. -/
structure HoldsInside (start : Position) (x : Transition) (b : Build) : Prop
    extends Holds start x b where
  inside : ∃ d, x.after.locate start x.step.directory = .ok d
    ∧ ∀ f ∈ b.files, x.after.locate start (x.step.directory.child f.1) = .ok (d ++ [f.1])

/-- No two files of a build have names that lead to one place. -/
def HasOwnPlaces (start : Position) (x : Transition) (b : Build) : Prop :=
  ∀ f ∈ b.files, ∀ g ∈ b.files, ∀ p, x.after.locate start (x.step.directory.child f.1) = .ok p →
    x.after.locate start (x.step.directory.child g.1) = .ok p → f = g

/-- A step that is taken as a whole or not at all. -/
structure IsAtomic (start : Position) (x : Transition) : Prop where
  whole : ∀ b, x.outcome = .ok b → x.Holds start b
  untouched : ∀ e, x.outcome = .error e → ∀ p, x.after.fileAt? p = x.before.fileAt? p

/-- A step whose outputs have been written up to one that could not be. -/
def StoppedAt (start : Position) (x : Transition) (e : FileError) : Prop :=
  ∃ b written name text rest, Build.ofSchema x.step.schema x.step.options = .ok b
    ∧ b.sortedFiles = written ++ (name, text) :: rest
    ∧ x.after.write start (x.step.directory.child name) text = .error e
    ∧ x.before.Written start x.step.directory written x.after

/-- What every step does to the files: one that returns has written all its outputs, one that fails
to build or to make its directory has touched no file, and one that fails to write an output has
written those before it. -/
structure IsAccounted (start : Position) (x : Transition) : Prop where
  built : ∀ b, x.outcome = .ok b → Build.ofSchema x.step.schema x.step.options = .ok b
  written : ∀ b, x.outcome = .ok b →
    x.before.Written start x.step.directory b.sortedFiles x.after
  whole : ∀ b, x.outcome = .ok b → x.HasOwnPlaces start b → x.Holds start b
  inside : ∀ b, x.outcome = .ok b → b.HasPlainPalettes → x.HoldsInside start b
  notBuilt : ∀ e, x.outcome = .error (.build e) →
    Build.ofSchema x.step.schema x.step.options = .error e ∧ x.after = x.before
  notWritten : ∀ e, x.outcome = .error (.file e) →
    ((x.before.makeDirectories start x.step.directory).2 = some e
        ∧ ∀ p, x.after.fileAt? p = x.before.fileAt? p)
      ∨ x.StoppedAt start e

theorem holds_of_written (h : x.before.Written start x.step.directory b.sortedFiles x.after)
    (hplaces : x.HasOwnPlaces start b) : x.Holds start b := by
  refine ⟨?_, ?_⟩
  · intro f hf
    obtain ⟨p, hp⟩ := h.located f (Build.mem_sortedFiles.2 hf)
    refine ⟨p, hp, ?_⟩
    have hlast := FileTree.lastText?_eq_some (Build.mem_sortedFiles.2 hf) hp fun g hg hgp =>
      hplaces g (Build.mem_sortedFiles.1 hg) f hf p hgp hp
    rw [h.texts, hlast]
    rfl
  · intro p hp
    rw [h.texts, FileTree.lastText?_eq_none fun f hf => hp f (Build.mem_sortedFiles.1 hf)]
    rfl

theorem holdsInside_of_written
    (h : x.before.Written start x.step.directory b.sortedFiles x.after) {d : Position}
    (hd : x.after.locate start x.step.directory = .ok d)
    (hb : Build.ofSchema x.step.schema x.step.options = .ok b) (hplain : b.HasPlainPalettes) :
    x.HoldsInside start b := by
  have hinside : ∀ f ∈ b.files,
      x.after.locate start (x.step.directory.child f.1) = .ok (d ++ [f.1]) := by
    intro f hf
    have hname := Build.isName_of_mem_files (Build.madeFrom hb) hplain hf
    obtain ⟨p, hp⟩ := h.located f (Build.mem_sortedFiles.2 hf)
    rw [hp, FileTree.locate_child (Path.child_of_isName _ hname) hname.notAbove hd hp]
  have hplaces : x.HasOwnPlaces start b := by
    intro f hf g hg p hfp hgp
    rw [hinside f hf] at hfp
    rw [hinside g hg, ← hfp] at hgp
    have hnames : g.1 = f.1 := by simpa using hgp
    have hget := Dict.get?_of_mem b.nodup_keys_files hf
    rw [← hnames, Dict.get?_of_mem b.nodup_keys_files hg] at hget
    exact Prod.ext hnames.symm (Option.some.inj hget).symm
  exact ⟨holds_of_written h hplaces, d, hd, hinside⟩

/-- What a build that is written does to the files. -/
theorem isAccounted_transition (start : Position) (w : WriteStep) (t : FileTree) :
    (w.transition start t).IsAccounted start := by
  rw [WriteStep.transition, WriteStep.run]
  cases hb : Build.ofSchema w.schema w.options with
  | error e =>
    constructor
    case notBuilt =>
      intro e' he
      cases he
      exact ⟨hb, rfl⟩
    all_goals
      intro _ h
      cases h
  | ok b =>
    have hsaves := FileTree.saves_save start w.directory t b.sortedFiles
    simp only [Build.write]
    generalize t.save start w.directory b.sortedFiles = saved at hsaves
    obtain ⟨t', failure⟩ := saved
    -- The directory is not made, or all files are written, or those before one that is not.
    cases hsaves with
    | unmade e hmade hsame =>
      constructor
      case notWritten =>
        intro e' he
        cases he
        exact .inl ⟨hmade, hsame⟩
      all_goals
        intro _ h
        cases h
    | all d hd hwritten =>
      constructor
      case built =>
        intro b' h
        cases h
        exact hb
      case written =>
        intro b' h
        cases h
        exact hwritten
      case whole =>
        intro b' h
        cases h
        exact holds_of_written hwritten
      case inside =>
        intro b' h
        cases h
        exact holdsInside_of_written hwritten hd hb
      all_goals
        intro _ h
        cases h
    | some e done name text rest hsplit hfailed hwritten =>
      constructor
      case notWritten =>
        intro e' he
        cases he
        exact .inr ⟨b, done, name, text, rest, hb, hsplit, hfailed, hwritten⟩
      all_goals
        intro _ h
        cases h

end Transition

/-- Every step of every sequence is accounted for. -/
theorem isAccounted_of_mem_transitions (start : Position) (steps : List WriteStep) (t : FileTree) :
    ∀ x ∈ transitions start steps t, x.IsAccounted start := by
  induction steps generalizing t with
  | nil =>
    intro x hx
    cases hx
  | cons w steps ih =>
    intro x hx
    rcases List.mem_cons.1 hx with rfl | hx
    · exact Transition.isAccounted_transition start w t
    · exact ih _ x hx

theorem isAccounted_blackBoxes :
    let brand : WriteStep := ⟨Build.blackBox "brand", {}, .ofText "out"⟩
    let slash : WriteStep := ⟨Build.blackBox "z/b", {}, .ofText "out"⟩
    (transitions [] [brand, slash] {}).map (·.outcome.toOption.isSome) = [true, false]
      ∧ ∃ x ∈ transitions [] [brand, slash] {}, ∃ y ∈ transitions [] [brand, slash] {},
        transitions [] [brand, slash] {} = [x, y] ∧ x.IsAccounted [] ∧ y.IsAccounted [] := by
  intro brand slash
  have hsteps : transitions [] [brand, slash] {}
      = [brand.transition [] {}, slash.transition [] (brand.transition [] {}).after] := by
    rw [transitions, transitions, transitions]
  have hx : brand.transition [] {} ∈ transitions [] [brand, slash] {} := by
    rw [hsteps]
    exact List.mem_cons_self
  have hy : slash.transition [] (brand.transition [] {}).after
      ∈ transitions [] [brand, slash] {} := by
    rw [hsteps]
    exact List.mem_cons_of_mem _ List.mem_cons_self
  refine ⟨?_, _, hx, _, hy, hsteps, ?_, ?_⟩
  · simp only [transitions, WriteStep.transition, WriteStep.run, Build.write,
      Build.sortedFiles_eq]
    decide +kernel
  · exact isAccounted_of_mem_transitions [] [brand, slash] {} _ hx
  · exact isAccounted_of_mem_transitions [] [brand, slash] {} _ hy

/-- A slash in a palette's name can lead to a directory that is not there. The class maps come
before the palette's sheet, and have then been written. -/
theorem not_isAtomic_of_missing :
    ¬(WriteStep.transition [] ⟨Build.blackBox "z/b", {}, .ofText "out"⟩ {}).IsAtomic [] := by
  let slash : WriteStep := ⟨Build.blackBox "z/b", {}, .ofText "out"⟩
  have hrun : (slash.transition [] {}).outcome.toOption.isSome = false
      ∧ ((slash.transition [] {}).after.fileAt? ["out", "class-map.json"]).isSome = true := by
    simp only [WriteStep.transition, WriteStep.run, Build.write, Build.sortedFiles_eq]
    decide +kernel
  obtain ⟨hfails, hmap⟩ := hrun
  intro hatomic
  cases houtcome : (slash.transition [] {}).outcome with
  | ok b => simp [houtcome, Except.toOption] at hfails
  | error e =>
    rw [hatomic.untouched e houtcome] at hmap
    cases hmap

/-- The directories through which the outputs of a palette named `x/../core` lead back up. -/
def detours : FileTree :=
  ⟨[(["out"], .directory), (["out", "palette.x"], .directory),
    (["out", "class-map.x"], .directory)]⟩

/-- A slash can also lead to the place of another output, whose text is then lost. -/
theorem not_isAtomic_of_shared :
    let above : WriteStep := ⟨Build.blackBox "x/../core", {}, .ofText "out"⟩
    (∃ b, (above.transition [] detours).outcome = .ok b)
      ∧ ¬(above.transition [] detours).IsAtomic [] := by
  intro above
  have hrun :
      (above.transition [] detours).outcome.toOption.map (·.files.get? "core.css") = some (some "")
      ∧ ((above.transition [] detours).after.locate []
        ((Path.ofText "out").child "core.css")).toOption = some ["out", "core.css"]
      ∧ (above.transition [] detours).after.fileAt? ["out", "core.css"] ≠ some "" := by
    simp only [WriteStep.transition, WriteStep.run, Build.write, Build.sortedFiles_eq]
    decide +kernel
  obtain ⟨hcore, hplace, hlost⟩ := hrun
  obtain ⟨b, hb, hcss⟩ := exists_of_toOption_map hcore
  refine ⟨⟨b, hb⟩, ?_⟩
  intro hatomic
  obtain ⟨p, hp, htext⟩ := (hatomic.whole b hb).present _ (Dict.mem_of_get? hcss)
  have hp' : ((above.transition [] detours).after.locate []
      ((Path.ofText "out").child "core.css")).toOption = some p := congrArg Except.toOption hp
  rw [hplace] at hp'
  cases hp'
  exact hlost htext

theorem exists_not_isAtomic :
    (∃ x ∈ transitions [] [⟨Build.blackBox "z/b", {}, .ofText "out"⟩] {}, ¬x.IsAtomic [])
      ∧ ∃ x ∈ transitions [] [⟨Build.blackBox "x/../core", {}, .ofText "out"⟩] detours,
        (∃ b, x.outcome = .ok b) ∧ ¬x.IsAtomic [] := by
  constructor
  · exact ⟨_, List.mem_singleton.2 rfl, not_isAtomic_of_missing⟩
  · exact ⟨_, List.mem_singleton.2 rfl, not_isAtomic_of_shared⟩

end AtomicCss
