import AtomicCss.Files.Tree
import AtomicCss.Proofs.Results

/-!
# Laws of file trees

Putting a node at a position changes what stands there and nothing else. A write that succeeds
puts one file where its path leads, and leaves every directory a directory; making directories
touches no file. So when files are written in turn, each position holds the last text that went
there, and else the file that stood there before.
-/
namespace AtomicCss.FileTree

variable {t t' : FileTree} {start below p q : Position} {directory path : Path}

def fileAt? (t : FileTree) (p : Position) : Option String :=
  match t.nodeAt? p with
  | some (.file text) => some text
  | _ => none

def IsDirectory (t : FileTree) (p : Position) : Prop := t.nodeAt? p = some .directory

theorem nodeAt?_of_ne (t : FileTree) (hp : p ≠ []) :
    t.nodeAt? p = (t.nodes.find? fun n => n.1 == p).map (·.2) := by
  cases p with
  | nil => exact absurd rfl hp
  | cons part p => rfl

theorem find?_replace_of_ne (nodes : List (Position × Node)) (hq : q ≠ p) (n : Node) :
    ((nodes.map fun m => if m.1 == p then (p, n) else m).find? fun m => m.1 == q)
      = nodes.find? fun m => m.1 == q := by
  induction nodes with
  | nil => rfl
  | cons m nodes ih =>
    rw [List.map_cons, List.find?_cons, List.find?_cons, ih]
    by_cases hm : m.1 = p
    · have hpq : (p == q) = false := beq_false_of_ne (Ne.symm hq)
      simp [hm, hpq]
    · simp [hm]

theorem find?_replace_self (nodes : List (Position × Node)) (p : Position) (n : Node)
    (h : (nodes.any fun m => m.1 == p) = true) :
    ((nodes.map fun m => if m.1 == p then (p, n) else m).find? fun m => m.1 == p)
      = some (p, n) := by
  induction nodes with
  | nil => simp at h
  | cons m nodes ih =>
    rw [List.map_cons, List.find?_cons]
    by_cases hm : m.1 = p
    · simp [hm]
    · have hany : (nodes.any fun m => m.1 == p) = true := by simpa [hm] using h
      have hmp : (m.1 == p) = false := beq_false_of_ne hm
      rw [ih hany]
      simp [hmp]

/-- Putting a node changes what stands at its position alone. -/
theorem nodeAt?_put (hp : p ≠ []) (t : FileTree) (n : Node) (q : Position) :
    (t.put p n).nodeAt? q = if q = p then some n else t.nodeAt? q := by
  by_cases hq : q = []
  · have hqp : q ≠ p := fun h => hp (h ▸ hq)
    rw [if_neg hqp, hq]
    rfl
  · rw [nodeAt?_of_ne _ hq, nodeAt?_of_ne _ hq, put]
    by_cases hany : (t.nodes.any fun m => m.1 == p) = true
    · rw [if_pos hany]
      by_cases hqp : q = p
      · rw [if_pos hqp, hqp, find?_replace_self t.nodes p n hany]
        rfl
      · rw [if_neg hqp, find?_replace_of_ne t.nodes hqp]
    · have hnone : t.nodes.find? (fun m => m.1 == p) = none :=
        List.find?_eq_none.2 fun m hm hmp => hany (List.any_eq_true.2 ⟨m, hm, hmp⟩)
      rw [if_neg hany, List.find?_append]
      by_cases hqp : q = p
      · simp [hqp, hnone]
      · simp [hqp, Ne.symm hqp]

theorem fileAt?_put_file (hp : p ≠ []) (t : FileTree) (text : String) (q : Position) :
    (t.put p (.file text)).fileAt? q = if q = p then some text else t.fileAt? q := by
  by_cases hqp : q = p
  · simp [fileAt?, nodeAt?_put hp, hqp]
  · simp [fileAt?, nodeAt?_put hp, hqp]

theorem step_eq_ok {part : String} : t.step below part = .ok q ↔ t.IsDirectory below
    ∧ ¬nameLimit < part.utf8ByteSize
    ∧ (if part = ".." then below.dropLast else below ++ [part]) = q := by
  rw [step, IsDirectory]
  cases t.nodeAt? below with
  | none => simp
  | some n =>
    cases n with
    | file text => simp
    | directory =>
      by_cases hlong : nameLimit < part.utf8ByteSize
      · simp [hlong]
      · simp [hlong]

theorem step_mono (h : ∀ p, t.IsDirectory p → t'.IsDirectory p) {part : String}
    (hstep : t.step below part = .ok q) : t'.step below part = .ok q := by
  obtain ⟨hdir, hrest⟩ := step_eq_ok.1 hstep
  exact step_eq_ok.2 ⟨h _ hdir, hrest⟩

theorem foldlM_step_mono (h : ∀ p, t.IsDirectory p → t'.IsDirectory p) {parts : List String}
    (hsteps : parts.foldlM t.step below = .ok q) : parts.foldlM t'.step below = .ok q := by
  induction parts generalizing below with
  | nil => exact hsteps
  | cons part parts ih =>
    rw [List.foldlM_cons] at hsteps ⊢
    obtain ⟨mid, hmid, hrest⟩ := bind_eq_ok.1 hsteps
    exact bind_eq_ok.2 ⟨mid, step_mono h hmid, ih hrest⟩

/-- A path that leads somewhere leads there also where there are more directories. -/
theorem locate_mono (h : ∀ p, t.IsDirectory p → t'.IsDirectory p)
    (hlocate : t.locate start path = .ok p) : t'.locate start path = .ok p := by
  rw [locate] at hlocate ⊢
  cases hfault : pathFault? path with
  | some e => simp [hfault] at hlocate
  | none =>
    simp only [hfault] at hlocate ⊢
    exact foldlM_step_mono h hlocate

def SameDirectories (t t' : FileTree) : Prop := ∀ p, t.IsDirectory p ↔ t'.IsDirectory p

theorem SameDirectories.trans {t'' : FileTree} (h : t.SameDirectories t')
    (h' : t'.SameDirectories t'') : t.SameDirectories t'' := fun p => (h p).trans (h' p)

/-- Where paths lead hangs on the directories alone. -/
theorem SameDirectories.locate_iff (h : t.SameDirectories t') :
    t.locate start path = .ok p ↔ t'.locate start path = .ok p :=
  ⟨locate_mono fun p => (h p).1, locate_mono fun p => (h p).2⟩

theorem locate_child {name : String} (hparts : directory.child name
      = ⟨directory.root, directory.parts ++ [name]⟩)
    (hname : name ≠ "..") (hdir : t.locate start directory = .ok q)
    (hlocate : t.locate start (directory.child name) = .ok p) : p = q ++ [name] := by
  rw [locate] at hdir hlocate
  cases hfault : pathFault? directory with
  | some e => simp [hfault] at hdir
  | none =>
    cases hfault' : pathFault? (directory.child name) with
    | some e => simp [hfault'] at hlocate
    | none =>
      have habsolute : (directory.child name).isAbsolute = directory.isAbsolute := by
        rw [hparts]
        rfl
      simp only [hfault] at hdir
      simp only [hfault', habsolute] at hlocate
      rw [hparts, List.foldlM_append] at hlocate
      obtain ⟨q', hq', hlast⟩ := bind_eq_ok.1 hlocate
      have hqq : q = q' := Except.ok.inj (hdir.symm.trans hq')
      rw [List.foldlM_cons] at hlast
      obtain ⟨p', hp', hend⟩ := bind_eq_ok.1 hlast
      obtain ⟨-, -, hstep⟩ := step_eq_ok.1 hp'
      rw [if_neg hname] at hstep
      rw [← pure_eq_ok.1 hend, ← hstep, hqq]

/-- A write that succeeds puts the file where the path leads. -/
theorem exists_of_write_eq_ok {text : String} (h : t.write start path text = .ok t') :
    ∃ p, t.locate start path = .ok p ∧ p ≠ [] ∧ ¬t.IsDirectory p ∧ t' = t.put p (.file text) := by
  obtain ⟨p, hp, hwrite⟩ := bind_eq_ok.1 h
  have hdir : ¬t.IsDirectory p := by
    intro hdir
    rw [IsDirectory] at hdir
    simp [hdir] at hwrite
  have hroot : p ≠ [] := by
    rintro rfl
    exact hdir rfl
  refine ⟨p, hp, hroot, hdir, ?_⟩
  split at hwrite
  · cases hwrite
  · exact (Except.ok.inj hwrite).symm
  · cases hwrite
  · cases hwrite

theorem sameDirectories_put_file (text : String) (hp : p ≠ []) (hdir : ¬t.IsDirectory p) :
    t.SameDirectories (t.put p (.file text)) := by
  intro q
  rw [IsDirectory, IsDirectory, nodeAt?_put hp]
  by_cases hqp : q = p
  · rw [IsDirectory] at hdir
    simp [hqp, hdir]
  · simp [hqp]

theorem read_of_write {text : String} (h : t.write start path text = .ok t') :
    t'.read start path = .ok text := by
  obtain ⟨p, hlocate, hroot, hdir, rfl⟩ := exists_of_write_eq_ok h
  have hlater := (sameDirectories_put_file text hroot hdir).locate_iff.1 hlocate
  rw [read]
  refine bind_eq_ok.2 ⟨p, hlater, ?_⟩
  rw [nodeAt?_put hroot, if_pos rfl]

/-- Making a directory touches no file, and every directory stays one. -/
theorem makeStep_eq_ok {part : String} (h : t.makeStep below part = .ok (q, t')) :
    t.step below part = .ok q ∧ t'.IsDirectory q ∧ (∀ p, t'.fileAt? p = t.fileAt? p)
      ∧ ∀ p, t.IsDirectory p → t'.IsDirectory p := by
  obtain ⟨q', hq', hmake⟩ := bind_eq_ok.1 h
  split at hmake
  · next hdir =>
    cases hmake
    exact ⟨hq', hdir, fun _ => rfl, fun _ hp => hp⟩
  · cases hmake
  · next hnone =>
    cases hmake
    have hroot : q ≠ [] := by
      rintro rfl
      cases hnone
    refine ⟨hq', ?_, ?_, ?_⟩
    · simp [IsDirectory, nodeAt?_put hroot]
    · intro p
      rw [fileAt?, fileAt?, nodeAt?_put hroot]
      by_cases hp : p = q
      · simp [hp, hnone]
      · simp [hp]
    · intro p hp
      rw [IsDirectory, nodeAt?_put hroot]
      by_cases hpq : p = q
      · simp [hpq]
      · rw [if_neg hpq]
        exact hp

theorem fileAt?_makeFrom {parts : List String} (p : Position) :
    (t.makeFrom below parts).1.fileAt? p = t.fileAt? p := by
  induction parts generalizing t below with
  | nil => rfl
  | cons part parts ih =>
    rw [makeFrom]
    split
    · next hmake =>
      rw [ih]
      exact (makeStep_eq_ok hmake).2.2.1 p
    · rfl
    · rfl

theorem isDirectory_makeFrom (below : Position) (parts : List String) (h : t.IsDirectory p) :
    (t.makeFrom below parts).1.IsDirectory p := by
  induction parts generalizing t below with
  | nil => exact h
  | cons part parts ih =>
    rw [makeFrom]
    split
    · next hmake => exact ih _ ((makeStep_eq_ok hmake).2.2.2 p h)
    · exact h
    · exact h

theorem exists_of_makeFrom {parts : List String} (h : t.makeFrom below parts = (t', none)) :
    ∃ q, parts.foldlM t'.step below = .ok q := by
  induction parts generalizing t below with
  | nil => exact ⟨below, rfl⟩
  | cons part parts ih =>
    rw [makeFrom] at h
    split at h
    · next mid t₁ hmake =>
      obtain ⟨q, hq⟩ := ih h
      obtain ⟨hstep, -, -, hdir⟩ := makeStep_eq_ok hmake
      have hlater : ∀ p, t.IsDirectory p → t'.IsDirectory p := by
        intro p hp
        have hmade := isDirectory_makeFrom mid parts (hdir p hp)
        rwa [h] at hmade
      refine ⟨q, ?_⟩
      rw [List.foldlM_cons]
      exact bind_eq_ok.2 ⟨mid, step_mono hlater hstep, hq⟩
    · cases h
    · cases h

theorem fileAt?_makeDirectories (t : FileTree) (start : Position) (directory : Path)
    (p : Position) :
    (t.makeDirectories start directory).1.fileAt? p = t.fileAt? p := by
  rw [makeDirectories]
  split
  · rfl
  · exact fileAt?_makeFrom p

theorem exists_of_makeDirectories (h : t.makeDirectories start directory = (t', none)) :
    ∃ q, t'.locate start directory = .ok q := by
  rw [makeDirectories] at h
  rw [locate]
  cases hfault : pathFault? directory with
  | some e => simp [hfault] at h
  | none =>
    simp only [hfault] at h ⊢
    exact exists_of_makeFrom h

theorem writeAll_nil : t.writeAll start directory [] = (t, none) := rfl

-- What is wrong with a path is not to be computed here, where the path is not known.
attribute [local irreducible] pathFault? in
theorem writeAll_cons {name text : String} {files : List (String × String)} :
    t.writeAll start directory ((name, text) :: files)
      = match t.write start (directory.child name) text with
        | .ok t' => t'.writeAll start directory files
        | .error e => (t, some e) := rfl

/-- The text that goes last to a position, when files are written into a directory. -/
def lastText? (t : FileTree) (start : Position) (directory : Path) (p : Position) :
    List (String × String) → Option String
  | [] => none
  | (name, text) :: files =>
    (lastText? t start directory p files).or
      (match t.locate start (directory.child name) with
        | .ok q => if q = p then some text else none
        | .error _ => none)

theorem lastText?_eq_none {files : List (String × String)}
    (h : ∀ f ∈ files, t.locate start (directory.child f.1) ≠ .ok p) :
    t.lastText? start directory p files = none := by
  induction files with
  | nil => rfl
  | cons f files ih =>
    rw [lastText?, ih fun g hg => h g (List.mem_cons_of_mem _ hg)]
    cases hlocate : t.locate start (directory.child f.1) with
    | error e => rfl
    | ok q =>
      have hq : q ≠ p := by
        rintro rfl
        exact h f List.mem_cons_self hlocate
      simp [hq]

/-- A text that alone goes to a position goes there last. -/
theorem lastText?_eq_some {files : List (String × String)} {f : String × String} (hf : f ∈ files)
    (hlocate : t.locate start (directory.child f.1) = .ok p)
    (honly : ∀ g ∈ files, t.locate start (directory.child g.1) = .ok p → g = f) :
    t.lastText? start directory p files = some f.2 := by
  induction files with
  | nil => cases hf
  | cons g files ih =>
    rw [lastText?]
    by_cases hmem : f ∈ files
    · rw [ih hmem fun g hg => honly g (List.mem_cons_of_mem _ hg)]
      rfl
    · have hfg : f = g := (List.mem_cons.1 hf).resolve_right hmem
      have hnone : t.lastText? start directory p files = none := by
        apply lastText?_eq_none
        intro g' hg' hlocate'
        exact hmem (honly g' (List.mem_cons_of_mem _ hg') hlocate' ▸ hg')
      rw [hnone, ← hfg, hlocate]
      simp

/-- What writing files into a directory makes of the files there are: every name leads to a place,
and every position holds the last text that went there, or else the file that stood there. -/
structure Written (start : Position) (directory : Path) (t : FileTree)
    (files : List (String × String)) (t' : FileTree) : Prop where
  located : ∀ f ∈ files, ∃ p, t'.locate start (directory.child f.1) = .ok p
  texts : ∀ p, t'.fileAt? p = (t'.lastText? start directory p files).or (t.fileAt? p)

/-- Writing files also leaves every directory where it is. -/
structure Writes (start : Position) (directory : Path) (t : FileTree)
    (files : List (String × String)) (t' : FileTree) : Prop
    extends Written start directory t files t' where
  directories : t.SameDirectories t'

theorem writes_nil (start : Position) (directory : Path) (t : FileTree) :
    Writes start directory t [] t :=
  ⟨⟨fun _ hf => absurd hf List.not_mem_nil, fun _ => rfl⟩, fun _ => Iff.rfl⟩

theorem Writes.cons {t₁ : FileTree} {name text : String} {written : List (String × String)}
    (hwrite : t.write start (directory.child name) text = .ok t₁)
    (h : Writes start directory t₁ written t') :
    Writes start directory t ((name, text) :: written) t' := by
  obtain ⟨q, hlocate, hroot, hdir, rfl⟩ := exists_of_write_eq_ok hwrite
  have hsame := (sameDirectories_put_file text hroot hdir).trans h.directories
  have hlater := hsame.locate_iff.1 hlocate
  refine ⟨⟨?_, ?_⟩, hsame⟩
  · intro f hf
    rcases List.mem_cons.1 hf with rfl | hf
    · exact ⟨q, hlater⟩
    · exact h.located f hf
  · intro p
    rw [h.texts, lastText?, hlater, fileAt?_put_file hroot]
    by_cases hp : p = q
    · simp [hp]
    · simp [hp, Ne.symm hp]

/-- Files are written in turn up to the first that cannot be written. -/
theorem writes_of_writeAll (files : List (String × String)) {failure : Option FileError}
    (h : t.writeAll start directory files = (t', failure)) :
    (failure = none ∧ Writes start directory t files t')
      ∨ ∃ e written name text rest, failure = some e ∧ files = written ++ (name, text) :: rest
        ∧ t'.write start (directory.child name) text = .error e
        ∧ Writes start directory t written t' := by
  induction files generalizing t with
  | nil =>
    rw [writeAll_nil] at h
    obtain ⟨rfl, rfl⟩ := Prod.mk.inj h
    exact .inl ⟨rfl, writes_nil start directory t⟩
  | cons f files ih =>
    obtain ⟨name, text⟩ := f
    rw [writeAll_cons] at h
    split at h
    · next t₁ hwrite =>
      rcases ih h with ⟨hnone, hwrites⟩
        | ⟨e, written, name', text', rest, he, hfiles, herror, hwrites⟩
      · exact .inl ⟨hnone, Writes.cons hwrite hwrites⟩
      · right
        refine ⟨e, (name, text) :: written, name', text', rest, he, ?_, herror,
          Writes.cons hwrite hwrites⟩
        rw [hfiles, List.cons_append]
    · next e hwrite =>
      obtain ⟨rfl, rfl⟩ := Prod.mk.inj h
      right
      exact ⟨e, [], name, text, files, rfl, rfl, hwrite, writes_nil start directory t⟩

/-- The ways in which files are saved in a directory: it cannot be made, or they are written up to
one that cannot be. -/
inductive Saves (start : Position) (directory : Path) (t : FileTree)
    (files : List (String × String)) (t' : FileTree) : Option FileError → Prop
  | unmade (e : FileError) (made : (t.makeDirectories start directory).2 = some e)
      (same : ∀ p, t'.fileAt? p = t.fileAt? p) : Saves start directory t files t' (some e)
  | all (d : Position) (located : t'.locate start directory = .ok d)
      (written : Written start directory t files t') : Saves start directory t files t' none
  | some (e : FileError) (done : List (String × String)) (name text : String)
      (rest : List (String × String)) (split : files = done ++ (name, text) :: rest)
      (failed : t'.write start (directory.child name) text = .error e)
      (written : Written start directory t done t') : Saves start directory t files t' (some e)

theorem saves_save (start : Position) (directory : Path) (t : FileTree)
    (files : List (String × String)) :
    Saves start directory t files (t.save start directory files).1
      (t.save start directory files).2 := by
  rw [save]
  have hsame := fileAt?_makeDirectories t start directory
  split
  · next t₁ e hmade =>
    rw [hmade] at hsame
    exact .unmade e (by rw [hmade]) hsame
  · next t₁ hmade =>
    rw [hmade] at hsame
    obtain ⟨d, hd⟩ := exists_of_makeDirectories hmade
    -- What stands in the tree with the new directories are the files from before.
    have hbefore : ∀ {done t'}, Writes start directory t₁ done t' →
        Written start directory t done t' := by
      intro done t' h
      refine ⟨h.located, ?_⟩
      intro p
      rw [h.texts, hsame]
    rcases writes_of_writeAll (t := t₁) files rfl with
      ⟨hnone, hwrites⟩ | ⟨e, done, name, text, rest, hsome, hfiles, herror, hwrites⟩
    · rw [hnone]
      exact .all d (hwrites.directories.locate_iff.1 hd) (hbefore hwrites)
    · rw [hsome]
      exact .some e done name text rest hfiles herror (hbefore hwrites)

end AtomicCss.FileTree
