import AtomicCss.Proofs.SelectorConditions
import AtomicCss.Proofs.SheetTexts
import Mathlib.Data.List.Chain

/-!
# Reading sheets back

A sheet is text: rules on lines of their own, rules in a line with their query, and blocks of a
query. Read line by line it gives the rules it was made of, whether or not they were folded.

Main definitions: `Rule.Foldable`, what the texts of rules must not hold, and `Rule.rulesIn`, the
rules that are read from a sheet.
-/
namespace AtomicCss

namespace Text

def lines (s : String) : List (List Char) := s.toList.splitOn '\n'

theorem lines_of_notMem {s : String} (h : '\n' ∉ s.toList) : lines s = [s.toList] :=
  List.splitOn_eq_singleton h

theorem lines_append (s t : String) : lines (s ++ "\n" ++ t) = lines s ++ lines t := by
  have hsplit : (s ++ "\n" ++ t).toList = s.toList ++ '\n' :: t.toList := by simp
  rw [lines, hsplit, List.splitOn_append_cons_self]
  rfl

theorem lines_intercalate {parts : List String} (hne : parts ≠ []) :
    lines ("\n".intercalate parts) = parts.flatMap lines := by
  induction parts with
  | nil => exact absurd rfl hne
  | cons s parts ih =>
    cases parts with
    | nil => simp
    | cons t parts =>
      rw [String.intercalate_cons_cons, lines_append, ih (List.cons_ne_nil t parts)]
      rfl

/-- What stands between two texts with one beginning has this beginning as well. -/
theorem eq_append_of_between {front a b c : List Char} (hab : front ++ a ≤ b)
    (hbc : b ≤ front ++ c) : ∃ rest, b = front ++ rest := by
  induction front generalizing b with
  | nil => exact ⟨b, rfl⟩
  | cons x front ih =>
    rw [← not_lt] at hab hbc
    cases b with
    | nil => exact absurd (by simp) hab
    | cons y b =>
      rw [List.cons_append, List.cons_lt_cons_iff, not_or, not_and, not_lt] at hab hbc
      obtain rfl : x = y := le_antisymm hab.1 hbc.1
      obtain ⟨rest, rfl⟩ := ih (not_lt.1 (hab.2 rfl)) (not_lt.1 (hbc.2 rfl))
      exact ⟨rest, rfl⟩

end Text

namespace Rule

/-- The query that a line begins with, and what stands after its brace. -/
def header? (line : List Char) : Option (String × List Char) := do
  let rest ← Text.after? "@media ".toList line
  let (query, rest) ← Text.cut ['\x7b'] rest
  pure (String.ofList query.dropLast, rest)

/-- Reads a line, inside the block of a query or outside of blocks. It tells the block in which the
next line stands, and the rules on the line. -/
def readLine : Option String → List Char → Option String × List Rule
  | none, line =>
    match header? line with
    | some (query, []) => (some query, [])
    | some (query, rest) =>
      (none, [⟨String.ofList (rest.drop 1).dropLast.dropLast, some query⟩])
    | none => (none, if line.isEmpty then [] else [⟨String.ofList line, none⟩])
  | some query, line =>
    if line = ['\x7d'] then (none, [])
    else (some query, [⟨String.ofList (line.drop 2), some query⟩])

def readLines : Option String → List (List Char) → List Rule
  | _, [] => []
  | block, line :: lines => (readLine block line).2 ++ readLines (readLine block line).1 lines

/-- The rules in the text of a sheet. -/
def rulesIn (css : String) : List Rule := readLines none (Text.lines css)

def blockQuery? (block : String) : Option String := (header? block.toList).map Prod.fst

/-- A rule whose text can be told from the other lines of a sheet. -/
structure Foldable (r : Rule) : Prop where
  body : r.body.toList.head? = some '.'
  line : '\n' ∉ r.body.toList
  media : ∀ query ∈ r.media, '\n' ∉ query.toList ∧ '\x7b' ∉ query.toList

structure FoldableRun (run : Option String × List String) : Prop where
  bodies : run.2 ≠ []
  rules : ∀ body ∈ run.2, Foldable ⟨body, run.1⟩

theorem header?_query {query : String} (h : '\x7b' ∉ query.toList) (rest : List Char) :
    header? ("@media ".toList ++ (query.toList ++ ' ' :: '\x7b' :: rest)) = some (query, rest) := by
  have hline : query.toList ++ ' ' :: '\x7b' :: rest
      = (query.toList ++ [' ']) ++ ('\x7b' :: rest) := by
    simp
  have hfront : '\x7b' ∉ query.toList ++ [' '] := by simpa using h
  have hself : Text.cut ['\x7b'] ('\x7b' :: rest) = some ([], rest) :=
    Text.cut_self (List.cons_ne_nil _ []) rest
  rw [header?, Text.after?_eq_some.2 rfl, Option.bind_eq_bind, Option.bind_some, hline,
    Text.cut_append hfront, hself]
  simp

theorem header?_body {body : String} (h : body.toList.head? = some '.') :
    header? body.toList = none := by
  obtain ⟨rest, hbody⟩ := List.head?_eq_some_iff.1 h
  rw [header?, hbody]
  rfl

theorem readLine_open {query : String} (h : '\x7b' ∉ query.toList) :
    readLine none ("@media " ++ query ++ " \x7b").toList = (some query, []) := by
  have hline : ("@media " ++ query ++ " \x7b").toList
      = "@media ".toList ++ (query.toList ++ [' ', '\x7b']) := by
    simp
  rw [hline, readLine, header?_query h]

theorem readLine_close (query : String) : readLine (some query) ['\x7d'] = (none, []) := by
  simp [readLine]

theorem readLine_body {body : String} (h : body.toList.head? = some '.') :
    readLine none body.toList = (none, [⟨body, none⟩]) := by
  have hne : body.toList.isEmpty = false := by
    obtain ⟨rest, hbody⟩ := List.head?_eq_some_iff.1 h
    simp [hbody]
  rw [readLine, header?_body h]
  simp [hne]

theorem readLine_text {query : String} (h : '\x7b' ∉ query.toList) (body : String) :
    readLine none (text ⟨body, some query⟩).toList = (none, [⟨body, some query⟩]) := by
  have hline : (text ⟨body, some query⟩).toList = "@media ".toList
      ++ (query.toList ++ ' ' :: '\x7b' :: ' ' :: (body.toList ++ [' ', '\x7d'])) := by
    simp [text]
  rw [hline, readLine, header?_query h]
  simp

theorem readLine_inside (query body : String) :
    readLine (some query) ("  " ++ body).toList = (some query, [⟨body, some query⟩]) := by
  have hne : ("  " ++ body).toList ≠ ['\x7d'] := by simp
  rw [readLine, if_neg hne]
  simp

theorem readLines_bodies {bodies : List String} (h : ∀ body ∈ bodies, Foldable ⟨body, none⟩)
    (rest : List (List Char)) :
    readLines none (bodies.flatMap Text.lines ++ rest)
      = bodies.map (fun body => ⟨body, none⟩) ++ readLines none rest := by
  induction bodies with
  | nil => rfl
  | cons body bodies ih =>
    have hbody := h body List.mem_cons_self
    rw [List.flatMap_cons, Text.lines_of_notMem hbody.line, List.append_assoc,
      List.singleton_append, readLines, readLine_body hbody.body,
      ih fun b hb => h b (List.mem_cons_of_mem body hb)]
    rfl

theorem readLines_inside {query : String} {bodies : List String}
    (h : ∀ body ∈ bodies, Foldable ⟨body, some query⟩) (rest : List (List Char)) :
    readLines (some query) ((bodies.map ("  " ++ ·)).flatMap Text.lines ++ rest)
      = bodies.map (fun body => ⟨body, some query⟩) ++ readLines (some query) rest := by
  induction bodies with
  | nil => rfl
  | cons body bodies ih =>
    have hbody := h body List.mem_cons_self
    have hline : '\n' ∉ ("  " ++ body).toList := by simpa using hbody.line
    rw [List.map_cons, List.flatMap_cons, Text.lines_of_notMem hline, List.append_assoc,
      List.singleton_append, readLines, readLine_inside,
      ih fun b hb => h b (List.mem_cons_of_mem body hb)]
    rfl

/-- The lines of a block: its query, the bodies and the closing brace. -/
theorem lines_block {query : String} {bodies : List String} (hquery : '\n' ∉ query.toList)
    (hne : bodies ≠ []) :
    Text.lines ("@media " ++ query ++ " \x7b\n"
        ++ "\n".intercalate (bodies.map ("  " ++ ·)) ++ "\n\x7d")
      = ("@media " ++ query ++ " \x7b").toList
        :: ((bodies.map ("  " ++ ·)).flatMap Text.lines ++ [['\x7d']]) := by
  have hsplit : "@media " ++ query ++ " \x7b\n"
        ++ "\n".intercalate (bodies.map ("  " ++ ·)) ++ "\n\x7d"
      = ("@media " ++ query ++ " \x7b") ++ "\n" ++ "\n".intercalate (bodies.map ("  " ++ ·))
        ++ "\n" ++ "\x7d" := by
    simp [String.append_assoc]
  have hopen : '\n' ∉ ("@media " ++ query ++ " \x7b").toList := by simpa using hquery
  have hclose : Text.lines "\x7d" = [['\x7d']] := Text.lines_of_notMem (by decide)
  rw [hsplit, Text.lines_append, Text.lines_append, Text.lines_of_notMem hopen, hclose,
    Text.lines_intercalate (by simpa using hne)]
  rfl

/-- The lines of a run of rules, whichever form its blocks have. -/
theorem readLines_blocks {run : Option String × List String} (hrun : FoldableRun run)
    (rest : List (List Char)) :
    readLines none ((blocks run).flatMap Text.lines ++ rest)
      = run.2.map (fun body => ⟨body, run.1⟩) ++ readLines none rest := by
  obtain ⟨query, bodies⟩ := run
  obtain ⟨hne, h⟩ := hrun
  cases query with
  | none => exact readLines_bodies h rest
  | some query =>
    obtain ⟨body, bodies, rfl⟩ := List.exists_cons_of_ne_nil hne
    have hbody := h body List.mem_cons_self
    obtain ⟨hquery, hbrace⟩ := hbody.media query rfl
    cases bodies with
    | nil =>
      have hline : '\n' ∉ (text ⟨body, some query⟩).toList := by
        simpa [text] using ⟨hquery, hbody.line⟩
      rw [blocks, List.flatMap_singleton, Text.lines_of_notMem hline, List.singleton_append,
        readLines, readLine_text hbrace]
      rfl
    | cons body' bodies =>
      rw [blocks, List.flatMap_singleton, lines_block hquery hne, List.cons_append, readLines,
        readLine_open hbrace, List.append_assoc, readLines_inside h, List.singleton_append,
        readLines, readLine_close]
      · rfl
      · simp

theorem bodies_ne_nil_of_mem_runs {rules : List Rule} {run : Option String × List String}
    (h : run ∈ runs rules) : run.2 ≠ [] := by
  induction rules generalizing run with
  | nil => cases h
  | cons r rules ih =>
    rw [runs] at h
    split at h
    · obtain rfl := List.mem_singleton.1 h
      exact List.cons_ne_nil _ _
    · next query bodies rest hruns =>
      rw [hruns] at ih
      split at h
      · rcases List.mem_cons.1 h with rfl | h
        · exact List.cons_ne_nil _ _
        · exact ih (List.mem_cons_of_mem _ h)
      · rcases List.mem_cons.1 h with rfl | h
        · exact List.cons_ne_nil _ _
        · exact ih h

theorem foldableRun_of_mem_runs {rules : List Rule} (h : ∀ r ∈ rules, r.Foldable)
    {run : Option String × List String} (hrun : run ∈ runs rules) : FoldableRun run where
  bodies := bodies_ne_nil_of_mem_runs hrun
  rules body hbody := by
    apply h
    rw [← Stylesheet.flatMap_runs rules, List.mem_flatMap]
    exact ⟨run, hrun, List.mem_map.2 ⟨body, hbody, rfl⟩⟩

/-- The text of runs of rules is read back as their rules. -/
theorem rulesIn_blocks {l : List (Option String × List String)}
    (h : ∀ run ∈ l, FoldableRun run) :
    rulesIn ("\n".intercalate (l.flatMap blocks))
      = l.flatMap fun (query, bodies) => bodies.map fun body => ⟨body, query⟩ := by
  have hlines : readLines none ((l.flatMap blocks).flatMap Text.lines)
      = l.flatMap fun (query, bodies) => bodies.map fun body => ⟨body, query⟩ := by
    induction l with
    | nil => rfl
    | cons run l ih =>
      rw [List.flatMap_cons, List.flatMap_append, readLines_blocks (h run List.mem_cons_self),
        ih fun r hr => h r (List.mem_cons_of_mem run hr)]
      rfl
  by_cases hne : l.flatMap blocks = []
  · rw [← hlines, hne]
    rfl
  · rw [rulesIn, Text.lines_intercalate hne, hlines]

theorem rulesIn_combine {rules : List Rule} (h : ∀ r ∈ rules, r.Foldable) :
    rulesIn ("\n".intercalate (combine rules)) = rules := by
  rw [combine, rulesIn_blocks fun run => foldableRun_of_mem_runs h, Stylesheet.flatMap_runs]

theorem rulesIn_texts {rules : List Rule} (h : ∀ r ∈ rules, r.Foldable) :
    rulesIn ("\n".intercalate (rules.map text)) = rules := by
  -- Each rule is a run by itself.
  have htexts : rules.map text = (rules.map fun r => (r.media, [r.body])).flatMap blocks := by
    rw [List.flatMap_map, List.map_eq_flatMap]
    refine List.flatMap_congr fun r _ => ?_
    obtain ⟨body, media⟩ := r
    cases media <;> rfl
  rw [htexts, rulesIn_blocks]
  · simp [List.flatMap_map]
  · rintro run hrun
    obtain ⟨r, hr, rfl⟩ := List.mem_map.1 hrun
    exact ⟨List.cons_ne_nil _ _, by simpa using h r hr⟩

theorem blockQuery?_of_mem_blocks {run : Option String × List String} (hrun : FoldableRun run)
    {block : String} (hblock : block ∈ blocks run) : blockQuery? block = run.1 := by
  obtain ⟨query, bodies⟩ := run
  obtain ⟨hne, h⟩ := hrun
  cases query with
  | none => rw [blockQuery?, header?_body (h block hblock).body, Option.map_none]
  | some query =>
    obtain ⟨body, bodies, rfl⟩ := List.exists_cons_of_ne_nil hne
    have hbrace := ((h body List.mem_cons_self).media query rfl).2
    -- Either form of a block begins with the query and a brace.
    obtain ⟨rest, hrest⟩ : ∃ rest, block.toList
        = "@media ".toList ++ (query.toList ++ ' ' :: '\x7b' :: rest) := by
      cases bodies with
      | nil =>
        obtain rfl := List.mem_singleton.1 hblock
        exact ⟨_, by simp only [text, String.toList_append, List.append_assoc]; rfl⟩
      | cons body' bodies =>
        obtain rfl := List.mem_singleton.1 hblock
        exact ⟨_, by simp only [String.toList_append, List.append_assoc]; rfl⟩
    rw [blockQuery?, hrest, header?_query hbrace, Option.map_some]

/-- Neighbouring runs have different queries. -/
theorem isChain_runs (rules : List Rule) : (runs rules).IsChain fun run run' => run.1 ≠ run'.1 := by
  induction rules with
  | nil => exact List.IsChain.nil
  | cons r rules ih =>
    rw [runs]
    split
    · exact List.IsChain.singleton _
    · next query bodies rest hruns =>
      rw [hruns] at ih
      split
      · cases rest with
        | nil => exact List.IsChain.singleton _
        | cons run rest =>
          obtain ⟨hne, hrest⟩ := List.isChain_cons_cons.1 ih
          exact List.isChain_cons_cons.2 ⟨hne, hrest⟩
      · next hquery => exact List.isChain_cons_cons.2 ⟨hquery, ih⟩

/-- What stands between two rules of a query in the order of texts has this query as well. -/
theorem media_of_between {a b c : Rule} {query : String} (ha : a.media = some query)
    (hc : c.media = some query) (hquery : '\x7b' ∉ query.toList) (hb : b.Foldable)
    (hab : a.text ≤ b.text) (hbc : b.text ≤ c.text) : b.media = some query := by
  have htext : ∀ (query body : String), (text ⟨body, some query⟩).toList
      = ("@media ".toList ++ (query.toList ++ [' ', '\x7b']))
        ++ (" " ++ body ++ " \x7d").toList := by
    intro query body
    simp [text]
  obtain ⟨bodyA, _⟩ := a
  obtain ⟨bodyC, _⟩ := c
  obtain ⟨body, media⟩ := b
  subst ha hc
  rw [String.le_iff_toList_le, htext] at hab hbc
  obtain ⟨rest, hrest⟩ := Text.eq_append_of_between hab hbc
  cases media with
  | none =>
    -- A rule without a query does not begin like one with a query.
    have hhead := hb.body
    rw [show body.toList = _ from hrest] at hhead
    cases hhead
  | some query' =>
    rw [htext, List.append_assoc, List.append_assoc, List.append_assoc,
      List.append_cancel_left_eq] at hrest
    have hsame : (query'.toList ++ [' ']) ++ '\x7b' :: (" " ++ body ++ " \x7d").toList
        = (query.toList ++ [' ']) ++ '\x7b' :: rest := by simpa using hrest
    have hbrace := (hb.media query' rfl).2
    obtain ⟨h, -⟩ := Text.eq_of_append_mark (by simpa using hbrace) (by simpa using hquery) hsame
    rw [List.append_cancel_right_eq, String.toList_inj] at h
    rw [h]

/-- In rules that are sorted by text a query has one run only. -/
theorem pairwise_runs {rules : List Rule} (h : ∀ r ∈ rules, r.Foldable)
    (hsorted : rules.Pairwise fun a b => a.text ≤ b.text) :
    (runs rules).Pairwise fun run run' => ∀ query ∈ run.1, run'.1 ≠ some query := by
  have hruns : ∀ run ∈ runs rules, FoldableRun run := fun run => foldableRun_of_mem_runs h
  rw [← Stylesheet.flatMap_runs rules, List.pairwise_flatMap] at hsorted
  replace hsorted := hsorted.2
  have hchain := isChain_runs rules
  generalize runs rules = l at hruns hsorted hchain
  induction l with
  | nil => exact List.Pairwise.nil
  | cons run l ih =>
    obtain ⟨hfirst, hsorted⟩ := List.pairwise_cons.1 hsorted
    refine List.pairwise_cons.2 ⟨fun run'' hrun'' query hquery hsame => ?_,
      ih (fun run hrun => hruns run (List.mem_cons_of_mem _ hrun)) hsorted hchain.of_cons⟩
    cases l with
    | nil => cases hrun''
    | cons run' l =>
      have hne := (List.isChain_cons_cons.1 hchain).1
      rcases List.mem_cons.1 hrun'' with rfl | hrun''
      · exact hne (hquery.trans hsame.symm)
      -- The next run stands between two runs of the query.
      have hrun' := hruns run' (List.mem_cons_of_mem _ List.mem_cons_self)
      obtain ⟨body, hbody⟩ := List.exists_mem_of_ne_nil _ (hruns run List.mem_cons_self).bodies
      obtain ⟨body', hbody'⟩ := List.exists_mem_of_ne_nil _ hrun'.bodies
      obtain ⟨body'', hbody''⟩ := List.exists_mem_of_ne_nil _
        (hruns run'' (List.mem_cons_of_mem _ (List.mem_cons_of_mem _ hrun''))).bodies
      have hbrace := (((hruns run List.mem_cons_self).rules body hbody).media query hquery).2
      have hnext := hfirst run' List.mem_cons_self _ (List.mem_map_of_mem hbody) _
        (List.mem_map_of_mem hbody')
      have hlast := (List.pairwise_cons.1 hsorted).1 run'' hrun'' _ (List.mem_map_of_mem hbody') _
        (List.mem_map_of_mem hbody'')
      exact hne (hquery.trans
        (media_of_between hquery hsame hbrace (hrun'.rules body' hbody') hnext hlast).symm)

/-- Two blocks that are not of one query. -/
def Apart (block block' : String) : Prop :=
  ∀ query, blockQuery? block = some query → blockQuery? block' ≠ some query

theorem blocks_ne_nil {run : Option String × List String} (hrun : FoldableRun run) :
    blocks run ≠ [] := by
  obtain ⟨query, bodies⟩ := run
  obtain ⟨body, bodies, rfl⟩ := List.exists_cons_of_ne_nil hrun.bodies
  cases query with
  | none => exact List.cons_ne_nil body bodies
  | some query => cases bodies <;> exact List.cons_ne_nil _ _

/-- A run has one block, if its rules have a query. -/
theorem apart_of_mem_blocks {run : Option String × List String} (hrun : FoldableRun run) :
    (blocks run).Pairwise Apart := by
  obtain ⟨query, bodies⟩ := run
  cases query with
  | none =>
    refine List.pairwise_of_forall_mem_list fun block hblock _ _ query hquery => ?_
    rw [blockQuery?_of_mem_blocks hrun hblock] at hquery
    cases hquery
  | some query =>
    obtain ⟨body, bodies, rfl⟩ := List.exists_cons_of_ne_nil hrun.bodies
    cases bodies <;> exact List.pairwise_singleton _ _

theorem apart_of_runs {run run' : Option String × List String} (hrun : FoldableRun run)
    (hrun' : FoldableRun run') (hne : ∀ query ∈ run.1, run'.1 ≠ some query) {block block' : String}
    (hblock : block ∈ blocks run) (hblock' : block' ∈ blocks run') : Apart block block' := by
  intro query hquery
  rw [blockQuery?_of_mem_blocks hrun hblock] at hquery
  rw [blockQuery?_of_mem_blocks hrun' hblock']
  exact hne query hquery

/-- The rules that are read from a block alone have its query. -/
theorem rulesIn_block {run : Option String × List String} (hrun : FoldableRun run) {block : String}
    (hblock : block ∈ blocks run) :
    rulesIn block ≠ [] ∧ ∀ r ∈ rulesIn block, r.media = blockQuery? block := by
  rw [blockQuery?_of_mem_blocks hrun hblock]
  obtain ⟨query, bodies⟩ := run
  have hread : ∀ bodies, FoldableRun (query, bodies) → blocks (query, bodies) = [block] →
      rulesIn block ≠ [] ∧ ∀ r ∈ rulesIn block, r.media = query := by
    intro bodies hrun heq
    have hrules := rulesIn_blocks (l := [(query, bodies)]) (by simpa using hrun)
    rw [List.flatMap_singleton, heq, String.intercalate_singleton, List.flatMap_singleton] at hrules
    rw [hrules]
    exact ⟨by simpa using hrun.bodies, by simp⟩
  cases query with
  | none =>
    refine hread [block] ⟨List.cons_ne_nil _ _, fun body hbody => ?_⟩ rfl
    obtain rfl := List.mem_singleton.1 hbody
    exact hrun.rules body hblock
  | some query =>
    refine hread bodies hrun ?_
    obtain ⟨body, bodies, rfl⟩ := List.exists_cons_of_ne_nil hrun.bodies
    cases bodies <;> exact congrArg (fun block => [block]) (List.mem_singleton.1 hblock).symm

/-- What folding keeps of some rules, and how it arranges them. -/
structure FoldsTo (rules : List Rule) (blocks : List String) : Prop where
  /-- The blocks hold the rules in their order, each under its query. -/
  read : rulesIn ("\n".intercalate blocks) = rules
  /-- The text of the blocks is that of no other rules. -/
  determines : ∀ rules', (∀ r ∈ rules', Foldable r) →
    "\n".intercalate (combine rules') = "\n".intercalate blocks → rules' = rules
  /-- The rules of a block have the query it begins with. -/
  queries : ∀ block ∈ blocks,
    rulesIn block ≠ [] ∧ ∀ r ∈ rulesIn block, r.media = blockQuery? block
  neighbours : blocks.IsChain Apart
  /-- Sorted rules have one block for each query. -/
  once : (rules.Pairwise fun a b => a.text ≤ b.text) → blocks.Pairwise Apart

theorem foldsTo_combine {rules : List Rule} (h : ∀ r ∈ rules, r.Foldable) :
    FoldsTo rules (combine rules) where
  read := rulesIn_combine h
  determines rules' h' heq := by rw [← rulesIn_combine h', heq, rulesIn_combine h]
  queries block hblock := by
    obtain ⟨run, hrun, hblock⟩ := List.mem_flatMap.1 hblock
    exact rulesIn_block (foldableRun_of_mem_runs h hrun) hblock
  neighbours := by
    have hruns : ∀ run ∈ runs rules, FoldableRun run := fun run => foldableRun_of_mem_runs h
    have hne : [] ∉ (runs rules).map blocks := by
      rintro hmem
      obtain ⟨run, hrun, hnil⟩ := List.mem_map.1 hmem
      exact blocks_ne_nil (hruns run hrun) hnil
    rw [combine, List.flatMap_def, List.isChain_flatten hne, List.isChain_map]
    constructor
    · rintro _ hmem
      obtain ⟨run, hrun, rfl⟩ := List.mem_map.1 hmem
      exact (apart_of_mem_blocks (hruns run hrun)).isChain
    · refine (isChain_runs rules).imp_of_mem_imp fun run run' hrun hrun' hapart => ?_
      intro block hblock block' hblock'
      refine apart_of_runs (hruns run hrun) (hruns run' hrun') ?_ (List.mem_of_getLast? hblock)
        (List.mem_of_head? hblock')
      exact fun query hquery hsame => hapart (hquery.trans hsame.symm)
  once hsorted := by
    have hruns : ∀ run ∈ runs rules, FoldableRun run := fun run => foldableRun_of_mem_runs h
    rw [combine, List.pairwise_flatMap]
    refine ⟨fun run hrun => apart_of_mem_blocks (hruns run hrun), ?_⟩
    refine (pairwise_runs h hsorted).imp_of_mem fun hrun hrun' hne block hblock block' hblock' => ?_
    exact apart_of_runs (hruns _ hrun) (hruns _ hrun') hne hblock hblock'

/-- Rules with a query stand after the others, those of one query in one block. -/
theorem foldsTo_two_widths :
    let wide := some "(min-width: 568px)"
    let wider := some "(min-width: 768px)"
    let rules : List Rule := [⟨".c \x7b margin: 0 \x7d", none⟩, ⟨".a \x7b padding: 4px \x7d", wide⟩,
      ⟨".b \x7b margin: 2px \x7d", wide⟩, ⟨".a \x7b gap: 1px \x7d", wider⟩]
    let blocks := [".c \x7b margin: 0 \x7d",
      "@media (min-width: 568px) \x7b\n  .a \x7b padding: 4px \x7d\n  .b \x7b margin: 2px \x7d\n\x7d",
      "@media (min-width: 768px) \x7b .a \x7b gap: 1px \x7d \x7d"]
    FoldsTo rules blocks ∧ blocks.Pairwise Apart := by
  intro wide wider rules blocks
  have hrules : ∀ r ∈ rules, r.Foldable := by
    have hwide : ∀ query ∈ wide, '\n' ∉ query.toList ∧ '\x7b' ∉ query.toList := by decide
    have hwider : ∀ query ∈ wider, '\n' ∉ query.toList ∧ '\x7b' ∉ query.toList := by decide
    simp only [rules, List.forall_mem_cons, List.not_mem_nil, false_imp_iff, implies_true, and_true]
    exact ⟨⟨by decide, by decide, by decide⟩, ⟨by decide, by decide, hwide⟩,
      ⟨by decide, by decide, hwide⟩, ⟨by decide, by decide, hwider⟩⟩
  have hfold : FoldsTo rules blocks := foldsTo_combine hrules
  exact ⟨hfold, hfold.once (by decide)⟩

end Rule

/-- The text of a sheet is read back as its rules in order. -/
theorem Stylesheet.rulesIn_text {o : SheetOptions} {rules : List Rule}
    (h : ∀ r ∈ rules, r.Foldable) :
    Rule.rulesIn (text o rules) = ordered o.byPrecedence rules := by
  have hordered : ∀ r ∈ ordered o.byPrecedence rules, r.Foldable :=
    fun r hr => h r (mem_ordered.1 hr)
  rw [text]
  split
  · exact Rule.rulesIn_combine hordered
  · exact Rule.rulesIn_texts hordered

namespace Rule

variable {o : RuleOptions} {key className : String} {r : Rule}

theorem head?_bodyOf {selectors : List Selector} (hne : selectors ≠ [])
    (h : ∀ s ∈ selectors, s.text.toList.head? = some '.') (property value : String) :
    (bodyOf selectors property value).toList.head? = some '.' := by
  obtain ⟨s, rest, rfl⟩ := List.exists_cons_of_ne_nil hne
  obtain ⟨cs, hcs⟩ := List.head?_eq_some_iff.1 (h s List.mem_cons_self)
  rw [bodyOf]
  cases rest <;> simp [String.intercalate_cons_cons, hcs]

/-- Whatever its family, the rule of a key begins with a class. -/
theorem head?_body_ofKey (h : ofKey o key className = .ok r) :
    r.body.toList.head? = some '.' := by
  have hbare : ∀ property value,
      (bodyOf (bare className) property value).toList.head? = some '.' := by
    intro property value
    rw [toList_bodyOf_bare]
    rfl
  have hstates : ∀ {gate isRef states selectors}, (gate = none ∨ gate = some Selector.shadowGate) →
      Selector.ofStates className gate isRef o.force states = .ok selectors →
      ∀ property value, (bodyOf selectors property value).toList.head? = some '.' :=
    fun hgate hmade => head?_bodyOf (Selector.isFor_of_ofStates hgate hmade).1
      fun _ => Selector.head?_text hmade
  apply ofKey_cases h
  case decoration =>
    intro p hr
    obtain ⟨css, rfl⟩ := ofDecoration_ok hr
    exact hbare _ _
  case shadow =>
    intro hr
    obtain ⟨_, _, _, hs, rfl⟩ := ofShadow_ok hr
    exact hstates (.inr rfl) hs _ _
  case radius =>
    intro hr
    obtain ⟨_, _, _, _, -, -, -, -, hs, -, hbody⟩ := ofRadius_ok hr
    rw [hbody]
    exact hstates (.inl rfl) hs _ _
  case scale =>
    intro hr
    obtain ⟨_, _, _, _, -, -, -, -, -, -, hbody⟩ := ofScale_ok hr
    rw [hbody]
    exact hbare _ _
  case color =>
    intro hr
    obtain ⟨_, _, _, _, _, hs, rfl⟩ := ofColor_ok hr
    exact hstates (.inl rfl) hs _ _

theorem foldable_ofKey {table : BreakpointTable} (ho : o.queries = table.queries)
    (h : ofKey o key className = .ok r) (hline : '\n' ∉ r.body.toList) : r.Foldable where
  body := head?_body_ofKey h
  line := hline
  media query hquery := by
    obtain ⟨width, rfl⟩ := (legible_ofKey ho h).media query hquery
    exact MediaQueries.notMem_atLeast width

end Rule
end AtomicCss
