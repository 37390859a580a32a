import ChartParser.Proofs.Chart.Filling
import ChartParser.Proofs.Parser.Limit
import ChartParser.Proofs.Parser.Pending

/-! # The cell of a span, tree by tree

The trees of a cell are added one at a time, cut by cut, and then those that unit rules make of
them. In all that time the cell holds derivation trees of its span only and counts them.
-/

namespace ChartParser

open Grammar Relation

variable {g : Grammar} {limit : Option Nat} {words : List String} {span : Span}

/-! ## Cells that count their trees -/

namespace Cell

/-- There are not more trees in the cell than the limit allows. -/
def Under (limit : Option Nat) (cell : Cell) : Prop := ∀ most ∈ limit, cell.count ≤ most

variable {trees : Set Tree} {cell next : Cell} {tree : Tree}

theorem under_empty (limit : Option Nat) : Under limit empty := fun most _ => Nat.zero_le most

theorem under_of_addWithin (h : addWithin limit span cell tree = .ok next) :
    Under limit next := by
  rintro most ⟨⟩
  rw [addWithin_some] at h
  split at h
  · nomatch h
  · next few =>
    cases h
    omega

/-- Symbols of the cell have trees of their own only, at least one each, with these words, and the
number of all trees is known. -/
structure Describes (tokens : List String) (cell : Cell) : Prop where
  keyed : ∀ (symbol : Symbol) (stored : Std.TreeSet Tree), cell.trees[symbol]? = some stored →
    stored.isEmpty = false ∧ ∀ tree ∈ stored, tree.symbol = symbol ∧ tree.tokens = tokens
  counted : cell.count = (cell.trees.toList.map fun entry => entry.2.size).sum

theorem describes_of_counts (counts : Counts (g.forest words span) cell) :
    Describes (span.slice words) cell where
  keyed symbol stored known := by
    obtain ⟨nonempty, roots⟩ := cell.keyed symbol stored known
    refine ⟨nonempty, fun tree mem => ⟨roots tree mem, ?_⟩⟩
    obtain ⟨here, -⟩ := exists_stored_iff.mp ⟨stored, known, mem⟩
    exact (counts.subset here).2.tokens
  counted := by
    have listed : cell.held = {tree | tree ∈ cell.toList} := Set.ext fun _ => mem_toList.symm
    have size := counts.counted
    rw [listed, Parser.encard_setOf_mem cell.nodup_toList] at size
    have length : cell.toList.length = cell.count := by exact_mod_cast size
    simp [← length, toList, List.length_flatMap]

end Cell

namespace Parser

/-! ## Steps -/

/-- Where the work on a cell stands. -/
inductive Task
  /-- Trees of a cut are still to be added, and there are cuts still to be looked at. -/
  | gather (cell : Cell) (made : List Tree) (cuts : List Nat)
  | close (stage : Stage)
  /-- The last tree was too many. -/
  | exceeded (cell : Cell) (error : ParseError)

namespace Task

def cell : Task → Cell
  | gather cell _ _ => cell
  | close stage => stage.cell
  | exceeded cell _ => cell

/-- A word has no cuts, but trees of its own. -/
def start (g : Grammar) (words : List String) (span : Span) : Task :=
  if span.isWord then gather .empty ((words[span.start]?.map (wordTrees g)).getD []) []
  else gather .empty [] span.cuts

/-- The cell, once nothing is left to do. -/
def done? : Task → Option Cell
  | close ⟨cell, [], [], _⟩ => some cell
  | _ => none

/-- The cell has more trees than the limit allows. -/
def Fails (task : Task) (error : ParseError) : Prop := ∃ cell, task = exceeded cell error

end Task

/-- One step: the two cells at a cut are read, or a tree is added to the cell. -/
inductive TaskStep (g : Grammar) (limit : Option Nat) (span : Span) :
    Task → List (Span × Cell) → Task → Prop
  | cut {cell left right : Cell} {cut : Nat} {cuts : List Nat} :
      TaskStep g limit span (.gather cell [] (cut :: cuts))
        [(⟨span.start, cut⟩, left), (⟨cut, span.stop⟩, right)]
        (.gather cell ((splitsOf g left right).flatMap Split.made) cuts)
  | add {cell next : Cell} {tree : Tree} {made : List Tree} {cuts : List Nat} :
      cell.addWithin limit span tree = .ok next →
      TaskStep g limit span (.gather cell (tree :: made) cuts) [] (.gather next made cuts)
  | exceed {cell : Cell} {tree : Tree} {made : List Tree} {cuts : List Nat} {error : ParseError} :
      cell.addWithin limit span tree = .error error →
      TaskStep g limit span (.gather cell (tree :: made) cuts) [] (.exceeded (cell.add tree) error)
  | close {cell : Cell} :
      TaskStep g limit span (.gather cell [] []) [] (.close (.start cell))
  | follow {stage next : Stage} : CloseStep g limit span stage next →
      TaskStep g limit span (.close stage) [] (.close next)
  | exceedClosing {cell : Cell} {tree : Tree} {pending made pushed : List Tree}
      {error : ParseError} : cell.addWithin limit span tree = .error error →
      TaskStep g limit span (.close ⟨cell, pending, tree :: made, pushed⟩) []
        (.exceeded (cell.add tree) error)

theorem taskStep_unique {task next next' : Task} {reads reads' : List (Span × Cell)}
    (one : TaskStep g limit span task reads next) (two : TaskStep g limit span task reads' next')
    (same : ∀ read ∈ reads, ∀ read' ∈ reads', read.1 = read'.1 → read.2 = read'.2) :
    reads = reads' ∧ next = next' := by
  cases one with
  | cut =>
    cases two
    obtain rfl := same _ (.head _) _ (.head _) rfl
    obtain rfl := same _ (.tail _ (.head _)) _ (.tail _ (.head _)) rfl
    exact ⟨rfl, rfl⟩
  | add added =>
    cases two with
    | add added' =>
      cases added.symm.trans added'
      exact ⟨rfl, rfl⟩
    | exceed failed => nomatch added.symm.trans failed
  | exceed failed =>
    cases two with
    | add added => nomatch added.symm.trans failed
    | exceed failed' =>
      cases failed.symm.trans failed'
      exact ⟨rfl, rfl⟩
  | close =>
    cases two
    exact ⟨rfl, rfl⟩
  | follow step =>
    cases two with
    | follow step' => exact ⟨rfl, congrArg Task.close (closeStep_unique step step')⟩
    | exceedClosing failed => exact absurd step (ne_closeStep failed)
  | exceedClosing failed =>
    cases two with
    | follow step => exact absurd step (ne_closeStep failed)
    | exceedClosing failed' =>
      cases failed.symm.trans failed'
      exact ⟨rfl, rfl⟩

theorem taskStep_stuck {task next : Task} {cell : Cell} {reads : List (Span × Cell)}
    (done : task.done? = some cell) : ¬ TaskStep g limit span task reads next := by
  intro step
  cases step with
  | follow step => cases step <;> simp [Task.done?] at done
  | _ => simp [Task.done?] at done

/-- The work of the parser on its cells. -/
def treeWorker (g : Grammar) (limit : Option Nat) (words : List String) : Worker Cell Task where
  blank := .empty
  start := Task.start g words
  Step := TaskStep g limit
  done? := Task.done?
  unique := taskStep_unique
  stuck := taskStep_stuck

/-! ## The result -/

theorem splitsOf_empty_left (g : Grammar) (right : Cell) : splitsOf g .empty right = [] := by
  simp [splitsOf, Cell.empty]

theorem splitsOf_empty_right (g : Grammar) (left : Cell) : splitsOf g left .empty = [] := by
  simp [splitsOf, Cell.empty]

/-- The trees that the parts at a cut make up. -/
def cutTrees (g : Grammar) (chart : Chart Cell) (span : Span) (cut : Nat) : List Tree :=
  (splitsOf g (chart.look .empty ⟨span.start, cut⟩) (chart.look .empty ⟨cut, span.stop⟩)).flatMap
    Split.made

theorem made_splits (g : Grammar) (chart : Chart Cell) (span : Span) :
    (splits g chart span).flatMap Split.made = span.cuts.flatMap (cutTrees g chart span) := by
  rw [splits, List.flatMap_assoc]
  refine List.flatMap_congr fun cut _ => ?_
  unfold cutTrees Chart.look
  cases chart.get? ⟨span.start, cut⟩ with
  | none => simp [splitsOf_empty_left]
  | some left => cases chart.get? ⟨cut, span.stop⟩ <;> simp [splitsOf_empty_right]

/-- The steps lead to the cell with these cuts left, or to the error. -/
def Task.Gathers (step : Task → Task → Prop) (task : Task) (cuts : List Nat) :
    Except ParseError Cell → Prop
  | .ok cell => ReflTransGen step task (.gather cell [] cuts)
  | .error error => Leads step task (·.Fails error)

variable {chart : Chart Cell}

theorem gathers_of_reaches {step : Task → Task → Prop} {before after : Task} {cuts : List Nat}
    {result : Except ParseError Cell} (run : ReflTransGen step before after)
    (gathers : after.Gathers step cuts result) : before.Gathers step cuts result := by
  cases result with
  | ok cell => exact run.trans gathers
  | error error => exact leads_of_reaches run gathers

theorem gathers_made (made : List Tree) (cell : Cell) (cuts : List Nat) :
    Task.Gathers ((treeWorker g limit words).StepIn chart span) (.gather cell made cuts) cuts
      (made.foldlM (Cell.addWithin limit span) cell) := by
  induction made generalizing cell with
  | nil => exact .refl
  | cons tree made ih =>
    rw [List.foldlM_cons]
    cases added : cell.addWithin limit span tree with
    | error error => exact ⟨_, .single ⟨[], .exceed added, by simp⟩, _, rfl⟩
    | ok next => exact gathers_of_reaches (.single ⟨[], .add added, by simp⟩) (ih next)

theorem gathers_cuts (cuts : List Nat) (cell : Cell) :
    Task.Gathers ((treeWorker g limit words).StepIn chart span) (.gather cell [] cuts) []
      ((cuts.flatMap (cutTrees g chart span)).foldlM (Cell.addWithin limit span) cell) := by
  induction cuts generalizing cell with
  | nil => exact .refl
  | cons cut cuts ih =>
    have read : (treeWorker g limit words).StepIn chart span (.gather cell [] (cut :: cuts))
        (.gather cell (cutTrees g chart span cut) cuts) :=
      ⟨_, .cut, by simp [treeWorker]⟩
    have added : Task.Gathers ((treeWorker g limit words).StepIn chart span)
        (.gather cell (cutTrees g chart span cut) cuts) cuts
        ((cutTrees g chart span cut).foldlM (Cell.addWithin limit span) cell) :=
      gathers_made _ cell cuts
    rw [List.flatMap_cons, List.foldlM_append]
    cases result : (cutTrees g chart span cut).foldlM (Cell.addWithin limit span) cell with
    | error error =>
      rw [result] at added
      exact leads_of_reaches (.single read) added
    | ok next =>
      rw [result] at added
      exact gathers_of_reaches (.head read added) (ih next)

theorem gathers_start (chart : Chart Cell) (span : Span) :
    Task.Gathers ((treeWorker g limit words).StepIn chart span) (.start g words span) []
      ((directTrees g words chart span).foldlM (Cell.addWithin limit span) .empty) := by
  unfold Task.start directTrees
  split
  · exact gathers_made _ _ _
  · rw [made_splits]
    exact gathers_cuts _ _

theorem closing_makes (parser : Parser) (words : List String) (chart : Chart Cell) (span : Span)
    (cell : Cell) :
    (treeWorker parser.grammar parser.limit words).Makes Task.Fails chart span
      (.close (.start cell)) (parser.closeCell span cell) := by
  obtain ⟨⟨final, pending, made, pushed⟩, run, answers⟩ := closeCell_finds parser span cell
  have lifted : ReflTransGen ((treeWorker parser.grammar parser.limit words).StepIn chart span)
      (.close (.start cell)) (.close ⟨final, pending, made, pushed⟩) :=
    run.lift Task.close fun _ _ step => ⟨[], .follow step, by simp⟩
  generalize parser.closeCell span cell = result at answers
  cases result with
  | ok closed =>
    obtain ⟨rfl, rfl, rfl⟩ := answers
    exact ⟨_, lifted, rfl⟩
  | error error =>
    obtain ⟨tree, more, rfl, failed⟩ := answers
    exact ⟨_, lifted.tail ⟨[], .exceedClosing failed, by simp⟩, _, rfl⟩

/-- The steps lead to what the parser makes the cell of. -/
theorem treeWorker_makes (parser : Parser) (words : List String) (chart : Chart Cell)
    (span : Span) :
    (treeWorker parser.grammar parser.limit words).Makes Task.Fails chart span
      (.start parser.grammar words span) (parser.cellFor words chart span) := by
  have gathers : Task.Gathers ((treeWorker parser.grammar parser.limit words).StepIn chart span)
      (.start parser.grammar words span) [] ((directTrees parser.grammar words chart span).foldlM
        (Cell.addWithin parser.limit span) .empty) := gathers_start chart span
  rw [cellFor_eq]
  cases result : (directTrees parser.grammar words chart span).foldlM
      (Cell.addWithin parser.limit span) .empty with
  | error error =>
    rw [result] at gathers
    exact gathers
  | ok direct =>
    rw [result] at gathers
    have closing : (treeWorker parser.grammar parser.limit words).StepIn chart span
        (.gather direct [] []) (.close (.start direct)) := ⟨[], .close, by simp⟩
    exact makes_of_reaches (gathers.tail closing) (closing_makes parser words chart span direct)

/-! ## What the steps keep -/

/-- The cell holds and counts derivation trees of the span, not more than the limit allows. -/
structure Stored (g : Grammar) (limit : Option Nat) (words : List String) (span : Span)
    (cell : Cell) : Prop where
  counts : cell.Counts (g.forest words span)
  under : cell.Under limit

theorem stored_empty (g : Grammar) (limit : Option Nat) (words : List String) (span : Span) :
    Stored g limit words span .empty := ⟨Cell.counts_empty _, Cell.under_empty limit⟩

theorem stored_of_addWithin {cell next : Cell} {tree : Tree}
    (stored : Stored g limit words span cell) (mem : tree ∈ g.forest words span)
    (added : cell.addWithin limit span tree = .ok next) : Stored g limit words span next := by
  refine ⟨?_, Cell.under_of_addWithin added⟩
  rw [Cell.eq_add_of_addWithin added]
  exact Cell.counts_add stored.counts mem

/-- The trees of the cell are stored as they should be, and those to be added belong to the span.
Only with one tree too many may the limit be exceeded. -/
inductive Task.Sound (g : Grammar) (limit : Option Nat) (words : List String) (span : Span) :
    Task → Prop
  | gather {cell : Cell} {made : List Tree} {cuts : List Nat} :
      Stored g limit words span cell → (∀ tree ∈ made, tree ∈ g.forest words span) →
      (∀ cut ∈ cuts, cut ∈ span.cuts) → Sound g limit words span (.gather cell made cuts)
  | close {stage : Stage} :
      Stored g limit words span stage.cell → (∀ tree ∈ stage.pending, tree ∈ g.forest words span) →
      (∀ tree ∈ stage.made, tree ∈ g.forest words span) → Sound g limit words span (.close stage)
  | exceeded {cell : Cell} {error : ParseError} :
      cell.Counts (g.forest words span) → Sound g limit words span (.exceeded cell error)

theorem counts_of_sound {task : Task} (sound : task.Sound g limit words span) :
    task.cell.Counts (g.forest words span) := by
  cases sound with
  | gather stored => exact stored.counts
  | close stored => exact stored.counts
  | exceeded counts => exact counts

theorem sound_start (relaxed : g.violation? = none) (within : span.Within words.length) :
    (Task.start g words span).Sound g limit words span := by
  unfold Task.start
  split
  · next word =>
    have here := List.getElem?_eq_getElem (Nat.lt_of_lt_of_le within.1 within.2)
    refine .gather (stored_empty g limit words span) (fun tree mem => ?_) (by simp)
    rw [here, Option.map_some, Option.getD_some, mem_wordTrees relaxed] at mem
    rw [mem_forest, Span.slice_word word here]
    exact .base mem
  · exact .gather (stored_empty g limit words span) (by simp) fun _ => id

theorem sound_closeStep {stage next : Stage} (step : CloseStep g limit span stage next)
    (sound : (Task.close stage).Sound g limit words span) :
    (Task.close next).Sound g limit words span := by
  obtain _ | ⟨stored, pending, made⟩ := sound
  cases step with
  | @take cell tree later pushed =>
    obtain ⟨mem, later⟩ := List.forall_mem_cons.mp pending
    refine .close stored later fun other other_mem => ?_
    obtain ⟨parent, up, rfl⟩ := List.mem_map.mp other_mem
    exact unitClosed_forest g words span tree mem parent up
  | pass _ added =>
    obtain ⟨mem, later⟩ := List.forall_mem_cons.mp made
    exact .close (stored_of_addWithin stored mem added) pending later
  | push _ added =>
    obtain ⟨mem, later⟩ := List.forall_mem_cons.mp made
    exact .close (stored_of_addWithin stored mem added)
      (List.forall_mem_cons.mpr ⟨mem, pending⟩) later

theorem sound_taskStep {task next : Task} {reads : List (Span × Cell)}
    (within : span.Within words.length) (step : TaskStep g limit span task reads next)
    (right : ∀ read ∈ reads, Stored g limit words read.1 read.2)
    (sound : task.Sound g limit words span) : next.Sound g limit words span := by
  cases step with
  | cut =>
    obtain ⟨stored, -, cuts⟩ := sound
    obtain ⟨here, later⟩ := List.forall_mem_cons.mp cuts
    obtain ⟨left, right⟩ := List.forall_mem_cons.mp right
    have right := right _ (.head _)
    refine .gather stored (fun tree mem => mem_forest.mpr (.base ?_)) later
    exact grounded_of_mem_made within here (fun one hone => (left.counts.subset hone).2)
      (fun other hother => (right.counts.subset hother).2) mem
  | add added =>
    obtain ⟨stored, made, cuts⟩ := sound
    obtain ⟨mem, later⟩ := List.forall_mem_cons.mp made
    exact .gather (stored_of_addWithin stored mem added) later cuts
  | exceed =>
    obtain ⟨stored, made, -⟩ := sound
    exact .exceeded (Cell.counts_add stored.counts (made _ (.head _)))
  | close =>
    obtain ⟨stored, -, -⟩ := sound
    refine .close stored (fun tree mem => stored.counts.subset ?_) (by simp [Stage.start])
    rwa [Stage.start, List.mem_reverse, Cell.mem_toList] at mem
  | follow step => exact sound_closeStep step sound
  | exceedClosing =>
    obtain _ | ⟨stored, -, made⟩ := sound
    exact .exceeded (Cell.counts_add stored.counts (made _ (.head _)))

theorem reads_of_taskStep {task next : Task} {reads : List (Span × Cell)}
    (within : span.Within words.length) (sound : task.Sound g limit words span)
    (step : TaskStep g limit span task reads next) (read : Span × Cell) (mem : read ∈ reads) :
    read.1.Within words.length ∧ read.1.stop - read.1.start < span.stop - span.start := by
  cases step with
  | cut =>
    obtain ⟨-, -, cuts⟩ := sound
    obtain ⟨after, before⟩ := Span.mem_cuts.mp (cuts _ (.head _))
    obtain ⟨proper, inside⟩ := within
    rcases List.mem_pair.mp mem with rfl | rfl <;> dsimp only [Span.Within] <;> omega
  | _ => nomatch mem

theorem treeWorker_keeps (relaxed : g.violation? = none) (limit : Option Nat)
    (words : List String) :
    (treeWorker g limit words).Keeps words.length (Stored g limit words)
      fun span task => task.Sound g limit words span where
  start _ within := sound_start relaxed within
  reads within sound step := reads_of_taskStep within sound step
  step within sound step right := sound_taskStep within step right sound
  done _ sound done := by
    cases sound with
    | @close stage stored =>
      obtain ⟨held, _ | _, _ | _, pushed⟩ := stage
      · cases done
        exact stored
      all_goals nomatch done
    | _ => nomatch done

end Parser

end ChartParser
