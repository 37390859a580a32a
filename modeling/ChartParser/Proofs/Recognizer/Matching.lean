import ChartParser.Proofs.Chart.Access
import ChartParser.Recognizer

/-! # Matching a body with words

A body matches if the words can be cut into pieces that its symbols cover. The match is also worked
out here together with all that it looks at, which lies within the words and the table.
-/

namespace ChartParser.Recognizer

variable {start stop : Nat} {symbol : Symbol} {body : List Symbol}

/-! ## Pieces -/

namespace State

variable {state : State}

/-- The symbol covers the piece from `start` to `stop`. A terminal is one word, and a non-terminal is
found already if the piece is the whole span, and else is in the table. -/
def Covers (state : State) (start stop : Nat) : Symbol → Prop
  | .term name => stop = start + 1 ∧ state.words[start]? = some name
  | .nonterm name =>
    if (⟨start, stop⟩ : Span) = state.span then Symbol.nonterm name ∈ state.found
    else ∃ symbols, state.chart.get? ⟨start, stop⟩ = some symbols ∧ Symbol.nonterm name ∈ symbols

/-- Cuts between `start` and `stop` leave one piece for each symbol, which covers it. -/
def Divides (state : State) (start stop : Nat) (body : List Symbol) : Prop :=
  ∃ cut : Nat → Nat, cut 0 = start ∧ cut body.length = stop ∧
    ∀ i (h : i < body.length), cut i < cut (i + 1) ∧ state.Covers (cut i) (cut (i + 1)) body[i]

theorem covers_iff_covers : state.covers start stop symbol = true ↔ state.Covers start stop symbol := by
  cases symbol with
  | term name => rw [covers, Covers, Bool.and_eq_true, beq_iff_eq, beq_iff_eq]
  | nonterm name =>
    simp only [covers, Covers, ← Span.mk.injEq]
    split
    · exact Std.TreeSet.contains_iff_mem
    · simp [Option.any_eq_true]

theorem divides_nil : state.Divides start stop [] ↔ start = stop := by
  constructor
  · rintro ⟨cut, rfl, rfl, -⟩
    rfl
  · rintro rfl
    exact ⟨fun _ => start, rfl, rfl, nofun⟩

theorem divides_cons : state.Divides start stop (symbol :: body) ↔
    ∃ cut, start < cut ∧ state.Covers start cut symbol ∧ state.Divides cut stop body := by
  constructor
  · rintro ⟨cut, rfl, rfl, pieces⟩
    obtain ⟨rises, covers⟩ := pieces 0 (Nat.zero_lt_succ _)
    refine ⟨cut 1, rises, covers, fun i => cut (i + 1), rfl, rfl, fun i h => ?_⟩
    exact pieces (i + 1) (Nat.succ_lt_succ h)
  · rintro ⟨first, rises, covers, cut, rfl, rfl, pieces⟩
    refine ⟨fun i => Nat.casesOn i start cut, rfl, rfl, fun i h => ?_⟩
    cases i with
    | zero => exact ⟨rises, covers⟩
    | succ i => exact pieces i (Nat.lt_of_succ_lt_succ h)

/-- Every symbol takes a word at least. -/
theorem add_length_le_of_divides (divides : state.Divides start stop body) :
    start + body.length ≤ stop := by
  induction body generalizing start with
  | nil => exact Nat.le_of_eq (divides_nil.mp divides)
  | cons symbol body ih =>
    obtain ⟨cut, rises, -, later⟩ := divides_cons.mp divides
    have := ih later
    rw [List.length_cons]
    omega

theorem divides_singleton (proper : start < stop) :
    state.Divides start stop [symbol] ↔ state.Covers start stop symbol := by
  rw [divides_cons]
  constructor
  · rintro ⟨cut, -, covers, later⟩
    rwa [← divides_nil.mp later]
  · exact fun covers => ⟨stop, proper, covers, divides_nil.mpr rfl⟩

/-- The guard on the number of words cuts off no way to divide them. -/
theorem coversAll_iff_divides (proper : start < stop) :
    state.coversAll start stop body = true ↔ state.Divides start stop body := by
  induction body generalizing start with
  | nil => rw [coversAll, divides_nil, beq_iff_eq]
  | cons symbol rest ih =>
    cases rest with
    | nil => rw [coversAll, covers_iff_covers, divides_singleton proper]
    | cons next rest =>
      rw [coversAll, divides_cons, Bool.and_eq_true, List.any_eq_true, decide_eq_true_eq]
      constructor
      · rintro ⟨-, cut, range, h⟩
        rw [Bool.and_eq_true, covers_iff_covers] at h
        rw [List.mem_range'_1] at range
        exact ⟨cut, by omega, h.1, (ih (by omega)).mp h.2⟩
      · rintro ⟨cut, rises, covers, later⟩
        have short := add_length_le_of_divides later
        rw [List.length_cons] at short
        refine ⟨by omega, cut, by rw [List.mem_range'_1]; omega, ?_⟩
        rw [Bool.and_eq_true, covers_iff_covers]
        exact ⟨covers, (ih (by omega)).mpr later⟩

end State

/-! ## Traces -/

/-- What may go wrong while a body is matched. -/
inductive Act
  /-- The second number is taken from the first. -/
  | minus (a b : Nat)
  /-- The word at the index is looked at. -/
  | word (i : Nat)
  /-- The entry of the table is looked at. -/
  | entry (part : Span)

/-- An answer, and what was done for it. -/
structure Trace where
  answer : Bool
  acts : List Act

namespace Trace

/-- The second trace comes after the first one if that ends with the answer `on`. -/
def proceed (on : Bool) (first second : Trace) : Trace :=
  if first.answer = on then ⟨second.answer, first.acts ++ second.acts⟩ else first

/-- The cuts are tried one after the other until one of them will do. -/
def any (cuts : List Nat) (attempt : Nat → Trace) : Trace :=
  match cuts with
  | [] => ⟨false, []⟩
  | cut :: cuts => (attempt cut).proceed false (any cuts attempt)

end Trace

/-- What a match looks at. -/
structure View where
  words : List String
  span : Span
  found : Std.TreeSet Symbol
  entry : Span → Std.TreeSet Symbol

/-- A slot that is not set is an empty set. -/
def State.view (state : State) : View := ⟨state.words, state.span, state.found, state.chart.look ∅⟩

namespace View

/-- The trace of matching one symbol. -/
def one (view : View) (start stop : Nat) : Symbol → Trace
  | .term name =>
    if stop = start + 1 then ⟨view.words[start]? == some name, [.word start]⟩ else ⟨false, []⟩
  | .nonterm name =>
    if start = view.span.start ∧ stop = view.span.stop then
      ⟨view.found.contains (.nonterm name), []⟩
    else ⟨(view.entry ⟨start, stop⟩).contains (.nonterm name), [.entry ⟨start, stop⟩]⟩

/-- The trace of matching a body. -/
def seq (view : View) (start stop : Nat) : List Symbol → Trace
  | [] => ⟨start == stop, []⟩
  | [symbol] => view.one start stop symbol
  | symbol :: next :: rest =>
    let others := (next :: rest).length
    if stop - start < others + 1 then ⟨false, [.minus stop start]⟩
    else
      let tried := Trace.any (List.range' (start + 1) (stop - others - start)) fun cut =>
        (view.one start cut symbol).proceed true (view.seq cut stop (next :: rest))
      ⟨tried.answer, .minus stop start :: .minus stop others :: tried.acts⟩

end View

/-! ## The answer of a trace -/

namespace Trace

theorem answer_proceed_true (first second : Trace) :
    (first.proceed true second).answer = (first.answer && second.answer) := by
  unfold proceed
  cases answer : first.answer <;> simp [answer]

theorem answer_proceed_false (first second : Trace) :
    (first.proceed false second).answer = (first.answer || second.answer) := by
  unfold proceed
  cases answer : first.answer <;> simp [answer]

theorem answer_any (cuts : List Nat) (attempt : Nat → Trace) :
    (any cuts attempt).answer = cuts.any fun cut => (attempt cut).answer := by
  induction cuts with
  | nil => rfl
  | cons cut cuts ih => rw [any, answer_proceed_false, ih, List.any_cons]

end Trace

theorem answer_one (state : State) (start stop : Nat) (symbol : Symbol) :
    (state.view.one start stop symbol).answer = state.covers start stop symbol := by
  cases symbol with
  | term name =>
    rw [View.one, State.covers]
    split <;> simp_all [State.view]
  | nonterm name =>
    by_cases whole : start = state.span.start ∧ stop = state.span.stop
    · rw [State.covers, if_pos whole]
      exact congrArg Trace.answer (if_pos whole)
    · rw [State.covers, if_neg whole]
      refine (congrArg Trace.answer (if_neg whole)).trans ?_
      change ((state.chart.get? ⟨start, stop⟩).getD ∅).contains (Symbol.nonterm name) = _
      cases state.chart.get? ⟨start, stop⟩ <;> simp

/-- The trace ends with the answer of the match. -/
theorem answer_seq (state : State) (start stop : Nat) (body : List Symbol) :
    (state.view.seq start stop body).answer = state.coversAll start stop body := by
  fun_induction state.coversAll start stop body with
  | case1 => rfl
  | case2 start symbol => exact answer_one state start stop symbol
  | case3 start symbol next rest others ih =>
    rw [View.seq, List.length_cons]
    by_cases few : stop - start < others + 1
    · rw [if_pos few, decide_eq_false (Nat.not_le_of_lt few), Bool.false_and]
    · rw [if_neg few, decide_eq_true (Nat.le_of_not_lt few), Bool.true_and]
      simp only [Trace.answer_any, Trace.answer_proceed_true, answer_one, ih]
      rfl

/-! ## What a trace looks at -/

variable {n : Nat} {span : Span} {P : Act → Prop}

/-- What may be done while symbols are collected for a span of `n` words. A part within the words has
its place in the table. -/
def Act.Safe (n : Nat) (span : Span) : Act → Prop
  | minus a b => b ≤ a
  | word i => i < n
  | entry part => part.Within n ∧ part.stop - part.start < span.stop - span.start

theorem Trace.mem_acts_proceed {first second : Trace} {on : Bool} {act : Act}
    (h : act ∈ first.acts) : act ∈ (first.proceed on second).acts := by
  unfold proceed
  split
  · exact List.mem_append_left _ h
  · exact h

theorem Trace.forall_acts_proceed {first second : Trace} (on : Bool)
    (left : ∀ act ∈ first.acts, P act) (right : ∀ act ∈ second.acts, P act) :
    ∀ act ∈ (first.proceed on second).acts, P act := by
  unfold proceed
  split
  · exact List.forall_mem_append.mpr ⟨left, right⟩
  · exact left

theorem Trace.forall_acts_any {cuts : List Nat} {attempt : Nat → Trace}
    (each : ∀ cut ∈ cuts, ∀ act ∈ (attempt cut).acts, P act) :
    ∀ act ∈ (any cuts attempt).acts, P act := by
  induction cuts with
  | nil => exact List.forall_mem_nil _
  | cons cut cuts ih =>
    obtain ⟨here, later⟩ := List.forall_mem_cons.mp each
    exact forall_acts_proceed false here (ih later)

variable {view : View}

theorem safe_one (within : view.span.Within n) (first : view.span.start ≤ start)
    (proper : start < stop) (last : stop ≤ view.span.stop) (symbol : Symbol) :
    ∀ act ∈ (view.one start stop symbol).acts, act.Safe n view.span := by
  have inside := within.2
  cases symbol with
  | term name =>
    rw [View.one]
    split
    · exact List.forall_mem_singleton.mpr (show start < n by omega)
    · exact List.forall_mem_nil _
  | nonterm name =>
    rw [View.one]
    split
    · exact List.forall_mem_nil _
    · next part =>
      refine List.forall_mem_singleton.mpr ⟨⟨proper, Nat.le_trans last inside⟩, ?_⟩
      dsimp only
      omega

/-- The guard on the number of words is enough for both subtractions, also in the calls for what is
left of the body. -/
theorem safe_seq (within : view.span.Within n) (first : view.span.start ≤ start)
    (proper : start < stop) (last : stop ≤ view.span.stop) (body : List Symbol) :
    ∀ act ∈ (view.seq start stop body).acts, act.Safe n view.span := by
  fun_induction view.seq start stop body with
  | case1 => exact List.forall_mem_nil _
  | case2 start symbol => exact safe_one within first proper last symbol
  | case3 start symbol next rest others few =>
    exact List.forall_mem_singleton.mpr (show start ≤ stop by omega)
  | case4 start symbol next rest others enough tried ih =>
    have some : 0 < others := Nat.zero_lt_succ _
    refine List.forall_mem_cons.mpr ⟨Nat.le_of_lt proper, List.forall_mem_cons.mpr ⟨?_, ?_⟩⟩
    · exact show others ≤ stop by omega
    · refine Trace.forall_acts_any fun cut range => ?_
      rw [List.mem_range'_1] at range
      exact Trace.forall_acts_proceed true
        (safe_one within first (by omega) (by omega) symbol)
        (ih cut (by omega) (by omega))

/-! ## Traces over two tables -/

/-- The entry that is looked at. -/
def Act.part? : Act → Option Span
  | minus _ _ => none
  | word _ => none
  | entry part => some part

/-- The parts of the span whose entries are looked at, in order. -/
def Trace.parts (trace : Trace) : List Span := trace.acts.filterMap Act.part?

/-- The traces are the same if the two tables agree where both look. -/
def Trace.Tied (table table' : Span → Std.TreeSet Symbol) (trace trace' : Trace) : Prop :=
  (∀ part ∈ trace.parts, part ∈ trace'.parts → table part = table' part) → trace = trace'

namespace Trace

variable {table table' : Span → Std.TreeSet Symbol} {first first' second second' : Trace}

theorem parts_proceed (on : Bool) (first second : Trace) :
    (first.proceed on second).parts =
      first.parts ++ if first.answer = on then second.parts else [] := by
  unfold proceed
  split
  · exact List.filterMap_append
  · exact (List.append_nil _).symm

theorem tied_proceed (on : Bool) (left : Tied table table' first first')
    (right : Tied table table' second second') :
    Tied table table' (first.proceed on second) (first'.proceed on second') := by
  intro agree
  simp only [parts_proceed] at agree
  have same : first = first' := left fun part mem mem' =>
    agree part (List.mem_append_left _ mem) (List.mem_append_left _ mem')
  subst same
  by_cases goes : first.answer = on
  · rw [if_pos goes, if_pos goes] at agree
    have same : second = second' := right fun part mem mem' =>
      agree part (List.mem_append_right _ mem) (List.mem_append_right _ mem')
    rw [same]
  · rw [proceed, proceed, if_neg goes, if_neg goes]

theorem tied_any {attempt attempt' : Nat → Trace} (cuts : List Nat)
    (each : ∀ cut, Tied table table' (attempt cut) (attempt' cut)) :
    Tied table table' (any cuts attempt) (any cuts attempt') := by
  induction cuts with
  | nil => exact fun _ => rfl
  | cons cut cuts ih => exact tied_proceed false (each cut) ih

end Trace

variable {words : List String} {found : Std.TreeSet Symbol} {table table' : Span → Std.TreeSet Symbol}

theorem tied_one (start stop : Nat) (symbol : Symbol) :
    Trace.Tied table table' (View.one ⟨words, span, found, table⟩ start stop symbol)
      (View.one ⟨words, span, found, table'⟩ start stop symbol) := by
  cases symbol with
  | term name => exact fun _ => rfl
  | nonterm name =>
    intro agree
    simp only [View.one] at agree ⊢
    split
    · rfl
    · next part =>
      rw [if_neg part, if_neg part] at agree
      rw [agree ⟨start, stop⟩ (.head _) (.head _)]

/-- A match depends on the entries that it looks at only. -/
theorem tied_seq (start stop : Nat) (body : List Symbol) :
    Trace.Tied table table' (View.seq ⟨words, span, found, table⟩ start stop body)
      (View.seq ⟨words, span, found, table'⟩ start stop body) := by
  induction body generalizing start with
  | nil => exact fun _ => rfl
  | cons symbol rest ih =>
    cases rest with
    | nil => exact tied_one start stop symbol
    | cons next rest =>
      intro agree
      rw [View.seq, View.seq] at agree ⊢
      split
      · rfl
      · next enough =>
        rw [if_neg enough, if_neg enough] at agree
        have same := Trace.tied_any _
          (fun cut => Trace.tied_proceed true (tied_one start cut symbol) (ih cut)) agree
        dsimp only
        rw [same]

/-- The entries that are looked at, with what is in them. -/
def View.reads (view : View) (start stop : Nat) (body : List Symbol) :
    List (Span × Std.TreeSet Symbol) :=
  (view.seq start stop body).parts.map fun part => (part, view.entry part)

theorem mem_parts_iff {trace : Trace} {part : Span} :
    part ∈ trace.parts ↔ .entry part ∈ trace.acts := by
  rw [Trace.parts, List.mem_filterMap]
  constructor
  · rintro ⟨_ | _ | _, mem, same⟩
    · nomatch same
    · nomatch same
    · cases same
      exact mem
  · exact fun mem => ⟨_, mem, rfl⟩

/-- Where the same is read, a match goes the same way. -/
theorem seq_eq_of_reads
    (same : ∀ read ∈ View.reads ⟨words, span, found, table⟩ start stop body,
      ∀ read' ∈ View.reads ⟨words, span, found, table'⟩ start stop body,
        read.1 = read'.1 → read.2 = read'.2) :
    View.seq ⟨words, span, found, table⟩ start stop body =
        View.seq ⟨words, span, found, table'⟩ start stop body ∧
      View.reads ⟨words, span, found, table⟩ start stop body =
        View.reads ⟨words, span, found, table'⟩ start stop body := by
  have agree (part : Span)
      (mem : part ∈ (View.seq ⟨words, span, found, table⟩ start stop body).parts)
      (mem' : part ∈ (View.seq ⟨words, span, found, table'⟩ start stop body).parts) :
      table part = table' part :=
    same _ (List.mem_map_of_mem mem) _ (List.mem_map_of_mem mem') rfl
  have tied := tied_seq start stop body agree
  refine ⟨tied, ?_⟩
  rw [← tied] at agree
  rw [View.reads, View.reads, ← tied]
  exact List.map_congr_left fun part mem => congrArg (Prod.mk part) (agree part mem mem)

end ChartParser.Recognizer
