import ChartParser.Grammar.Basic

/-! # The index finds the rules with a body -/

namespace ChartParser

namespace RuleIndex

/-- The positions of the rules with a body, where the first rule is at `first`. -/
def positionsFrom (first : Nat) (rules : List Rule) (body : List Symbol) : List Nat :=
  ((rules.zipIdx first).filter (·.1.body == body)).map Prod.snd

theorem positionsFrom_cons (first : Nat) (rule : Rule) (rules : List Rule) (body : List Symbol) :
    positionsFrom first (rule :: rules) body =
      if rule.body = body then first :: positionsFrom (first + 1) rules body
      else positionsFrom (first + 1) rules body := by
  unfold positionsFrom
  rw [List.zipIdx_cons, List.filter_cons]
  by_cases same : rule.body = body <;> simp [same]

/-- A body has an entry only if some rule has it, and then the entry holds all positions of such
rules, in ascending order. -/
theorem getElem?_ofRulesFrom (first : Nat) (rules : List Rule) (body : List Symbol) :
    (ofRulesFrom first rules).byBody[body]? =
      match positionsFrom first rules body with
      | [] => none
      | positions => some positions := by
  induction rules generalizing first with
  | nil => simp [ofRulesFrom, positionsFrom]
  | cons rule rules ih =>
    rw [ofRulesFrom, addFirst, Std.TreeMap.getElem?_insert, positionsFrom_cons]
    by_cases same : rule.body = body
    · subst same
      simp only [Std.compare_eq_iff_eq, if_true, positions, Std.TreeMap.getD_eq_getD_getElem?, ih]
      cases positionsFrom (first + 1) rules rule.body <;> rfl
    · simp [same, ih]

theorem positions_ofRules (rules : List Rule) (body : List Symbol) :
    (ofRules rules).positions body = positionsFrom 0 rules body := by
  unfold positions ofRules
  rw [Std.TreeMap.getD_eq_getD_getElem?, getElem?_ofRulesFrom]
  cases positionsFrom 0 rules body <;> rfl

/-- Every position that is stored leads to a rule with the body under which it is stored. -/
theorem exists_rule_of_stored {rules : List Rule} {body : List Symbol} {positions : List Nat}
    (stored : (ofRules rules).byBody[body]? = some positions) {i : Nat} (mem : i ∈ positions) :
    ∃ rule, rules[i]? = some rule ∧ rule.body = body := by
  have entry : (ofRules rules).positions body = positions := by
    unfold RuleIndex.positions
    rw [Std.TreeMap.getD_eq_getD_getElem?, stored]
    rfl
  rw [← entry, positions_ofRules, positionsFrom, List.mem_map] at mem
  obtain ⟨⟨rule, _⟩, found, rfl⟩ := mem
  obtain ⟨here, same⟩ := List.mem_filter.mp found
  exact ⟨rule, List.mem_zipIdx_iff_getElem?.mp here, beq_iff_eq.mp same⟩

/-- Reading the rules at the positions of a body leaves none out. -/
theorem map_positions_ofRules (rules : List Rule) (body : List Symbol) :
    ((ofRules rules).positions body).map (rules[·]?) =
      (rules.filter (·.body == body)).map some := by
  have whole : rules.filter (·.body == body) =
      ((rules.zipIdx).filter (·.1.body == body)).map Prod.fst := by
    conv => lhs; rw [← List.zipIdx_map_fst 0 rules, List.filter_map]
    rfl
  rw [positions_ofRules, positionsFrom, whole, List.map_map, List.map_map]
  apply List.map_congr_left
  intro entry mem
  exact List.mem_zipIdx_iff_getElem?.mp (List.mem_filter.mp mem).1

/-! ## One pass over the rules -/

/-- The index that has one more position, after all others. -/
def addLast (index : RuleIndex) (position : Nat) (body : List Symbol) : RuleIndex :=
  ⟨index.byBody.alter body fun known => some (known.getD [] ++ [position])⟩

/-- The index that grows by one position for each rule, in order. -/
def inOrder (rules : List Rule) : RuleIndex :=
  rules.zipIdx.foldl (fun index entry => index.addLast entry.2 entry.1.body) ⟨∅⟩

theorem getElem?_addLast (index : RuleIndex) (position : Nat) (body other : List Symbol) :
    (index.addLast position body).byBody[other]? =
      if body = other then some (index.byBody[other]?.getD [] ++ [position])
      else index.byBody[other]? := by
  unfold addLast
  rw [Std.TreeMap.getElem?_alter]
  simp only [Std.compare_eq_iff_eq]
  split
  · next same => rw [same]
  · rfl

/-- What has been stored stays in front of what is added. -/
theorem getElem?_foldl_addLast (index : RuleIndex) (first : Nat) (rules : List Rule)
    (body : List Symbol) :
    ((rules.zipIdx first).foldl (fun index entry => index.addLast entry.2 entry.1.body)
        index).byBody[body]? =
      match positionsFrom first rules body with
      | [] => index.byBody[body]?
      | positions => some (index.byBody[body]?.getD [] ++ positions) := by
  induction rules generalizing index first with
  | nil => rfl
  | cons rule rules ih =>
    rw [List.zipIdx_cons, List.foldl_cons, ih, getElem?_addLast, positionsFrom_cons]
    by_cases same : rule.body = body
    · simp only [same, if_true]
      cases positionsFrom (first + 1) rules body <;> simp
    · simp [same]

theorem getElem?_inOrder (rules : List Rule) (body : List Symbol) :
    (inOrder rules).byBody[body]? = (ofRules rules).byBody[body]? := by
  unfold inOrder ofRules
  rw [getElem?_foldl_addLast, getElem?_ofRulesFrom]
  cases positionsFrom 0 rules body <;> simp

end RuleIndex

namespace Grammar

theorem rulesProducing_eq_filter (g : Grammar) (body : List Symbol) :
    g.rulesProducing body = g.rules.filter (·.body == body) := by
  have each := congrArg (List.filterMap id) (RuleIndex.map_positions_ofRules g.rules body)
  rw [← g.index_eq, List.filterMap_map, List.filterMap_map] at each
  unfold rulesProducing
  simpa using each

theorem mem_rulesProducing {g : Grammar} {body : List Symbol} {rule : Rule} :
    rule ∈ g.rulesProducing body ↔ rule ∈ g.rules ∧ rule.body = body := by
  rw [rulesProducing_eq_filter, List.mem_filter, beq_iff_eq]

theorem mem_unitParents {g : Grammar} {symbol parent : Symbol} :
    parent ∈ g.unitParents symbol ↔
      ∃ rule ∈ g.rules, rule.head = parent ∧ rule.body = [symbol] := by
  simp only [unitParents, List.mem_map, mem_rulesProducing]
  constructor
  · rintro ⟨rule, ⟨mem, body⟩, head⟩
    exact ⟨rule, mem, head, body⟩
  · rintro ⟨rule, mem, head, body⟩
    exact ⟨rule, ⟨mem, body⟩, head⟩

theorem unitParents_length_le (g : Grammar) (symbol : Symbol) :
    (g.unitParents symbol).length ≤ g.rules.length := by
  rw [unitParents, List.length_map, rulesProducing_eq_filter]
  exact List.length_filter_le _ _

end Grammar

end ChartParser
