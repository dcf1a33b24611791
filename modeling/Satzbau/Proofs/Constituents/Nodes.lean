import Mathlib.Data.List.Infix
import Satzbau.Proofs.Constituents.Kept

namespace Satzbau

/-- An expression begins with the place of its first token. -/
theorem Expression.slots_begin (e : Expression) : ∃ later, slotsOf e.constituents = .token e.firstToken :: later := by
  have phrase (p : NounPhrase) : ∃ later, p.slots = .token p.firstToken :: later := by
    obtain ⟨id, determiner, noun⟩ := p
    cases determiner with
    | none => exact ⟨[], rfl⟩
    | some token => exact ⟨[.token noun], rfl⟩
  have begun {p : NounPhrase} {cs : List Constituent} :
      ∃ later, slotsOf (.phrase p :: cs) = .token p.firstToken :: later := by
    obtain ⟨later, front⟩ := phrase p
    exact ⟨later ++ slotsOf cs, by rw [slotsOf_cons, Constituent.slots, front, List.cons_append]⟩
  match e with
  | .literal _ | .self _ | .you _ | .minus _ _ => exact ⟨_, by rw [Expression.constituents]; rfl⟩
  | .noun _ | .ownProperty _ | .subjectProperty _ | .list _ _ | .element _ _ | .instantiation _ _ | .property _ _ =>
    rw [Expression.constituents]
    exact begun
  | .call ⟨id, verb, object, groups, suffix⟩ =>
    exact ⟨_, by rw [Expression.constituents, Call.constituents]; rfl⟩
  | .binary operator token left right =>
    obtain ⟨later, front⟩ := slots_begin left
    exact ⟨_, by rw [Expression.constituents, slotsOf_append, front, List.cons_append]; rfl⟩
  | .conversion token value target =>
    obtain ⟨later, front⟩ := slots_begin value
    exact ⟨_, by rw [Expression.constituents, slotsOf_append, front, List.cons_append]; rfl⟩

theorem slotsOf_within {cs cs' : List Constituent} (within : cs <:+: cs') : slotsOf cs <:+: slotsOf cs' :=
  within.flatMap Constituent.slots

namespace Node

/-- What a node of a program keeps. -/
def constituents : Node → List Constituent
  | definition d => d.constituents
  | statement s => s.constituents
  | expression e => e.constituents
  | call c => c.constituents

variable {child : Node}

theorem infix_block {block : Block} (member : child ∈ ofBlock block) :
    child.constituents <:+: blockConstituents block := by
  induction block with
  | nil => contradiction
  | cons s later ih =>
    rw [blockConstituents]
    rcases List.mem_cons.mp member with rfl | inLater
    · exact (List.prefix_append _ _).isInfix
    · exact List.infix_append_of_infix_right (ih inLater)

theorem infix_value {value : Option Expression} (member : child ∈ ofValue value) :
    child.constituents <:+: valueConstituents value := by
  cases value with
  | none => contradiction
  | some e =>
    obtain rfl := List.mem_singleton.mp member
    exact List.infix_rfl

theorem infix_argument {a : Argument} (member : child ∈ ofValue a.value) : child.constituents <:+: a.constituents := by
  obtain ⟨phrase, value⟩ := a
  rw [Argument.constituents]
  exact List.infix_cons (infix_value member)

theorem infix_arguments {arguments : List Argument} (member : child ∈ ofArguments arguments) :
    child.constituents <:+: argumentConstituents arguments := by
  induction arguments with
  | nil => contradiction
  | cons a later ih =>
    rw [argumentConstituents]
    rcases List.mem_append.mp member with here | inLater
    · exact List.infix_append_of_infix_left (infix_argument here)
    · exact List.infix_append_of_infix_right (ih inLater)

theorem infix_groups {groups : List (PrepositionGroup Argument)}
    (member : child ∈ ofArguments (groups.flatMap PrepositionGroup.items)) :
    child.constituents <:+: groupConstituents groups := by
  induction groups with
  | nil => contradiction
  | cons g later ih =>
    obtain ⟨preposition, items⟩ := g
    rw [groupConstituents]
    rw [ofArguments, List.flatMap_cons, List.flatMap_append] at member
    rcases List.mem_append.mp member with here | inLater
    · exact List.infix_cons (List.infix_append_of_infix_left (infix_arguments here))
    · exact List.infix_cons (List.infix_append_of_infix_right (ih inLater))

theorem infix_call {c : Call} (member : child ∈ ofArguments c.arguments) : child.constituents <:+: c.constituents := by
  obtain ⟨id, verb, object, groups, suffix⟩ := c
  rw [Call.constituents]
  rw [Call.arguments, ofArguments, List.flatMap_append] at member
  refine List.infix_cons (List.infix_cons (List.infix_append_of_infix_left ?_))
  rcases List.mem_append.mp member with inObject | inGroups
  · cases object with
    | absent | reflexive _ => contradiction
    | thing a =>
      refine List.infix_append_of_infix_left (infix_argument ?_)
      simpa [ObjectRole.toList] using inObject
  · exact List.infix_append_of_infix_right (infix_groups inGroups)

theorem infix_branches {branches : List Branch} (member : child ∈ ofBranches branches) :
    child.constituents <:+: branchConstituents branches := by
  induction branches with
  | nil => contradiction
  | cons b later ih =>
    obtain ⟨condition, body⟩ := b
    rw [branchConstituents]
    rcases List.mem_append.mp member with here | inLater
    · rcases List.mem_cons.mp here with rfl | inBody
      · exact List.infix_append_of_infix_left (List.infix_append_of_infix_left List.infix_rfl)
      · exact List.infix_append_of_infix_left (List.infix_append_of_infix_right (infix_block inBody))
    · exact List.infix_append_of_infix_right (ih inLater)

theorem infix_source {source : Option Expression} (member : child ∈ ofValue source) :
    child.constituents <:+: sourceConstituents source := by
  cases source with
  | none => contradiction
  | some e =>
    obtain rfl := List.mem_singleton.mp member
    exact List.infix_cons List.infix_rfl

theorem infix_statement {s : Statement} (member : child ∈ ofStatement s) : child.constituents <:+: s.constituents := by
  cases s with
  | declaration target owner verb value =>
    rw [Statement.constituents]
    rcases List.mem_append.mp member with inOwner | atValue
    · exact List.infix_cons (List.infix_append_of_infix_left (infix_value inOwner))
    · obtain rfl := List.mem_singleton.mp atValue
      exact List.infix_cons (List.infix_append_of_infix_right (List.infix_cons List.infix_rfl))
  | conditional token branches otherwise =>
    rw [Statement.constituents]
    rcases List.mem_append.mp member with inBranches | inOtherwise
    · exact List.infix_cons (List.infix_append_of_infix_left (infix_branches inBranches))
    · cases otherwise with
      | none => contradiction
      | some body => exact List.infix_cons (List.infix_append_of_infix_right (infix_block inOtherwise))
  | whileLoop token condition body =>
    rw [Statement.constituents]
    rcases List.mem_cons.mp member with rfl | inBody
    · exact List.infix_cons (List.infix_append_of_infix_left List.infix_rfl)
    · exact List.infix_cons (List.infix_append_of_infix_right (infix_block inBody))
  | forEach token binder source body =>
    rw [Statement.constituents]
    refine List.infix_cons (List.infix_cons ?_)
    rcases List.mem_append.mp member with inSource | inBody
    · exact List.infix_append_of_infix_left (infix_source inSource)
    · exact List.infix_append_of_infix_right (infix_block inBody)
  | give token value =>
    rw [Statement.constituents]
    exact List.infix_cons (infix_value member)
  | methodBlock subject body =>
    rw [Statement.constituents]
    rcases List.mem_cons.mp member with rfl | inBody
    · exact List.infix_append_of_infix_left List.infix_rfl
    · exact List.infix_append_of_infix_right (infix_block inBody)
  | call c =>
    obtain rfl := List.mem_singleton.mp member
    rw [Statement.constituents]
    exact List.infix_rfl
  | loopControl _ _ | builtin _ => contradiction

theorem infix_items {items : List Expression} (member : child ∈ items.map expression) :
    child.constituents <:+: itemConstituents items := by
  induction items with
  | nil => contradiction
  | cons item later ih =>
    rw [itemConstituents]
    rcases List.mem_cons.mp member with rfl | inLater
    · exact List.infix_append_of_infix_left List.infix_rfl
    · exact List.infix_append_of_infix_right (ih inLater)

theorem infix_expression {e : Expression} (member : child ∈ ofExpression e) :
    child.constituents <:+: e.constituents := by
  cases e with
  | list phrase items =>
    rw [Expression.constituents]
    exact List.infix_cons (infix_items member)
  | element phrase index =>
    obtain rfl := List.mem_singleton.mp member
    rw [Expression.constituents]
    exact List.infix_cons List.infix_rfl
  | call c =>
    obtain rfl := List.mem_singleton.mp member
    rw [Expression.constituents]
    exact List.infix_rfl
  | binary operator token left right =>
    rw [Expression.constituents]
    rcases List.mem_cons.mp member with rfl | atRight
    · exact List.infix_append_of_infix_left List.infix_rfl
    · obtain rfl := List.mem_singleton.mp atRight
      exact List.infix_append_of_infix_right (List.infix_cons List.infix_rfl)
  | minus token operand =>
    obtain rfl := List.mem_singleton.mp member
    rw [Expression.constituents]
    exact List.infix_cons List.infix_rfl
  | conversion token value target =>
    obtain rfl := List.mem_singleton.mp member
    rw [Expression.constituents]
    exact List.infix_append_of_infix_left List.infix_rfl
  | instantiation phrase fields =>
    rw [Expression.constituents]
    exact List.infix_cons (infix_arguments member)
  | property phrase owner =>
    obtain rfl := List.mem_singleton.mp member
    rw [Expression.constituents]
    exact List.infix_cons List.infix_rfl
  | literal _ | noun _ | ownProperty _ | subjectProperty _ | self _ | you _ => contradiction

theorem infix_definition {d : Definition} (member : child ∈ ofDefinition d) :
    child.constituents <:+: d.constituents := by
  cases d with
  | function f => exact List.infix_append_of_infix_right (infix_block member)
  | noun c => exact List.infix_cons (List.infix_cons (List.infix_append_of_infix_right (infix_block member)))
  | implementation i =>
    refine List.infix_cons (List.infix_cons ?_)
    rcases List.mem_append.mp member with inMethods | inConversions
    · obtain ⟨f, inside, inBody⟩ := List.mem_flatMap.mp inMethods
      exact List.infix_append_of_infix_left (List.IsInfix.trans (List.infix_append_of_infix_right (infix_block inBody))
        (List.infix_of_mem_flatten (List.mem_map_of_mem inside)))
    · obtain ⟨c, inside, inBody⟩ := List.mem_flatMap.mp inConversions
      exact List.infix_append_of_infix_right (List.IsInfix.trans (List.infix_cons (List.infix_cons (infix_block inBody)))
        (List.infix_of_mem_flatten (List.mem_map_of_mem inside)))
  | declension d => contradiction

/-- What stands within a node stands together in it. -/
theorem infix_of_child {node : Node} (member : child ∈ node.children) : child.constituents <:+: node.constituents := by
  cases node with
  | definition d => exact infix_definition member
  | statement s => exact infix_statement member
  | expression e => exact infix_expression member
  | call c => exact infix_call member

/-- Whatever a walk meets within a node stands together in it. -/
theorem infix_of_visit {α : Type} (pass : Node → α → α) (inherited : α) {node : Node} {visit : α × Node}
    (met : visit ∈ visits pass inherited node) : visit.2.constituents <:+: node.constituents := by
  rw [visits_eq] at met
  rcases List.mem_cons.mp met with rfl | below
  · exact List.infix_rfl
  · obtain ⟨⟨child, member⟩, _, deeper⟩ := List.mem_flatMap.mp below
    have smaller := sizeOf_lt_of_mem_children member
    exact (infix_of_visit pass _ deeper).trans (infix_of_child member)
termination_by sizeOf node

end Node

end Satzbau
