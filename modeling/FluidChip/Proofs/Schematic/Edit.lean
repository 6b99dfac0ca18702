import FluidChip.Proofs.Schematic.Assembled

/-!
# Calls that change a schematic

Calls add, declare and delete.  A call that adds is refused just when a name that it would
give is taken, or when it names a port twice, and the refusal says which name that is.
-/

namespace FluidChip

open Outcome Schematic

/-! ## Calls and what refuses them -/

/-- The calls that change a schematic. -/
inductive Edit where
  | addNode (name typeName : String) (ports : List String) (attributes : Attributes)
  | addPort (node : NodeId) (label : String)
  | addConnection (name : String) (source target : PortId) (typeName : String)
      (attributes : Attributes)
  | addConstraint (name typeName : String) (attributes : Attributes)
  | declareNodeType (name : String) (supertype : Option String)
  | declareConnectionType (name : String) (supertype : Option String)
  | declareConstraintType (name : String) (supertype : Option String)
  | deleteNode (name : String)
  | deletePort (node : NodeId) (label : String)
  | deleteConnection (name : String)
  | deleteConstraint (name : String)

namespace Edit

/-- What a call makes of a schematic if it is not refused. -/
def apply : Edit → Schematic → Except Failure Schematic
  | addNode name typeName ports attributes, s => s.addNode name typeName ports attributes
  | addPort node label, s => s.addPort node label
  | addConnection name source target typeName attributes, s =>
    s.addConnection name source target typeName attributes
  | addConstraint name typeName attributes, s => s.addConstraint name typeName attributes
  | declareNodeType name supertype, s => .ok (s.declareNodeType name supertype)
  | declareConnectionType name supertype, s => .ok (s.declareConnectionType name supertype)
  | declareConstraintType name supertype, s => .ok (s.declareConstraintType name supertype)
  | deleteNode name, s => .ok (s.deleteNode name)
  | deletePort node label, s => .ok (s.deletePort node label)
  | deleteConnection name, s => .ok (s.deleteConnection name)
  | deleteConstraint name, s => .ok (s.deleteConstraint name)

/-- The first name of a list that has come before. -/
def FirstAgain (names : List String) (name : String) : Prop :=
  ∃ front back, names = front ++ name :: back ∧ front.Nodup ∧ name ∈ front

/-- What a call would add is there already. -/
inductive Clashes (s : Schematic) : Edit → Duplicate → Prop
  | node {name typeName : String} {ports : List String} {attributes : Attributes}
      (taken : name ∈ s.nodes.names) :
      Clashes s (addNode name typeName ports attributes) (.node s.name name)
  | ports {name typeName label : String} {ports : List String} {attributes : Attributes}
      (new : name ∉ s.nodes.names) (again : FirstAgain ports label) :
      Clashes s (addNode name typeName ports attributes) (.port label)
  | port {node : NodeId} {label : String} (taken : label ∈ (s.node node).ports.names) :
      Clashes s (addPort node label) (.port label)
  | connection {name typeName : String} {source target : PortId} {attributes : Attributes}
      (taken : name ∈ s.connections.names) :
      Clashes s (addConnection name source target typeName attributes) (.connection s.name name)
  | constraint {name typeName : String} {attributes : Attributes}
      (taken : name ∈ s.constraints.names) :
      Clashes s (addConstraint name typeName attributes) (.constraint s.name name)

theorem not_nodup_of_again {name : String} {front back : List String} (again : name ∈ front) :
    ¬ (front ++ name :: back).Nodup := by
  rw [List.nodup_middle, List.nodup_cons]
  exact fun distinct => distinct.1 (List.mem_append_left back again)

theorem FirstAgain.not_nodup {names : List String} {name : String} (h : FirstAgain names name) :
    ¬ names.Nodup := by
  obtain ⟨front, back, rfl, -, again⟩ := h
  exact not_nodup_of_again again

theorem FirstAgain.unique {names : List String} {name other : String}
    (h : FirstAgain names name) (h' : FirstAgain names other) : name = other := by
  obtain ⟨front, back, rfl, distinct, again⟩ := h
  obtain ⟨front', back', same, distinct', again'⟩ := h'
  -- Were one front longer than the other, it would hold twice what comes after the other.
  rcases List.append_eq_append_iff.mp same with ⟨middle, rfl, rest⟩ | ⟨middle, rfl, rest⟩
  · cases middle with
    | nil => exact (List.cons.inj rest).1
    | cons first middle =>
        cases rest
        exact absurd distinct' (not_nodup_of_again again)
  · cases middle with
    | nil => exact (List.cons.inj rest).1.symm
    | cons first middle =>
        cases rest
        exact absurd distinct (not_nodup_of_again again')

end Edit

variable {s : Schematic} {name label typeName : String} {labels : List String}
  {attributes : Attributes} {node : NodeId} {failure : Failure}

namespace Schematic

theorem addPort_of_mem (taken : label ∈ (s.node node).ports.names) :
    s.addPort node label = .error (.duplicate (.port label)) := by
  simp [addPort, Catalog.contains, taken]

theorem addConnection_of_mem {source target : PortId} (taken : name ∈ s.connections.names) :
    s.addConnection name source target typeName attributes =
      .error (.duplicate (.connection s.name name)) := by
  simp [addConnection, Catalog.contains, taken]

theorem addConstraint_of_mem (taken : name ∈ s.constraints.names) :
    s.addConstraint name typeName attributes = .error (.duplicate (.constraint s.name name)) := by
  simp [addConstraint, Catalog.contains, taken]

theorem addNode_of_mem (taken : name ∈ s.nodes.names) :
    s.addNode name typeName labels attributes = .error (.duplicate (.node s.name name)) := by
  simp [addNode, Catalog.contains, taken]

/-- Ports are refused at the first label that is there or came before. -/
theorem addPorts_error_iff : s.addPorts node labels = .error failure ↔
    ∃ label, Edit.FirstAgain ((s.node node).ports.names ++ labels) label ∧
      failure = .duplicate (.port label) := by
  induction labels generalizing s with
  | nil =>
      have none (label : String) : ¬ Edit.FirstAgain (s.node node).ports.names label :=
        fun again => again.not_nodup (s.node node).ports.nodup
      simp [addPorts, none]
  | cons first rest ih =>
      by_cases taken : first ∈ (s.node node).ports.names
      · have here : Edit.FirstAgain ((s.node node).ports.names ++ first :: rest) first :=
          ⟨_, rest, rfl, (s.node node).ports.nodup, taken⟩
        rw [addPorts, addPort_of_mem taken]
        constructor
        · intro same
          cases same
          exact ⟨first, here, rfl⟩
        · rintro ⟨label, again, rfl⟩
          rw [again.unique here]
          rfl
      · have step := addPort_of_notMem taken
        have names := congrArg Catalog.names ((node_addPort step node).trans (if_pos rfl))
        rw [Catalog.names_set_of_notMem taken] at names
        rw [addPorts, step]
        apply Iff.trans ih
        rw [names, List.append_assoc]
        rfl

theorem addNode_error_iff : s.addNode name typeName labels attributes = .error failure ↔
    ∃ fault, Edit.Clashes s (.addNode name typeName labels attributes) fault ∧
      failure = .duplicate fault := by
  by_cases taken : name ∈ s.nodes.names
  · rw [addNode_of_mem taken]
    constructor
    · intro same
      cases same
      exact ⟨_, .node taken, rfl⟩
    · rintro ⟨fault, clash, rfl⟩
      cases clash with
      | node => rfl
      | ports new => exact absurd taken new
  · have bare : ((s.withNode typeName attributes).node ⟨s.next⟩).ports.names = [] := by
      rw [ports_withNode, if_pos rfl]
      rfl
    have named {made : Schematic} : (Except.ok { made with
        nodes := made.nodes.set name ⟨s.next⟩ } : Except Failure Schematic) ≠ .error failure :=
      nofun
    rw [addNode_of_notMem taken]
    simp only [bind_error_iff, named, and_false, exists_false, or_false, addPorts_error_iff, bare,
      List.nil_append]
    constructor
    · rintro ⟨label, again, rfl⟩
      exact ⟨_, .ports taken again, rfl⟩
    · rintro ⟨fault, clash, rfl⟩
      cases clash with
      | node here => exact absurd here taken
      | ports new again => exact ⟨_, again, rfl⟩

end Schematic

namespace Edit

variable {e : Edit}

/-- A call that looks for one name first is refused for that name only. -/
theorem error_iff_of_check {taken : Prop} {fault : Duplicate}
    (refused : taken → e.apply s = .error (.duplicate fault))
    (accepted : ¬ taken → ∃ made, e.apply s = .ok made)
    (clash : taken → e.Clashes s fault)
    (only : ∀ other, e.Clashes s other → taken ∧ other = fault) :
    e.apply s = .error failure ↔ ∃ fault, e.Clashes s fault ∧ failure = .duplicate fault := by
  by_cases here : taken
  · rw [refused here]
    constructor
    · intro same
      cases same
      exact ⟨fault, clash here, rfl⟩
    · rintro ⟨other, found, rfl⟩
      rw [(only other found).2]
  · obtain ⟨made, done⟩ := accepted here
    have none (other : Duplicate) : ¬ e.Clashes s other := fun found => here (only other found).1
    simp [done, none]

/-- A call is refused just for what is there already. -/
theorem apply_error_iff :
    e.apply s = .error failure ↔ ∃ fault, e.Clashes s fault ∧ failure = .duplicate fault := by
  have never {e : Edit} (accepted : ∃ made, e.apply s = .ok made)
      (clear : ∀ fault, ¬ e.Clashes s fault) :
      e.apply s = .error failure ↔ ∃ fault, e.Clashes s fault ∧ failure = .duplicate fault := by
    obtain ⟨made, done⟩ := accepted
    simp [done, clear]
  cases e with
  | addNode name typeName ports attributes => exact addNode_error_iff
  | addPort node label =>
      apply error_iff_of_check addPort_of_mem
      case accepted => exact fun new => ⟨_, addPort_of_notMem new⟩
      case clash => exact .port
      case only =>
        intro other found
        cases found with
        | port taken => exact ⟨taken, rfl⟩
  | addConnection name source target typeName attributes =>
      apply error_iff_of_check addConnection_of_mem
      case accepted => exact fun new => ⟨_, addConnection_of_notMem new⟩
      case clash => exact .connection
      case only =>
        intro other found
        cases found with
        | connection taken => exact ⟨taken, rfl⟩
  | addConstraint name typeName attributes =>
      apply error_iff_of_check addConstraint_of_mem
      case accepted => exact fun new => ⟨_, addConstraint_of_notMem new⟩
      case clash => exact .constraint
      case only =>
        intro other found
        cases found with
        | constraint taken => exact ⟨taken, rfl⟩
  | declareNodeType name supertype => exact never ⟨_, rfl⟩ nofun
  | declareConnectionType name supertype => exact never ⟨_, rfl⟩ nofun
  | declareConstraintType name supertype => exact never ⟨_, rfl⟩ nofun
  | deleteNode name => exact never ⟨_, rfl⟩ nofun
  | deletePort node label => exact never ⟨_, rfl⟩ nofun
  | deleteConnection name => exact never ⟨_, rfl⟩ nofun
  | deleteConstraint name => exact never ⟨_, rfl⟩ nofun

end Edit

end FluidChip
