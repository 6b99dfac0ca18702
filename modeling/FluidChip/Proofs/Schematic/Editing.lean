import FluidChip.Proofs.Schematic.Edit

/-!
# Editing schematics

A schematic is changed in memory, and what a call has done before it fails stays done.  A
node gets its name last, so a call that is refused leaves behind at most a node that no name
leads to.  Whatever calls are made, refused ones among them, a port is registered once, on
its owner, and whatever a name leads to leads back to the name.
-/

namespace FluidChip

open Outcome Schematic

variable {s t made : Schematic} {name label typeName : String} {labels : List String}
  {attributes : Attributes} {node : NodeId} {failure : Failure}

/-! ## Calls in memory -/

namespace Schematic

/-- A call that changes a schematic in memory and may fail on the way. -/
abbrev InMemory := EStateM Failure Schematic Unit

/-- What is in memory when a call has ended, in one way or the other. -/
def remains : EStateM.Result Failure Schematic Unit → Schematic
  | .ok _ t => t
  | .error _ t => t

/-- A call that looks whether it may be made before it changes anything. -/
def checked (change : Schematic → Except Failure Schematic) : InMemory := fun s =>
  match change s with
  | .ok made => .ok () made
  | .error failure => .error failure s

def portsInMemory (node : NodeId) : List String → InMemory
  | [] => pure ()
  | label :: rest => do
    checked (·.addPort node label)
    portsInMemory node rest

/-- A node is added in steps: first the node itself, then one port after another, its name
last. -/
def nodeInMemory (name typeName : String) (labels : List String) (attributes : Attributes) :
    InMemory := do
  let s ← get
  if s.nodes.contains name then throw (.duplicate (.node s.name name))
  else
    set (s.withNode typeName attributes)
    portsInMemory ⟨s.next⟩ labels
    modify fun made => { made with nodes := made.nodes.set name ⟨s.next⟩ }

end Schematic

/-- The call as it is made in memory. -/
def Edit.call : Edit → InMemory
  | addNode name typeName labels attributes => nodeInMemory name typeName labels attributes
  | e => checked e.apply

namespace Schematic

/-- What is in memory after several calls, whether or not some of them were refused. -/
def edited (s : Schematic) (edits : List Edit) : Schematic :=
  edits.foldl (fun s e => remains (e.call.run s)) s

/-- All that a schematic holds and all that stands behind the identities given out is as it
was. -/
structure Unchanged (s t : Schematic) : Prop where
  held : t = { s with node := t.node, owner := t.owner, next := t.next }
  node : ∀ id : NodeId, id.index < s.next → t.node id = s.node id
  owner : ∀ port : PortId, port.index < s.next → t.owner port = s.owner port
  next : s.next ≤ t.next

theorem Unchanged.refl (s : Schematic) : s.Unchanged s :=
  ⟨rfl, fun _ _ => rfl, fun _ _ => rfl, Nat.le_refl _⟩

theorem Unchanged.withNode (s : Schematic) (typeName : String) (attributes : Attributes) :
    s.Unchanged (s.withNode typeName attributes) := by
  constructor
  case held => rfl
  case node =>
    intro id below
    have other : id ≠ ⟨s.next⟩ := by
      rintro rfl
      exact Nat.lt_irrefl _ below
    simp [Schematic.withNode, setNode, other]
  case owner => exact fun _ _ => rfl
  case next => exact Nat.le_succ _

/-- A port added to a node that was made since changes nothing made before. -/
theorem Unchanged.addPort (u : s.Unchanged made) (since : s.next ≤ node.index)
    (h : made.addPort node label = .ok t) : s.Unchanged t := by
  obtain ⟨-, rfl⟩ := addPort_ok h
  constructor
  case held =>
    rw [u.held]
    rfl
  case node =>
    intro id below
    have other : id ≠ node := by
      rintro rfl
      omega
    simp [registerPort, setNode, newPort, other, u.node id below]
  case owner =>
    intro port below
    have later := u.next
    have other : port ≠ ⟨made.next⟩ := by
      rintro rfl
      simp at below
      omega
    simp [registerPort, setNode, newPort, other, u.owner port below]
  case next => exact Nat.le_succ_of_le u.next

/-! ## Calls end as the changes do -/

/-- A call ends with what a change makes, or with its failure and something left behind. -/
inductive Performs (Left : Schematic → Prop) :
    Except Failure Schematic → EStateM.Result Failure Schematic Unit → Prop
  | made (t : Schematic) : Performs Left (.ok t) (.ok () t)
  | refused (failure : Failure) {t : Schematic} (left : Left t) :
      Performs Left (.error failure) (.error failure t)

theorem performs_checked {Left : Schematic → Prop} {change : Schematic → Except Failure Schematic}
    (left : Left s) : Performs Left (change s) ((checked change).run s) := by
  cases outcome : change s with
  | ok t =>
      simp only [checked, EStateM.run, outcome]
      exact .made t
  | error failure =>
      simp only [checked, EStateM.run, outcome]
      exact .refused failure left

theorem Performs.bind {Left : Schematic → Prop} {change : Except Failure Schematic}
    {following : Schematic → Except Failure Schematic} {call next : InMemory}
    (first : Performs Left change (call.run s))
    (later : ∀ t, change = .ok t → Performs Left (following t) (next.run t)) :
    Performs Left (change >>= following) ((call >>= fun _ => next).run s) := by
  rw [EStateM.run_bind]
  cases ended : call.run s with
  | ok _ t =>
      rw [ended] at first
      cases first
      exact later t rfl
  | error failure t =>
      rw [ended] at first
      cases first with
      | refused _ left => exact .refused failure left

/-- What every port keeps is kept by those before the one that is refused. -/
theorem performs_ports {Left : Schematic → Prop} (each : ∀ {label s t},
    s.addPort node label = .ok t → Left s → Left t) (start : Left s) :
    Performs Left (s.addPorts node labels) ((portsInMemory node labels).run s) := by
  induction labels generalizing s with
  | nil => exact .made s
  | cons label rest ih =>
      apply Performs.bind (performs_checked start)
      intro t step
      exact ih (each step start)

theorem performs_node (s : Schematic) (name typeName : String) (labels : List String)
    (attributes : Attributes) :
    Performs (fun t => s.Unchanged t ∧ (s.WellFormed → t.WellFormed))
      (s.addNode name typeName labels attributes)
      ((nodeInMemory name typeName labels attributes).run s) := by
  rw [nodeInMemory, EStateM.run_bind, EStateM.run_get]
  by_cases taken : name ∈ s.nodes.names
  · have here : s.nodes.contains name = true := by simpa [Catalog.contains] using taken
    simp only [here, if_true, EStateM.run_throw]
    rw [addNode_of_mem taken]
    exact .refused _ ⟨.refl s, id⟩
  · have new : s.nodes.contains name = false := Catalog.contains_eq_false_iff.mpr taken
    simp only [new, Bool.false_eq_true, if_false]
    rw [EStateM.run_bind, EStateM.run_set, addNode_of_notMem taken]
    apply Performs.bind
    -- The node that gets the ports is newer than all that was made before.
    · apply performs_ports
      · rintro label made t step ⟨unchanged, formed⟩
        exact ⟨unchanged.addPort (Nat.le_refl _) step, fun w => (formed w).addPort step⟩
      · exact ⟨.withNode s typeName attributes, fun w => w.withNode typeName attributes⟩
    · intro t _
      exact .made _

/-- A call ends as the change does.  If it is refused, nothing has changed. -/
theorem performs_call (e : Edit) (s : Schematic) :
    Performs (fun t => s.Unchanged t ∧ (s.WellFormed → t.WellFormed)) (e.apply s)
      (e.call.run s) := by
  cases e with
  | addNode name typeName ports attributes => exact performs_node s name typeName ports attributes
  | _ => exact performs_checked ⟨.refl s, id⟩

/-! ## Well-formed schematics -/

/-- Taking away keeps a schematic well formed. -/
theorem WellFormed.of_sublist (w : s.WellFormed) (nodes : t.nodes.values.Sublist s.nodes.values)
    (connections : t.connections.values.Sublist s.connections.values)
    (ports : ∀ id, (t.node id).ports.values.Sublist (s.node id).ports.values)
    (owner : t.owner = s.owner) (next : t.next = s.next) : t.WellFormed := by
  constructor
  case nodesBelow => exact fun id mem => next ▸ w.nodesBelow id (nodes.subset mem)
  case nodesDistinct => exact w.nodesDistinct.sublist nodes
  case connectionsBelow => exact fun c mem => next ▸ w.connectionsBelow c (connections.subset mem)
  case connectionsDistinct => exact w.connectionsDistinct.sublist connections
  case portsOwned =>
    intro id port mem
    rw [owner, next]
    exact w.portsOwned id port ((ports id).subset mem)
  case portsDistinct => exact fun id => (w.portsDistinct id).sublist (ports id)

theorem ports_deletePort_sublist (node : NodeId) (label : String) (id : NodeId) :
    ((s.deletePort node label).node id).ports.values.Sublist (s.node id).ports.values := by
  by_cases here : id = node
  · subst here
    simp only [deletePort, setNode, if_true]
    exact Catalog.values_erase_sublist
  · simp [deletePort, setNode, here]

theorem WellFormed.apply (w : s.WellFormed) {e : Edit} (h : e.apply s = .ok t) : t.WellFormed := by
  cases e with
  | addNode name typeName ports attributes => exact w.addNode h
  | addPort node label => exact w.addPort h
  | addConnection name source target typeName attributes => exact w.addConnection h
  | addConstraint name typeName attributes => exact w.addConstraint h
  | deleteNode name =>
      cases h
      exact w.of_sublist Catalog.values_erase_sublist (.refl _) (fun _ => .refl _) rfl rfl
  | deleteConnection name =>
      cases h
      exact w.of_sublist (.refl _) Catalog.values_erase_sublist (fun _ => .refl _) rfl rfl
  | deletePort node label =>
      cases h
      exact w.of_sublist (.refl _) (.refl _) (ports_deletePort_sublist node label) rfl rfl
  | _ =>
      cases h
      exact w.of_sublist (.refl _) (.refl _) (fun _ => .refl _) rfl rfl

/-- A call keeps a schematic well formed, even where it is refused. -/
theorem WellFormed.call (w : s.WellFormed) (e : Edit) :
    (remains (e.call.run s)).WellFormed := by
  have ends := performs_call e s
  generalize change : e.apply s = outcome at ends
  generalize e.call.run s = result at ends ⊢
  cases ends with
  | made t => exact w.apply change
  | refused failure left => exact left.2 w

theorem WellFormed.edited (w : s.WellFormed) (edits : List Edit) : (s.edited edits).WellFormed := by
  induction edits generalizing s with
  | nil => exact w
  | cons e rest ih => exact ih (w.call e)

/-! ## Names and what they lead to -/

/-- Every port is registered once, on its owner, and every entity has the name that leads to
it. -/
structure Traceable (s : Schematic) : Prop where
  formed : s.WellFormed
  owner : ∀ id, ∀ port ∈ (s.node id).ports.values, s.owner port = id
  once : ∀ port id id' label label', (label, port) ∈ (s.node id).ports.entries →
    (label', port) ∈ (s.node id').ports.entries → id = id' ∧ label = label'
  node : ∀ name id, s.nodeName id = .ok name ↔ s.getNode name = .ok id
  connection : ∀ name c, s.connectionName c = .ok name ↔ s.connections.find? name = some c
  port : ∀ node label port, s.nodeName (s.owner port) = .ok node ∧ s.portName port = .ok label ↔
    s.getPort node label = .ok port
  label : ∀ id label port, s.owner port = id ∧ s.portName port = .ok label ↔
    (s.node id).ports.find? label = some port

theorem WellFormed.nodeName_ok_iff (w : s.WellFormed) {id : NodeId} :
    s.nodeName id = .ok name ↔ s.getNode name = .ok id := by
  rw [Schematic.nodeName_ok_iff, nameOf?_eq_some_iff w.nodesDistinct, getNode_ok_iff]

theorem WellFormed.connectionName_ok_iff (w : s.WellFormed) {c : ConnectionId} :
    s.connectionName c = .ok name ↔ s.connections.find? name = some c := by
  rw [Schematic.connectionName_ok_iff, nameOf?_eq_some_iff w.connectionsDistinct,
    Catalog.find?_eq_some_iff]

/-- This holds of nodes that have left the schematic, too. -/
theorem WellFormed.portName_ok_iff (w : s.WellFormed) {id : NodeId} {port : PortId} :
    s.owner port = id ∧ s.portName port = .ok label ↔
      (s.node id).ports.find? label = some port := by
  rw [Schematic.portName_ok_iff, nameOf?_eq_some_iff (w.portsDistinct _),
    Catalog.find?_eq_some_iff]
  constructor
  · rintro ⟨rfl, mem⟩
    exact mem
  · intro mem
    have owned := (w.portsOwned id port (List.mem_map_of_mem mem)).2
    subst owned
    exact ⟨rfl, mem⟩

theorem WellFormed.getPort_ok_iff (w : s.WellFormed) {node : String} {port : PortId} :
    s.nodeName (s.owner port) = .ok node ∧ s.portName port = .ok label ↔
      s.getPort node label = .ok port := by
  simp only [Schematic.getPort_ok_iff, ← getNode_ok_iff, ← w.nodeName_ok_iff, ← w.portName_ok_iff]
  constructor
  · rintro ⟨named, labelled⟩
    exact ⟨_, named, rfl, labelled⟩
  · rintro ⟨id, named, rfl, labelled⟩
    exact ⟨named, labelled⟩

theorem WellFormed.traceable (w : s.WellFormed) : s.Traceable where
  formed := w
  owner := fun id port mem => (w.portsOwned id port mem).2
  once := fun _ _ _ _ _ => w.registered_once
  node := fun _ _ => w.nodeName_ok_iff
  connection := fun _ _ => w.connectionName_ok_iff
  port := fun _ _ _ => w.getPort_ok_iff
  label := fun _ _ _ => w.portName_ok_iff

end Schematic

/-! ## Calls that are made whole or not at all -/

/-- A call does what the change does, or it is refused, just for what is there already, and
leaves all as it was. -/
structure Edit.Atomic (e : Edit) (s : Schematic) : Prop where
  made : ∀ t, e.call.run s = .ok () t ↔ e.apply s = .ok t
  refused : ∀ failure, (∃ t, e.call.run s = .error failure t) ↔
    ∃ fault, e.Clashes s fault ∧ failure = .duplicate fault
  unchanged : ∀ failure t, e.call.run s = .error failure t →
    failure.kind = "ValueError" ∧ s.Unchanged t

theorem Edit.atomic (e : Edit) (s : Schematic) : e.Atomic s := by
  have ends := performs_call e s
  have refusals (failure : Failure) : e.apply s = .error failure ↔
      ∃ fault, e.Clashes s fault ∧ failure = .duplicate fault := apply_error_iff
  generalize change : e.apply s = outcome at ends refusals
  generalize ended : e.call.run s = result at ends
  cases ends with
  | made t =>
      constructor
      case made => simp [change, ended]
      case refused => simp [ended, ← refusals]
      case unchanged => simp [ended]
  | refused failure left =>
      constructor
      case made => simp [change, ended]
      case refused => simp [ended, ← refusals]
      case unchanged =>
        rw [ended]
        rintro _ _ ⟨⟩
        obtain ⟨fault, -, rfl⟩ := (refusals failure).mp rfl
        exact ⟨rfl, left.1⟩

namespace Schematic

/-- Whatever calls have been made on an empty schematic, refused ones among them, its
entities go by the names that lead to them, and one more call is made whole or not at
all. -/
theorem edited_traceable (name : String) (edits : List Edit) :
    ((empty name).edited edits).Traceable ∧
      ∀ e : Edit, e.Atomic ((empty name).edited edits) := by
  constructor
  · apply WellFormed.traceable
    exact (wellFormed_empty name).edited edits
  · intro e
    exact e.atomic _

/-- A node is refused at its third port and added without it, one gives its name to
another, and what has left the schematic gets a port. -/
def rebuilt : Schematic := (empty "chip").edited [
  .addNode "a" "channelCrossing" ["p", "q"] {},
  .addNode "b" "channelCrossing" ["x", "y", "x"] {},
  .addNode "b" "channelCrossing" ["x"] {},
  .addConnection "c" ⟨1⟩ ⟨7⟩ "channel" {},
  .deleteNode "a",
  .addPort ⟨0⟩ "r",
  .addNode "a" "channelCrossing" ["p"] {},
  .deletePort ⟨10⟩ "p",
  .addPort ⟨10⟩ "p"]

theorem rebuilt_traceable :
    (rebuilt.getPort "a" "p" = .ok ⟨12⟩ ∧ rebuilt.nodeName (rebuilt.owner ⟨12⟩) = .ok "a" ∧
      rebuilt.portName ⟨12⟩ = .ok "p") ∧
    (⟨0⟩ ∉ rebuilt.nodes.values ∧ rebuilt.owner ⟨9⟩ = ⟨0⟩ ∧ rebuilt.portName ⟨9⟩ = .ok "r") ∧
    ∃ t, (Edit.addNode "d" "tJunction" ["x", "y", "x"] {}).call.run rebuilt =
      .error (.duplicate (.port "x")) t ∧ rebuilt.Unchanged t := by
  obtain ⟨traceable, atomic⟩ : rebuilt.Traceable ∧ ∀ e : Edit, e.Atomic rebuilt :=
    edited_traceable "chip" _
  have found : rebuilt.getPort "a" "p" = .ok ⟨12⟩ := by
    rw [← toOption_eq_some_iff]
    decide +kernel
  have kept : (rebuilt.node ⟨0⟩).ports.find? "r" = some ⟨9⟩ := by decide +kernel
  refine ⟨⟨found, (traceable.port "a" "p" ⟨12⟩).mpr found⟩,
    ⟨by decide +kernel, (traceable.label ⟨0⟩ "r" ⟨9⟩).mpr kept⟩, ?_⟩
  have call := atomic (.addNode "d" "tJunction" ["x", "y", "x"] {})
  have again : Edit.FirstAgain ["x", "y", "x"] "x" := ⟨["x", "y"], [], rfl, by decide, by decide⟩
  obtain ⟨t, ended⟩ := (call.refused _).mpr ⟨_, .ports (by decide +kernel) again, rfl⟩
  exact ⟨t, ended, (call.unchanged _ t ended).2⟩

end Schematic

end FluidChip
