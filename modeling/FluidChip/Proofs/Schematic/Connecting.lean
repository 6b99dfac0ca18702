import FluidChip.Proofs.Reordering

/-!
# Channels between two nodes

The search for a channel between two nodes goes through the connections, for each of
them through the ports of the one node, and for each of those through the ports of the
other.  What it finds is the first connection that has its ends on the two nodes, so
only the order of the connections counts.  Where every end is registered on the node
that owns it, and nothing else is registered there, the owners of the ends tell as much.
-/

namespace FluidChip.Schematic

open Outcome

variable {s t : Schematic} {directed : Bool} {a b : NodeId} {c : ConnectionId}

/-! ## Connections between nodes -/

/-- A connection from a port registered on one node to a port registered on another. -/
structure Runs (s : Schematic) (a b : NodeId) (c : ConnectionId) : Prop where
  source : (s.connection c).source ∈ (s.node a).ports.values
  target : (s.connection c).target ∈ (s.node b).ports.values

theorem runs_iff : s.Runs a b c ↔ (s.connection c).source ∈ (s.node a).ports.values ∧
    (s.connection c).target ∈ (s.node b).ports.values :=
  ⟨fun h => ⟨h.source, h.target⟩, fun h => ⟨h.1, h.2⟩⟩

/-- A connection that runs from one node to another or, where the direction does not
count, back. -/
def Links (s : Schematic) (directed : Bool) (a b : NodeId) (c : ConnectionId) : Prop :=
  s.Runs a b c ∨ directed = false ∧ s.Runs b a c

/-- The same by the nodes that own the ends. -/
def Spans (s : Schematic) (directed : Bool) (a b : NodeId) (c : ConnectionId) : Prop :=
  (s.sourceNode c = a ∧ s.targetNode c = b) ∨
    directed = false ∧ s.sourceNode c = b ∧ s.targetNode c = a

instance : Decidable (s.Spans directed a b c) :=
  inferInstanceAs (Decidable ((s.sourceNode c = a ∧ s.targetNode c = b) ∨
    directed = false ∧ s.sourceNode c = b ∧ s.targetNode c = a))

theorem joins_iff {p q : PortId} : s.joins directed c p q = true ↔
    ((s.connection c).source = p ∧ (s.connection c).target = q) ∨
      directed = false ∧ (s.connection c).source = q ∧ (s.connection c).target = p := by
  simp [joins, and_assoc]

theorem exists_joins_iff : (∃ p ∈ (s.node a).ports.values, ∃ q ∈ (s.node b).ports.values,
    s.joins directed c p q = true) ↔ s.Links directed a b c := by
  simp only [joins_iff]
  constructor
  · rintro ⟨p, hp, q, hq, ⟨rfl, rfl⟩ | ⟨undirected, rfl, rfl⟩⟩
    · exact .inl ⟨hp, hq⟩
    · exact .inr ⟨undirected, hq, hp⟩
  · rintro (⟨source, target⟩ | ⟨undirected, source, target⟩)
    · exact ⟨_, source, _, target, .inl ⟨rfl, rfl⟩⟩
    · exact ⟨_, target, _, source, .inr ⟨undirected, rfl, rfl⟩⟩

theorem links_comm : s.Links false b a c ↔ s.Links false a b c := by
  simp only [Links, true_and]
  exact or_comm

theorem Links.undirected (h : s.Links true a b c) : s.Links false a b c :=
  h.imp_right fun back => ⟨rfl, back.2⟩

/-! ## The first of its kind -/

/-- What stands at a place of a list and is the first of its kind. -/
structure FirstAt {α : Type} (entries : List α) (P : α → Prop) (i : Nat) (entry : α) :
    Prop where
  here : entries[i]? = some entry
  holds : P entry
  before : ∀ j < i, ∀ other, entries[j]? = some other → ¬ P other

section

variable {α : Type} {entries : List α} {P : α → Prop} {entry : α}

theorem find?_eq_some_iff_firstAt {test : α → Bool}
    (decides : ∀ entry, test entry = true ↔ P entry) :
    entries.find? test = some entry ↔ ∃ i, FirstAt entries P i entry := by
  rw [List.find?_eq_some_iff_getElem]
  constructor
  · rintro ⟨holds, i, bound, here, before⟩
    refine ⟨i, List.getElem?_eq_some_iff.mpr ⟨bound, here⟩, (decides _).mp holds, ?_⟩
    intro j below other there kept
    obtain ⟨_, rfl⟩ := List.getElem?_eq_some_iff.mp there
    simpa [(decides _).mpr kept] using before j below
  · rintro ⟨i, here, holds, before⟩
    obtain ⟨bound, here⟩ := List.getElem?_eq_some_iff.mp here
    refine ⟨(decides _).mpr holds, i, bound, here, fun j below => ?_⟩
    have refused := before j below _ (List.getElem?_eq_getElem (by omega))
    simpa using mt (decides _).mp refused

/-- Of what holds somewhere there is a first place, there or before. -/
theorem exists_firstAt {i : Nat} (here : entries[i]? = some entry) (holds : P entry) :
    ∃ j ≤ i, ∃ first, FirstAt entries P j first := by
  induction i using Nat.strongRecOn generalizing entry with
  | ind i ih =>
      by_cases earlier : ∃ j < i, ∃ other, entries[j]? = some other ∧ P other
      · obtain ⟨j, below, other, there, holds⟩ := earlier
        obtain ⟨k, before, first⟩ := ih j below there holds
        exact ⟨k, by omega, first⟩
      · refine ⟨i, Nat.le_refl i, entry, here, holds, fun j below other there kept => ?_⟩
        exact earlier ⟨j, below, other, there, kept⟩

end

/-! ## The search -/

/-- One connection, as often as a port of the one node and a port of the other are its
ends. -/
def met (s : Schematic) (a b : NodeId) (directed : Bool) (entry : String × ConnectionId) :
    List (String × ConnectionId) :=
  (s.node a).ports.values.flatMap fun p =>
    ((s.node b).ports.values.filter fun q => s.joins directed entry.2 p q).map fun _ => entry

/-- All that the search would meet if it went on after the first. -/
def meetings (s : Schematic) (a b : NodeId) (directed : Bool) : List (String × ConnectionId) :=
  s.connections.entries.flatMap (s.met a b directed)

theorem linked_iff (entry : String × ConnectionId) :
    ((s.node a).ports.values.any fun p => (s.node b).ports.values.any fun q =>
      s.joins directed entry.2 p q) = true ↔ s.Links directed a b entry.2 := by
  simp only [List.any_eq_true]
  exact exists_joins_iff

theorem connectingChannel?_eq_some_iff {entry : String × ConnectionId} :
    s.connectingChannel? a b directed = some entry ↔
      ∃ i, FirstAt s.connections.entries (fun e => s.Links directed a b e.2) i entry :=
  find?_eq_some_iff_firstAt linked_iff

theorem connectingChannel?_eq_none_iff :
    s.connectingChannel? a b directed = none ↔
      ∀ entry ∈ s.connections.entries, ¬ s.Links directed a b entry.2 := by
  rw [connectingChannel?, List.find?_eq_none]
  exact forall₂_congr fun entry _ => not_congr (linked_iff entry)

/-- The search has the same result whenever the same connections are to be found. -/
theorem connectingChannel?_congr {a' b' : NodeId} {directed' : Bool}
    (connections : t.connections = s.connections)
    (links : ∀ c, t.Links directed' a' b' c ↔ s.Links directed a b c) :
    t.connectingChannel? a' b' directed' = s.connectingChannel? a b directed := by
  refine Option.ext fun entry => ?_
  simp only [connectingChannel?_eq_some_iff, connections, links]

theorem connectingChannel?_of_perm (connections : t.connections = s.connections)
    (ends : t.connection = s.connection)
    (ports : (t.node a).ports.values.Perm (s.node a).ports.values)
    (ports' : (t.node b).ports.values.Perm (s.node b).ports.values) :
    t.connectingChannel? a b directed = s.connectingChannel? a b directed := by
  refine connectingChannel?_congr connections fun c => ?_
  rw [Links, Links, runs_iff, runs_iff, runs_iff, runs_iff, ends, ports.mem_iff, ports.mem_iff,
    ports'.mem_iff, ports'.mem_iff]

/-! ## The order of the search -/

theorem mem_met {entry other : String × ConnectionId} :
    other ∈ s.met a b directed entry ↔ other = entry ∧ s.Links directed a b entry.2 := by
  rw [← exists_joins_iff]
  simp only [met, List.mem_flatMap, List.mem_map, List.mem_filter]
  constructor
  · rintro ⟨p, hp, q, ⟨hq, joined⟩, rfl⟩
    exact ⟨rfl, p, hp, q, hq, joined⟩
  · rintro ⟨rfl, p, hp, q, hq, joined⟩
    exact ⟨p, hp, q, ⟨hq, joined⟩, rfl⟩

theorem head?_met (entry : String × ConnectionId) :
    (s.met a b directed entry).head? = Option.guard (fun entry =>
      (s.node a).ports.values.any fun p => (s.node b).ports.values.any fun q =>
        s.joins directed entry.2 p q) entry := by
  rw [Option.guard]
  split
  · rename_i linked
    have here := mem_met.mpr ⟨rfl, (linked_iff entry).mp linked⟩
    cases shape : s.met a b directed entry with
    | nil => simp [shape] at here
    | cons first rest =>
        have mem : first ∈ s.met a b directed entry := shape ▸ List.mem_cons_self
        rw [List.head?_cons, (mem_met.mp mem).1]
  · rename_i apart
    rw [List.head?_eq_none_iff, List.eq_nil_iff_forall_not_mem]
    exact fun other mem => apart ((linked_iff entry).mpr (mem_met.mp mem).2)

/-- The search stops at the first channel that it meets. -/
theorem head?_meetings : (s.meetings a b directed).head? = s.connectingChannel? a b directed := by
  rw [meetings, List.head?_flatMap, funext head?_met, List.findSome?_guard]
  rfl

/-! ## Owners -/

/-- Every end of a connection is registered on the node that owns it. -/
def EndsRegistered (s : Schematic) : Prop :=
  ∀ c ∈ s.connections.values, (s.connection c).source ∈ (s.node (s.sourceNode c)).ports.values ∧
    (s.connection c).target ∈ (s.node (s.targetNode c)).ports.values

/-- A node has no ports but its own. -/
def HoldsOwn (s : Schematic) (n : NodeId) : Prop :=
  ∀ port ∈ (s.node n).ports.values, s.owner port = n

instance : Decidable s.EndsRegistered :=
  inferInstanceAs (Decidable (∀ c ∈ s.connections.values,
    (s.connection c).source ∈ (s.node (s.sourceNode c)).ports.values ∧
      (s.connection c).target ∈ (s.node (s.targetNode c)).ports.values))

instance : Decidable (s.HoldsOwn a) :=
  inferInstanceAs (Decidable (∀ port ∈ (s.node a).ports.values, s.owner port = a))

theorem runs_iff_owners (ends : s.EndsRegistered) (own : s.HoldsOwn a) (own' : s.HoldsOwn b)
    (hc : c ∈ s.connections.values) :
    s.Runs a b c ↔ s.sourceNode c = a ∧ s.targetNode c = b := by
  obtain ⟨source, target⟩ := ends c hc
  constructor
  · rintro ⟨hsource, htarget⟩
    exact ⟨own _ hsource, own' _ htarget⟩
  · rintro ⟨rfl, rfl⟩
    exact ⟨source, target⟩

theorem links_iff_spans (ends : s.EndsRegistered) (own : s.HoldsOwn a) (own' : s.HoldsOwn b)
    (hc : c ∈ s.connections.values) : s.Links directed a b c ↔ s.Spans directed a b c := by
  rw [Links, Spans, runs_iff_owners ends own own' hc, runs_iff_owners ends own' own hc]

theorem connectingChannel?_eq_owners (ends : s.EndsRegistered) (own : s.HoldsOwn a)
    (own' : s.HoldsOwn b) : s.connectingChannel? a b directed =
      s.connections.entries.find? fun entry => s.Spans directed a b entry.2 := by
  rw [connectingChannel?, ← List.head?_filter, ← List.head?_filter]
  refine congrArg List.head? (List.filter_congr fun entry mem => ?_)
  have hc : entry.2 ∈ s.connections.values := List.mem_map_of_mem mem
  rw [Bool.eq_iff_iff, linked_iff, decide_eq_true_iff]
  exact links_iff_spans ends own own' hc

/-! ## What is found -/

/-- The search finds the first connection, in the order of the schematic, with its ends on
the two nodes, and nothing just when there is none. -/
theorem connectingChannel_first (s : Schematic) (a b : NodeId) :
    (∀ directed, s.connectingChannel? a b directed = (s.meetings a b directed).head? ∧
      (∀ entry, s.connectingChannel? a b directed = some entry ↔
        ∃ i, FirstAt s.connections.entries (fun e => s.Links directed a b e.2) i entry) ∧
      (s.connectingChannel? a b directed = none ↔
        ∀ entry ∈ s.connections.entries, ¬ s.Links directed a b entry.2) ∧
      (∀ t : Schematic, t.connections = s.connections → t.connection = s.connection →
        (t.node a).ports.values.Perm (s.node a).ports.values →
        (t.node b).ports.values.Perm (s.node b).ports.values →
        t.connectingChannel? a b directed = s.connectingChannel? a b directed) ∧
      (s.EndsRegistered → s.HoldsOwn a → s.HoldsOwn b → s.connectingChannel? a b directed =
        s.connections.entries.find? fun entry => s.Spans directed a b entry.2)) ∧
    s.connectingChannel? b a false = s.connectingChannel? a b false ∧
    ∀ i entry, FirstAt s.connections.entries (fun e => s.Links true a b e.2) i entry →
      ∃ j ≤ i, ∃ first, FirstAt s.connections.entries (fun e => s.Links false a b e.2) j first ∧
        s.connectingChannel? a b false = some first := by
  refine ⟨fun directed => ⟨head?_meetings.symm, fun entry => connectingChannel?_eq_some_iff,
    connectingChannel?_eq_none_iff, fun t => connectingChannel?_of_perm,
    connectingChannel?_eq_owners⟩, ?_, ?_⟩
  · exact connectingChannel?_congr rfl fun c => links_comm
  · intro i entry first
    have linked : s.Links false a b entry.2 := first.holds.undirected
    obtain ⟨j, before, other, first'⟩ := exists_firstAt
      (P := fun e => s.Links false a b e.2) first.here linked
    exact ⟨j, before, other, first', connectingChannel?_eq_some_iff.mpr ⟨j, first'⟩⟩

/-- Two nodes with a channel each way between them, and one of them with a channel to
itself. -/
def shuttle : Except Failure Schematic := do
  let s ← (empty "shuttle").addNode "left" "channelCrossing" ["p", "q"]
  let s ← s.addNode "right" "channelCrossing" ["p", "q"]
  let s ← s.addConnection "loop" (← s.getPort "left" "p") (← s.getPort "left" "q")
  let s ← s.addConnection "back" (← s.getPort "right" "p") (← s.getPort "left" "q")
  s.addConnection "forth" (← s.getPort "left" "p") (← s.getPort "right" "p")

/-- The same schematic with the ports of every node in reverse order. -/
def reversedPorts (s : Schematic) : Schematic :=
  { s with node := fun n => { s.node n with ports := (s.node n).ports.reversed id } }

/-- From the left to the right node runs the last channel; the one that runs back comes
before it and is found where the direction does not count. -/
theorem shuttle_found : ∃ (s : Schematic) (left right : NodeId)
    (back forth : String × ConnectionId), shuttle = .ok s ∧ back.1 = "back" ∧
      forth.1 = "forth" ∧ s.EndsRegistered ∧ s.HoldsOwn left ∧ s.HoldsOwn right ∧
      s.connectingChannel? left right true = some forth ∧
      (∃ i, FirstAt s.connections.entries (fun e => s.Links true left right e.2) i forth ∧
        ∃ j ≤ i, FirstAt s.connections.entries (fun e => s.Links false left right e.2) j back) ∧
      s.connectingChannel? right left false = some back ∧
      s.reversedPorts.connectingChannel? left right false = some back ∧
      (s.connections.entries.find? fun e => s.Spans false left right e.2) = some back := by
  have checked : (shuttle.toOption.bind fun s => (s.getNode "left").toOption.bind fun left =>
      (s.getNode "right").toOption.bind fun right =>
      (s.connectingChannel? left right false).bind fun back =>
      (s.connectingChannel? left right true).filter fun forth =>
        back.1 = "back" ∧ forth.1 = "forth" ∧ s.EndsRegistered ∧ s.HoldsOwn left ∧
          s.HoldsOwn right).isSome = true := by
    decide +kernel
  obtain ⟨forth, checked⟩ := Option.isSome_iff_exists.mp checked
  simp only [Option.bind_eq_some_iff, Option.filter_eq_some_iff, toOption_eq_some_iff,
    decide_eq_true_eq] at checked
  obtain ⟨s, built, left, -, right, -, back, found, found', named, named', ends, own, own'⟩ :=
    checked
  obtain ⟨search, turned, earlier⟩ := connectingChannel_first s left right
  obtain ⟨-, -, -, reordered, owners⟩ := search false
  obtain ⟨i, first⟩ := ((search true).2.1 forth).mp found'
  obtain ⟨j, before, other, first', same⟩ := earlier i forth first
  obtain rfl : other = back := Option.some.inj (same.symm.trans found)
  have ports (n : NodeId) :
      (s.reversedPorts.node n).ports.values.Perm (s.node n).ports.values :=
    (s.node n).ports.reversed_perm.symm.map Prod.snd
  exact ⟨s, left, right, other, forth, built, named, named', ends, own, own', found',
    ⟨i, first, j, before, first'⟩, turned.trans found,
    (reordered s.reversedPorts rfl rfl (ports left) (ports right)).trans found,
    (owners ends own own').symm.trans found⟩

end FluidChip.Schematic
