import FluidChip.Rule.Droplet
import FluidChip.Proofs.Statement
import FluidChip.Proofs.Unknown

/-!
# The terms of rules

Rules ask for symbols, flows and literals.  Where they get them, the terms are
those of unknowns that the schematic registers, and numbers that are finite.  A
term is over the symbols that the program declares.
-/

namespace FluidChip

open Outcome Formula Number

namespace Setting

variable {g : Setting}

variable (g) in
def term (u : Unknown) : Sexp := .symbol (g.schematic.named u)

/-! ## Terms of unknowns -/

theorem term_ok_iff {u : Unknown} {e : Sexp} :
    (do return Sexp.symbol (← g.schematic.symbolOf u)) = .ok e ↔
      g.schematic.Resolves u ∧ g.term u = e := by
  simp only [bind_ok_iff, pure_ok_iff, Schematic.symbolOf_ok_iff, term, and_assoc,
    exists_and_left, exists_eq_left']

theorem x_ok_iff {id : NodeId} {e : Sexp} :
    g.x id = .ok e ↔ g.schematic.Resolves (.node .x id) ∧ g.term (.node .x id) = e :=
  term_ok_iff (u := .node .x id)

theorem y_ok_iff {id : NodeId} {e : Sexp} :
    g.y id = .ok e ↔ g.schematic.Resolves (.node .y id) ∧ g.term (.node .y id) = e :=
  term_ok_iff (u := .node .y id)

theorem pressure_ok_iff {id : NodeId} {e : Sexp} :
    g.pressure id = .ok e ↔
      g.schematic.Resolves (.node .pressure id) ∧ g.term (.node .pressure id) = e :=
  term_ok_iff (u := .node .pressure id)

theorem portPressure_ok_iff {id : PortId} {e : Sexp} :
    g.portPressure id = .ok e ↔ g.schematic.Resolves (.port id) ∧ g.term (.port id) = e :=
  term_ok_iff (u := .port id)

theorem length_ok_iff {id : ConnectionId} {e : Sexp} :
    g.length id = .ok e ↔
      g.schematic.Resolves (.connection .length id) ∧ g.term (.connection .length id) = e :=
  term_ok_iff (u := .connection .length id)

theorem flow_ok_iff {id : ConnectionId} {e : Sexp} :
    g.flow id = .ok e ↔
      g.schematic.Resolves (.connection .flow id) ∧ g.term (.connection .flow id) = e :=
  term_ok_iff (u := .connection .flow id)

theorem resistance_ok_iff {id : ConnectionId} {e : Sexp} :
    g.resistance id = .ok e ↔ g.schematic.Resolves (.connection .resistance id) ∧
      g.term (.connection .resistance id) = e :=
  term_ok_iff (u := .connection .resistance id)

variable (g) in
def inflowTerm (port : PortId) (c : ConnectionId) : Sexp :=
  if (g.schematic.connection c).target = port then g.term (.connection .flow c)
  else product [minusOne, g.term (.connection .flow c)]

theorem inflow_ok_iff {port : PortId} {c : ConnectionId} {e : Sexp} :
    g.schematic.inflow port c = .ok e ↔
      g.schematic.Resolves (.connection .flow c) ∧ g.inflowTerm port c = e := by
  simp only [Schematic.inflow, bind_ok_iff, Schematic.connectionSymbol_ok_iff, and_assoc,
    exists_and_left, exists_eq_left', inflowTerm, term]
  split <;> simp [pure_ok_iff]

/-! ## Literals -/

theorem power_ok_iff {host : Host} {x y : Float} {n : Nat} :
    Rule.power host x n = .ok y ↔ host.power? x n = some y := by
  unfold Rule.power
  cases host.power? x n <;> simp

theorem literal_ok_iff {x : Float} {e : Sexp} :
    Rule.literal x = .ok e ↔ ∃ r : Literal, r.value = x ∧ .literal r = e := by
  rw [Rule.literal, mapError_ok_iff, Sexp.literalOf, Literal.ofFloat?]
  constructor
  · intro h
    split at h
    · rename_i found some
      obtain ⟨finite, same⟩ := Option.dite_none_right_eq_some.mp some
      cases same
      exact ⟨_, rfl, Except.ok.inj h⟩
    · cases h
  · rintro ⟨r, rfl, rfl⟩
    simp [r.finite]

theorem literalOf_ok_iff {m : Quantity.Magnitude} {e : Sexp} :
    Rule.literalOf m = .ok e ↔ ∃ r : Literal, m.toFloat = .ok r.value ∧ .literal r = e := by
  cases m with
  | int n =>
      simp only [Rule.literalOf, bind_ok_iff, Sexp.numberOf, mapError_ok_iff, literal_ok_iff]
      constructor
      · rintro ⟨_, read, r, rfl, same⟩
        exact ⟨r, read, same⟩
      · rintro ⟨r, read, same⟩
        exact ⟨_, read, r, rfl, same⟩
  | float x =>
      simp only [Rule.literalOf, literal_ok_iff, Quantity.Magnitude.toFloat,
        Except.ok.injEq, eq_comm (a := x)]

theorem fixed_ok_iff {given : Option Float} {read : Except Failure Sexp} {es : List Sexp} :
    (given.toList.mapM fun x => do
        return assert .equal (← read) (← Rule.literal x)) = .ok es ↔
      (given = none ∧ [] = es) ∨ ∃ (r : Literal) (t : Sexp), given = some r.value ∧
        read = .ok t ∧ [assert .equal t (.literal r)] = es := by
  cases given with
  | none => simp [pure_ok_iff]
  | some x =>
      simp only [Option.toList_some, List.mapM_cons, List.mapM_nil, bind_ok_iff,
        pure_ok_iff, literal_ok_iff, reduceCtorEq, false_and, false_or, Option.some.injEq]
      constructor
      · rintro ⟨_, ⟨t, ok, _, ⟨r, rfl, rfl⟩, rfl⟩, _, rfl, rfl⟩
        exact ⟨r, t, rfl, ok, rfl⟩
      · rintro ⟨r, t, rfl, ok, rfl⟩
        exact ⟨_, ⟨t, ok, _, ⟨r, rfl, rfl⟩, rfl⟩, _, rfl, rfl⟩

theorem keeps_fixed {given : Option Float} {read read' : Except Failure Sexp}
    (h : Keeps read read') :
    Keeps (given.toList.mapM fun x => do return assert .equal (← read) (← Rule.literal x))
      (given.toList.mapM fun x => do return assert .equal (← read') (← Rule.literal x)) := by
  intro es made
  rcases fixed_ok_iff.mp made with none | ⟨r, t, same, ok, made⟩
  · exact fixed_ok_iff.mpr (.inl none)
  · exact fixed_ok_iff.mpr (.inr ⟨r, t, same, h t ok, made⟩)

/-! ## Attributes -/

variable {host : Host}

theorem plainText_ok_iff {v : Value} {text : String} :
    Rule.plainText host v = .ok text ↔ host.limit? v = none ∧ v.plain = text := by
  unfold Rule.plainText
  cases host.limit? v <;> simp

theorem namedIn_ok_iff {attributes : Attributes} {constraint role name : String} :
    Rule.namedIn host attributes constraint role = .ok name ↔
      ∃ v, attributes.find? role = some v ∧ v ≠ .null ∧ host.limit? v = none ∧
        v.plain = name := by
  unfold Rule.namedIn
  split
  · simp_all
  · simp_all
  · rename_i v notNull found
    rw [plainText_ok_iff]
    constructor
    · exact fun printed => ⟨v, found, notNull, printed⟩
    · rintro ⟨v', found', -, printed⟩
      rwa [Option.some.inj (found.symm.trans found')]

theorem positive_ok_iff {attributes : Attributes} {key : String} {m : Quantity.Measure}
    {owner : String} {x : Float} :
    attributes.positive host key m owner = .ok x ↔
      attributes.quantity? host key m owner = .ok (some x) ∧ ¬ x ≤ 0.0 := by
  simp only [Attributes.positive, Attributes.quantity, bind_ok_iff]
  constructor
  · rintro ⟨y, ⟨given, found, present⟩, kept⟩
    cases given with
    | none => cases present
    | some z =>
        cases present
        split at kept
        · cases kept
        · rename_i pos
          cases kept
          exact ⟨found, pos⟩
  · rintro ⟨found, pos⟩
    exact ⟨x, ⟨some x, found, rfl⟩, if_neg pos⟩

/-- What is read under a key, whoever the owner of the attributes is. -/
def Reads (host : Host) (attributes : Attributes) (key : String) (m : Quantity.Measure)
    (given : Option Float) : Prop :=
  ∀ owner, attributes.quantity? host key m owner = .ok given

theorem reads_of_quantity? {attributes : Attributes} {key : String} {m : Quantity.Measure}
    {owner : String} {given : Option Float}
    (h : attributes.quantity? host key m owner = .ok given) :
    Reads host attributes key m given := by
  intro other
  unfold Attributes.quantity? at h ⊢
  split at h
  · exact h
  · exact h
  · split at h
    · split at h <;> cases h
    · split at h
      · rename_i finite
        cases h
        exact if_pos finite
      · cases h

theorem reads_of_positive {attributes : Attributes} {key : String} {m : Quantity.Measure}
    {owner : String} {x : Float} (h : attributes.positive host key m owner = .ok x) :
    Reads host attributes key m (some x) :=
  reads_of_quantity? (positive_ok_iff.mp h).1

/-! ## What a program declares -/

variable (g) in
/-- The unknowns that the rules declare: positions, lengths and pressures always,
the flow of a channel or of a branch of a junction, the resistance of a channel,
the droplet length of a junction. -/
inductive Declares : Unknown → Prop
  | pi : Declares .pi
  | x (id : NodeId) : Declares (.node .x id)
  | y (id : NodeId) : Declares (.node .y id)
  | pressure (id : NodeId) : Declares (.node .pressure id)
  | port (id : PortId) : Declares (.port id)
  | length (id : ConnectionId) : Declares (.connection .length id)
  | flow {name : String} {id : ConnectionId} (channel : (name, id) ∈ g.channels) :
      Declares (.connection .flow id)
  | resistance {name : String} {id : ConnectionId} (channel : (name, id) ∈ g.channels) :
      Declares (.connection .resistance id)
  | dropletLength {junction : NodeId}
      (isJunction : g.table.isJunction (g.nodeType junction) = true) :
      Declares (.node .dropletLength junction)
  | branch {junction : NodeId} (node : junction ∈ g.nodes)
      (isJunction : g.table.isJunction (g.nodeType junction) = true) {b : Rule.Branch}
      {port : PortId} {id : ConnectionId} (ok : Rule.branch g junction b = .ok (port, id)) :
      Declares (.connection .flow id)

variable (g) in
def Declared (symbol : Symbol) : Prop :=
  ∃ u, g.Declares u ∧ g.schematic.Resolves u ∧ g.schematic.named u = symbol

theorem declared_named {u : Unknown} (h : g.Declares u) (resolves : g.schematic.Resolves u) :
    g.Declared (g.schematic.named u) := ⟨u, h, resolves, rfl⟩

theorem over_term {u : Unknown} (h : g.Declares u) (resolves : g.schematic.Resolves u) :
    (g.term u).Over g.Declared := Sexp.over_symbol (declared_named h resolves)

theorem over_inflowTerm {known : Symbol → Prop} {port : PortId} {c : ConnectionId}
    (h : known (g.schematic.named (.connection .flow c))) :
    (g.inflowTerm port c).Over known := by
  have flow : (g.term (.connection .flow c)).Over known := Sexp.over_symbol h
  unfold inflowTerm
  split
  · exact flow
  · simp [flow]

variable (g) in
def declaration (u : Unknown) : Sexp := declare (g.schematic.named u)

theorem statement_declaration {u : Unknown} (h : g.Declares u)
    (resolves : g.schematic.Resolves u) : Sexp.Statement g.Declared (g.declaration u) :=
  .declaration (declared_named h resolves)

theorem statements_declarations {us : List Unknown} (declares : ∀ u ∈ us, g.Declares u)
    (resolves : ∀ u ∈ us, g.schematic.Resolves u) :
    ∀ e ∈ us.map g.declaration, Sexp.Statement g.Declared e := by
  intro e he
  obtain ⟨u, hu, rfl⟩ := List.mem_map.mp he
  exact statement_declaration (declares u hu) (resolves u hu)

end Setting

end FluidChip
