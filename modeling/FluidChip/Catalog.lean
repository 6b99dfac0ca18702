/-!
# Insertion-ordered maps

A catalog maps names to values and remembers the order in which the names came.
Setting a name that is present keeps its place.  No name occurs twice.
-/

namespace FluidChip

structure Catalog (α : Type) where
  entries : List (String × α)
  nodup : (entries.map Prod.fst).Nodup

namespace Catalog

variable {α : Type}

def names (c : Catalog α) : List String := c.entries.map Prod.fst

def values (c : Catalog α) : List α := c.entries.map Prod.snd

def size (c : Catalog α) : Nat := c.entries.length

def empty : Catalog α := ⟨[], .nil⟩

instance : EmptyCollection (Catalog α) := ⟨empty⟩

instance : Inhabited (Catalog α) := ⟨empty⟩

theorem eq_of_entries {c d : Catalog α} (h : c.entries = d.entries) : c = d := by
  obtain ⟨entries, _⟩ := c
  obtain ⟨_, _⟩ := d
  obtain rfl : entries = _ := h
  rfl

/-! ## Looking up -/

def lookup (name : String) : List (String × α) → Option α
  | [] => none
  | entry :: rest => if entry.1 = name then some entry.2 else lookup name rest

def find? (c : Catalog α) (name : String) : Option α := lookup name c.entries

def contains (c : Catalog α) (name : String) : Bool := c.names.contains name

theorem lookup_eq_none_iff {name : String} {entries : List (String × α)} :
    lookup name entries = none ↔ name ∉ entries.map Prod.fst := by
  induction entries with
  | nil => simp [lookup]
  | cons entry rest ih => by_cases h : entry.1 = name <;> simp_all [lookup, eq_comm]

theorem find?_eq_none_iff {c : Catalog α} {name : String} :
    c.find? name = none ↔ name ∉ c.names := lookup_eq_none_iff

theorem lookup_mem {name : String} {value : α} {entries : List (String × α)}
    (h : lookup name entries = some value) : (name, value) ∈ entries := by
  induction entries with
  | nil => simp [lookup] at h
  | cons entry rest ih =>
    by_cases e : entry.1 = name
    · subst e
      simp only [lookup, if_pos, Option.some.injEq] at h
      simp [← h]
    · simp_all [lookup]

theorem lookup_eq_some_iff {name : String} {value : α} {entries : List (String × α)}
    (nodup : (entries.map Prod.fst).Nodup) :
    lookup name entries = some value ↔ (name, value) ∈ entries := by
  refine ⟨lookup_mem, fun mem => ?_⟩
  induction entries with
  | nil => cases mem
  | cons entry rest ih =>
    obtain ⟨new, others⟩ := List.nodup_cons.mp nodup
    rcases List.mem_cons.mp mem with rfl | later
    · simp [lookup]
    · have other : entry.1 ≠ name := fun same => new (same ▸ List.mem_map_of_mem later)
      rw [lookup, if_neg other]
      exact ih others later

theorem find?_eq_some_iff {c : Catalog α} {name : String} {value : α} :
    c.find? name = some value ↔ (name, value) ∈ c.entries := lookup_eq_some_iff c.nodup

/-! ## Setting -/

/-- Replaces the value under a name, or appends the name. -/
def place (name : String) (value : α) : List (String × α) → List (String × α)
  | [] => [(name, value)]
  | entry :: rest =>
    if entry.1 = name then (name, value) :: rest else entry :: place name value rest

theorem mem_names_place {other name : String} {value : α} {entries : List (String × α)} :
    other ∈ (place name value entries).map Prod.fst ↔
      other = name ∨ other ∈ entries.map Prod.fst := by
  induction entries with
  | nil => simp [place]
  | cons entry rest ih =>
    by_cases h : entry.1 = name
    · subst h; simp [place]
    · simp only [place, h, if_false, List.map_cons, List.mem_cons, ih]
      constructor
      · rintro (h | h | h) <;> simp [h]
      · rintro (h | h | h) <;> simp [h]

theorem nodup_place {name : String} {value : α} {entries : List (String × α)}
    (nodup : (entries.map Prod.fst).Nodup) :
    ((place name value entries).map Prod.fst).Nodup := by
  induction entries with
  | nil => simp [place]
  | cons entry rest ih =>
    simp only [List.map_cons, List.nodup_cons] at nodup
    by_cases h : entry.1 = name
    · subst h; simp [place, nodup]
    · simp only [place, h, if_false, List.map_cons, List.nodup_cons, mem_names_place]
      exact ⟨by simp [nodup.1], ih nodup.2⟩

def set (c : Catalog α) (name : String) (value : α) : Catalog α :=
  ⟨place name value c.entries, nodup_place c.nodup⟩

def ofList (entries : List (String × α)) : Catalog α :=
  entries.foldl (fun c entry => c.set entry.1 entry.2) {}

theorem lookup_place_self {name : String} {value : α} {entries : List (String × α)} :
    lookup name (place name value entries) = some value := by
  induction entries with
  | nil => simp [place, lookup]
  | cons entry rest ih => by_cases h : entry.1 = name <;> simp [place, lookup, h, ih]

theorem lookup_place_of_ne {name other : String} {value : α} {entries : List (String × α)}
    (h : other ≠ name) : lookup other (place name value entries) = lookup other entries := by
  induction entries with
  | nil => simp [place, lookup, h.symm]
  | cons entry rest ih =>
    by_cases e : entry.1 = name
    · subst e; simp [place, lookup, h.symm]
    · by_cases f : entry.1 = other <;> simp_all [place, lookup]

@[simp] theorem find?_set_self {c : Catalog α} {name : String} {value : α} :
    (c.set name value).find? name = some value := lookup_place_self

theorem find?_set_of_ne {c : Catalog α} {name other : String} {value : α}
    (h : other ≠ name) : (c.set name value).find? other = c.find? other :=
  lookup_place_of_ne h

theorem place_of_notMem {name : String} {value : α} {entries : List (String × α)}
    (h : name ∉ entries.map Prod.fst) : place name value entries = entries ++ [(name, value)] := by
  induction entries with
  | nil => simp [place]
  | cons entry rest ih =>
    simp only [List.map_cons, List.mem_cons, not_or] at h
    simp [place, Ne.symm h.1, ih h.2]

theorem names_place_of_notMem {name : String} {value : α} {entries : List (String × α)}
    (h : name ∉ entries.map Prod.fst) :
    (place name value entries).map Prod.fst = entries.map Prod.fst ++ [name] := by
  simp [place_of_notMem h]

theorem names_set_of_notMem {c : Catalog α} {name : String} {value : α}
    (h : name ∉ c.names) : (c.set name value).names = c.names ++ [name] :=
  names_place_of_notMem h

theorem values_set_of_notMem {c : Catalog α} {name : String} {value : α}
    (h : name ∉ c.names) : (c.set name value).values = c.values ++ [value] := by
  simp [values, set, place_of_notMem (show name ∉ c.entries.map Prod.fst from h)]

theorem mem_values_set_of_notMem {c : Catalog α} {name : String} {value other : α}
    (h : name ∉ c.names) :
    other ∈ (c.set name value).values ↔ other ∈ c.values ∨ other = value := by
  rw [values_set_of_notMem h, List.mem_append, List.mem_singleton]

theorem nodup_values_set {c : Catalog α} {name : String} {value : α} (h : name ∉ c.names)
    (new : value ∉ c.values) (nodup : c.values.Nodup) : (c.set name value).values.Nodup := by
  rw [values_set_of_notMem h, List.nodup_append]
  refine ⟨nodup, by simp, fun a ha b hb same => ?_⟩
  exact new (List.mem_singleton.mp hb ▸ same ▸ ha)

theorem mem_names_set {c : Catalog α} {name other : String} {value : α} :
    other ∈ (c.set name value).names ↔ other = name ∨ other ∈ c.names := mem_names_place

theorem contains_eq_false_iff {c : Catalog α} {name : String} :
    c.contains name = false ↔ name ∉ c.names := by
  rw [contains, ← List.contains_iff_mem, Bool.not_eq_true]

/-! ## Setting several -/

def setAll (c : Catalog α) (entries : List (String × α)) : Catalog α :=
  entries.foldl (fun c entry => c.set entry.1 entry.2) c

theorem setAll_cons (c : Catalog α) (entry : String × α) (rest : List (String × α)) :
    c.setAll (entry :: rest) = (c.set entry.1 entry.2).setAll rest := rfl

theorem entries_setAll {c : Catalog α} {entries : List (String × α)}
    (nodup : ((c.entries ++ entries).map Prod.fst).Nodup) :
    (c.setAll entries).entries = c.entries ++ entries := by
  induction entries generalizing c with
  | nil => exact (List.append_nil _).symm
  | cons entry rest ih =>
    have new : entry.1 ∉ c.entries.map Prod.fst := by
      rw [List.map_append, List.nodup_append] at nodup
      exact fun old => nodup.2.2 _ old _ List.mem_cons_self rfl
    have placed : (c.set entry.1 entry.2).entries = c.entries ++ [entry] := place_of_notMem new
    rw [setAll_cons, ih, placed, List.append_assoc]
    · rfl
    · rwa [placed, List.append_assoc]

theorem entries_ofList {entries : List (String × α)} (nodup : (entries.map Prod.fst).Nodup) :
    (ofList entries).entries = entries := entries_setAll (c := {}) nodup

/-- What was set last under a name, of the entries and before them. -/
theorem find?_setAll {c : Catalog α} {entries : List (String × α)}
    (nodup : (entries.map Prod.fst).Nodup) (name : String) :
    (c.setAll entries).find? name = (lookup name entries).or (c.find? name) := by
  induction entries generalizing c with
  | nil => rfl
  | cons entry rest ih =>
    obtain ⟨new, others⟩ := List.nodup_cons.mp nodup
    rw [setAll_cons, ih others, lookup]
    by_cases here : entry.1 = name
    · subst here
      rw [if_pos rfl, lookup_eq_none_iff.mpr new]
      exact find?_set_self
    · rw [if_neg here, find?_set_of_ne (Ne.symm here)]

/-! ## Erasing and mapping -/

theorem nodup_filter {keep : String × α → Bool} {entries : List (String × α)}
    (nodup : (entries.map Prod.fst).Nodup) :
    ((entries.filter keep).map Prod.fst).Nodup :=
  nodup.sublist (List.filter_sublist.map _)

def erase (c : Catalog α) (name : String) : Catalog α :=
  ⟨c.entries.filter fun entry => entry.1 ≠ name, nodup_filter c.nodup⟩

theorem values_erase_sublist {c : Catalog α} {name : String} :
    (c.erase name).values.Sublist c.values := List.filter_sublist.map _

theorem erase_set_of_notMem {c : Catalog α} {name : String} {value : α} (h : name ∉ c.names) :
    (c.set name value).erase name = c := by
  obtain ⟨entries, nodup⟩ := c
  have kept : entries.filter (fun entry => entry.1 ≠ name) = entries := by
    rw [List.filter_eq_self]
    intro entry mem
    have other : entry.1 ≠ name := fun same => h (same ▸ List.mem_map_of_mem mem)
    simpa using other
  simp only [erase, set, place_of_notMem h, List.filter_append, kept, mk.injEq]
  simp

end Catalog

end FluidChip
