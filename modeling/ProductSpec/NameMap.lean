/-
  Finite maps from names, kept in the order of the names. Names are ordered character by
  character, by code point.
-/

namespace ProductSpec

/-- A list of entries whose names ascend. -/
def Ascending {α : Type} (entries : List (String × α)) : Prop :=
  entries.Pairwise fun a b => a.1 < b.1

/-- Puts an entry where its name belongs; the value of a name already there is replaced. -/
def insertEntry {α : Type} (name : String) (value : α) :
    List (String × α) → List (String × α)
  | [] => [(name, value)]
  | (other, kept) :: rest =>
    if name < other then (name, value) :: (other, kept) :: rest
    else if name = other then (name, value) :: rest
    else (other, kept) :: insertEntry name value rest

theorem mem_insertEntry {α : Type} {name : String} {value : α} {entries : List (String × α)}
    {e : String × α} (h : e ∈ insertEntry name value entries) :
    e = (name, value) ∨ e ∈ entries := by
  induction entries with
  | nil => simpa [insertEntry] using h
  | cons head rest ih =>
    obtain ⟨other, kept⟩ := head
    unfold insertEntry at h
    split at h
    · simpa using h
    · split at h
      · rcases List.mem_cons.1 h with rfl | h
        · exact .inl rfl
        · exact .inr (List.mem_cons_of_mem _ h)
      · rcases List.mem_cons.1 h with rfl | h
        · exact .inr List.mem_cons_self
        · exact (ih h).imp_right (List.mem_cons_of_mem _)

theorem ascending_insertEntry {α : Type} {name : String} {value : α}
    {entries : List (String × α)} (h : Ascending entries) :
    Ascending (insertEntry name value entries) := by
  induction entries with
  | nil => exact List.pairwise_singleton ..
  | cons head rest ih =>
    obtain ⟨other, kept⟩ := head
    obtain ⟨first, others⟩ := List.pairwise_cons.1 h
    unfold insertEntry
    split
    · next below =>
      refine List.pairwise_cons.2 ⟨fun e he => ?_, h⟩
      rcases List.mem_cons.1 he with rfl | he
      · exact below
      · exact String.lt_trans below (first e he)
    · split
      · next same => exact List.pairwise_cons.2 ⟨fun e he => same ▸ first e he, others⟩
      · next notBelow notSame =>
        refine List.pairwise_cons.2 ⟨fun e he => ?_, ih others⟩
        rcases mem_insertEntry he with rfl | he
        · exact String.not_le.1 fun le => notSame (String.le_antisymm le (String.not_lt.1 notBelow))
        · exact first e he

/-- A map from names; each name has one entry. -/
structure NameMap (α : Type) where
  entries : List (String × α)
  ascending : Ascending entries

namespace NameMap

variable {α β : Type}

instance [DecidableEq α] : DecidableEq (NameMap α) := fun a b =>
  decidable_of_iff (a.entries = b.entries)
    ⟨fun h => by cases a; cases b; cases h; rfl, fun h => h ▸ rfl⟩

def empty : NameMap α := ⟨[], .nil⟩

instance : EmptyCollection (NameMap α) := ⟨empty⟩

instance : Inhabited (NameMap α) := ⟨empty⟩

def insert (m : NameMap α) (name : String) (value : α) : NameMap α :=
  ⟨insertEntry name value m.entries, ascending_insertEntry m.ascending⟩

/-- Of two entries with one name the later one counts. -/
def ofList (entries : List (String × α)) : NameMap α :=
  entries.foldl (fun m e => m.insert e.1 e.2) empty

def toList (m : NameMap α) : List (String × α) := m.entries

def names (m : NameMap α) : List String := m.entries.map (·.1)

def values (m : NameMap α) : List α := m.entries.map (·.2)

def size (m : NameMap α) : Nat := m.entries.length

def get? (m : NameMap α) (name : String) : Option α := m.entries.lookup name

def contains (m : NameMap α) (name : String) : Bool := (m.get? name).isSome

def erase (m : NameMap α) (name : String) : NameMap α :=
  ⟨m.entries.filter fun e => e.1 != name, m.ascending.filter _⟩

def mapValues (m : NameMap α) (f : α → β) : NameMap β :=
  ⟨m.entries.map fun e => (e.1, f e.2), by
    simpa [Ascending, List.pairwise_map] using m.ascending⟩

end NameMap

end ProductSpec
