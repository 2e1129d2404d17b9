/-
  Maps made from lists: their entries are some of the list's, and an ascending list is kept as
  it is.
-/
import ProductSpec.NameMap

namespace ProductSpec

variable {α : Type}

theorem insertEntry_append {name : String} {value : α} {entries : List (String × α)}
    (above : ∀ e ∈ entries, e.1 < name) :
    insertEntry name value entries = entries ++ [(name, value)] := by
  induction entries with
  | nil => rfl
  | cons e rest ih =>
    obtain ⟨first, others⟩ := List.forall_mem_cons.1 above
    have notBelow : ¬ name < e.1 := fun h => String.lt_irrefl _ (String.lt_trans first h)
    have unlike : name ≠ e.1 := fun h => String.lt_irrefl _ (h ▸ first)
    rw [insertEntry, if_neg notBelow, if_neg unlike, ih others, List.cons_append]

theorem lookup_cons (e : String × α) (rest : List (String × α)) (name : String) :
    List.lookup name (e :: rest) = if name = e.1 then some e.2 else rest.lookup name := by
  rw [List.lookup_cons]
  by_cases same : name = e.1
  · rw [if_pos same, same, beq_self_eq_true]
  · rw [if_neg same, beq_false_of_ne same]

theorem lookup_insertEntry (name other : String) (value : α) (entries : List (String × α)) :
    (insertEntry name value entries).lookup other =
      if other = name then some value else entries.lookup other := by
  induction entries with
  | nil => exact lookup_cons (name, value) [] other
  | cons e rest ih =>
    unfold insertEntry
    split
    · exact lookup_cons (name, value) (e :: rest) other
    · split
      · next taken =>
        rw [lookup_cons, lookup_cons, ← taken]
        by_cases same : other = name
        · rw [if_pos same, if_pos same]
        · rw [if_neg same, if_neg same, if_neg same]
      · next unlike =>
        rw [lookup_cons, lookup_cons, ih]
        by_cases same : other = name
        · rw [if_pos same, if_pos same, if_neg (same ▸ unlike)]
        · rw [if_neg same, if_neg same]

theorem map_fst_insertEntry {name : String} {value : α} {entries : List (String × α)}
    (ascending : Ascending entries) (h : name ∈ entries.map Prod.fst) :
    (insertEntry name value entries).map Prod.fst = entries.map Prod.fst := by
  induction entries with
  | nil => cases h
  | cons e rest ih =>
    obtain ⟨first, ascending⟩ := List.pairwise_cons.1 ascending
    unfold insertEntry
    split
    · next below =>
      -- All names from here on are above the one that is sought.
      rcases List.mem_cons.1 h with rfl | h
      · exact absurd below (String.lt_irrefl _)
      · obtain ⟨e', mem, rfl⟩ := List.mem_map.1 h
        exact absurd (String.lt_trans below (first e' mem)) (String.lt_irrefl _)
    · split
      · next same => rw [List.map_cons, List.map_cons, ← same]
      · next unlike =>
        rw [List.map_cons, List.map_cons, ih ascending ((List.mem_cons.1 h).resolve_left unlike)]

namespace NameMap

theorem ext {m m' : NameMap α} (h : m.entries = m'.entries) : m = m' := by
  cases m
  cases m'
  cases h
  rfl

theorem mapValues_eq_self_iff {f : α → α} {m : NameMap α} :
    m.mapValues f = m ↔ ∀ e ∈ m.entries, f e.2 = e.2 := by
  have same : m.mapValues f = m ↔ m.entries.map (fun e => (e.1, f e.2)) = m.entries :=
    ⟨congrArg entries, fun same => ext same⟩
  rw [same]
  induction m.entries with
  | nil => simp
  | cons e rest ih => simp only [List.map_cons, List.cons.injEq, Prod.ext_iff, true_and, ih,
      List.forall_mem_cons]

/-- What is put into a map step by step comes from the map or from the list. -/
theorem mem_foldl_insert {entries : List (String × α)} {m : NameMap α} {e : String × α}
    (h : e ∈ (entries.foldl (fun m e => m.insert e.1 e.2) m).entries) :
    e ∈ m.entries ∨ e ∈ entries := by
  induction entries generalizing m with
  | nil => exact .inl h
  | cons first rest ih =>
    rcases ih h with h | h
    · rcases mem_insertEntry h with rfl | h
      · exact .inr List.mem_cons_self
      · exact .inl h
    · exact .inr (List.mem_cons_of_mem _ h)

theorem mem_of_mem_ofList {entries : List (String × α)} {e : String × α}
    (h : e ∈ (ofList entries).entries) : e ∈ entries :=
  (mem_foldl_insert h).resolve_left List.not_mem_nil

theorem entries_foldl_insert {entries : List (String × α)} {m : NameMap α}
    (h : Ascending (m.entries ++ entries)) :
    (entries.foldl (fun m e => m.insert e.1 e.2) m).entries = m.entries ++ entries := by
  induction entries generalizing m with
  | nil => rw [List.foldl_nil, List.append_nil]
  | cons e rest ih =>
    have above : ∀ e' ∈ m.entries, e'.1 < e.1 := fun e' mem =>
      (List.pairwise_append.1 h).2.2 e' mem e List.mem_cons_self
    have step : (m.insert e.1 e.2).entries = m.entries ++ [e] := insertEntry_append above
    rw [List.foldl_cons, ih, step, List.append_assoc, List.singleton_append]
    rwa [step, List.append_assoc, List.singleton_append]

theorem ofList_entries (m : NameMap α) : ofList m.entries = m :=
  ext (entries_foldl_insert m.ascending)

theorem get?_insert (m : NameMap α) (name other : String) (value : α) :
    (m.insert name value).get? other = if other = name then some value else m.get? other :=
  lookup_insertEntry name other value m.entries

theorem get?_foldl_insert_of_notMem {entries : List (String × α)} {m : NameMap α} {name : String}
    (h : name ∉ entries.map Prod.fst) :
    (entries.foldl (fun m e => m.insert e.1 e.2) m).get? name = m.get? name := by
  induction entries generalizing m with
  | nil => rfl
  | cons e rest ih =>
    rw [List.map_cons, List.mem_cons, not_or] at h
    rw [List.foldl_cons, ih h.2, get?_insert, if_neg h.1]

/-- Where no name occurs twice, each keeps its value. -/
theorem get?_foldl_insert_of_mem {entries : List (String × α)} {m : NameMap α} {e : String × α}
    (distinct : (entries.map Prod.fst).Nodup) (h : e ∈ entries) :
    (entries.foldl (fun m e => m.insert e.1 e.2) m).get? e.1 = some e.2 := by
  induction entries generalizing m with
  | nil => cases h
  | cons first rest ih =>
    obtain ⟨fresh, distinct⟩ := List.nodup_cons.1 distinct
    rw [List.foldl_cons]
    rcases List.mem_cons.1 h with rfl | h
    · rw [get?_foldl_insert_of_notMem fresh, get?_insert, if_pos rfl]
    · exact ih distinct h

theorem mem_of_get? {m : NameMap α} {name : String} {value : α} (h : m.get? name = some value) :
    (name, value) ∈ m.entries := by
  obtain ⟨before, after, form, -⟩ := List.lookup_eq_some_iff.1 h
  rw [form]
  exact List.mem_append_right _ List.mem_cons_self

theorem get?_eq_none {m : NameMap α} {name : String} (h : name ∉ m.names) :
    m.get? name = none := by
  refine List.lookup_eq_none_iff.2 fun e mem => ?_
  rw [bne_iff_ne]
  exact fun same => h (same ▸ List.mem_map_of_mem mem)

theorem nodup_names (m : NameMap α) : (m.entries.map Prod.fst).Nodup := by
  rw [List.Nodup, List.pairwise_map]
  refine m.ascending.imp fun {a b} below => ?_
  intro same
  rw [same] at below
  exact String.lt_irrefl _ below

theorem get?_of_mem {m : NameMap α} {e : String × α} (h : e ∈ m.entries) :
    m.get? e.1 = some e.2 := by
  have found := get?_foldl_insert_of_mem (m := empty) m.nodup_names h
  rwa [← ofList, ofList_entries] at found

theorem exists_get? {m : NameMap α} {name : String} (h : name ∈ m.names) :
    ∃ value, m.get? name = some value := by
  obtain ⟨e, mem, rfl⟩ := List.mem_map.1 h
  exact ⟨e.2, get?_of_mem mem⟩

theorem mem_names_of_get? {m : NameMap α} {name : String} {value : α}
    (h : m.get? name = some value) : name ∈ m.names :=
  List.mem_map_of_mem (mem_of_get? h)

/-- A new value for a name that is there leaves the names as they are. -/
theorem names_insert {m : NameMap α} {name : String} {value : α} (h : name ∈ m.names) :
    (m.insert name value).names = m.names :=
  map_fst_insertEntry m.ascending h

theorem names_erase (m : NameMap α) (name : String) :
    (m.erase name).names = m.names.filter (· != name) :=
  (List.filter_map (f := Prod.fst) (p := (· != name))).symm

theorem get?_erase (m : NameMap α) (name other : String) :
    (m.erase name).get? other = if other = name then none else m.get? other := by
  split
  · next same =>
    apply get?_eq_none
    intro mem
    rw [names_erase, List.mem_filter, same, bne_self_eq_false] at mem
    exact Bool.false_ne_true mem.2
  · next unlike =>
    show (m.entries.filter fun e => e.1 != name).lookup other = m.entries.lookup other
    induction m.entries with
    | nil => rfl
    | cons e rest ih =>
      rw [List.filter_cons, lookup_cons]
      split
      · rw [lookup_cons, ih]
      · next erased =>
        have here : e.1 = name := by simpa using erased
        rw [ih, if_neg (here ▸ unlike)]

end NameMap

end ProductSpec
