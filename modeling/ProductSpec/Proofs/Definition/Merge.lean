/-
  What two layers of attributes merge to, said without the merging: every default under its own
  name with the value of the product if it has one, then what only the product has. A key that is
  no name is the only fault. Both are told by the entries of the layers alone at the end.
-/
import ProductSpec.Definition.Merge
import Mathlib.Data.List.Nodup

namespace ProductSpec

open Yaml

namespace AttributeLayer

/-- The keys that are no names. -/
def strangeKeys (l : AttributeLayer) : List Value :=
  (l.entries.map Prod.fst).filter fun k => (name? k).isNone

/-- The entries under their names. -/
def namedEntries (l : AttributeLayer) : List (String × Value) :=
  l.entries.filterMap fun e => (name? e.1).map fun name => (name, e.2)

def names (l : AttributeLayer) : List String := l.namedEntries.map Prod.fst

/-- The values that count: those of the product go before the defaults, and null is none. -/
def merged (defaults product : AttributeLayer) : List (String × Value) :=
  ((defaults.namedEntries.map fun e => (e.1, (product.namedEntries.lookup e.1).getD e.2)) ++
    product.namedEntries.filter fun e => e.1 ∉ defaults.names).filter fun e => !isNull e.2

theorem name?_eq_some {v : Value} {name : String} :
    name? v = some name ↔ v = .text name ∧ name ≠ "" := by
  cases v with
  | text s =>
    by_cases empty : s = ""
    · subst empty
      constructor
      · intro h
        cases h
      · rintro ⟨same, filled⟩
        exact absurd (Value.text.inj same).symm filled
    · simp only [name?, if_neg empty, Option.some.injEq, Value.text.injEq]
      exact ⟨fun same => ⟨same, same ▸ empty⟩, And.left⟩
  | _ => simp [name?]

theorem ne_empty_of_mem_names {l : AttributeLayer} {name : String} (h : name ∈ l.names) :
    name ≠ "" := by
  simp only [names, namedEntries, List.mem_map, List.mem_filterMap, Option.map_eq_some_iff] at h
  obtain ⟨e, ⟨entry, -, found, isName, rfl⟩, rfl⟩ := h
  exact (name?_eq_some.1 isName).2

/-- Different keys give different names. -/
theorem nodup_names (l : AttributeLayer) : l.names.Nodup := by
  rw [names, namedEntries, List.map_filterMap, List.Nodup, List.pairwise_filterMap]
  refine l.distinct.imp fun {a b} unlike name hName other hOther => ?_
  simp only [Option.map_map, Option.map_eq_some_iff, Function.comp_apply] at hName hOther
  obtain ⟨name, isName, rfl⟩ := hName
  obtain ⟨other, isOther, rfl⟩ := hOther
  rintro rfl
  rw [(name?_eq_some.1 isName).1, (name?_eq_some.1 isOther).1] at unlike
  simp [Value.same] at unlike

/-- The first key that is no name is the error. -/
theorem named_eq (path : NodePath) (l : AttributeLayer) :
    named path l.entries =
      match l.strangeKeys with
      | [] => .ok l.namedEntries
      | k :: _ => .error ⟨path ++ ["attributes"], .attributeName k⟩ := by
  simp only [strangeKeys, namedEntries]
  induction l.entries with
  | nil => rfl
  | cons e rest ih =>
    obtain ⟨k, v⟩ := e
    cases isName : name? k with
    | none => simp [named, isName]
    | some name =>
      simp only [named, isName, ih, List.map_cons, List.filter_cons, Option.isNone_some,
        Bool.false_eq_true, if_false, List.filterMap_cons, Option.map_some]
      split <;> rfl

theorem map_fst_override (name : String) (value : Value) (entries : List (String × Value)) :
    (override name value entries).map Prod.fst =
      if name ∈ entries.map Prod.fst then entries.map Prod.fst
      else entries.map Prod.fst ++ [name] := by
  induction entries with
  | nil => rfl
  | cons e rest ih =>
    obtain ⟨other, kept⟩ := e
    unfold override
    split
    · next same => simp [same]
    · next unlike =>
      simp only [List.map_cons, ih, List.mem_cons, Ne.symm unlike, false_or]
      split <;> rfl

theorem ne_of_notMem {name : String} {entries : List (String × Value)}
    (h : name ∉ entries.map Prod.fst) {e : String × Value} (mem : e ∈ entries) : e.1 ≠ name :=
  fun same => h (same ▸ List.mem_map_of_mem (f := Prod.fst) mem)

/-- Putting an entry among entries with different names. -/
theorem override_eq {name : String} {value : Value} {entries : List (String × Value)}
    (distinct : (entries.map Prod.fst).Nodup) :
    override name value entries =
      entries.map (fun e => (e.1, if e.1 = name then value else e.2)) ++
        if name ∈ entries.map Prod.fst then [] else [(name, value)] := by
  induction entries with
  | nil => rfl
  | cons e rest ih =>
    obtain ⟨other, kept⟩ := e
    obtain ⟨fresh, distinct⟩ := List.nodup_cons.1 distinct
    unfold override
    by_cases same : other = name
    · subst same
      have others : ∀ e ∈ rest, (e.1, if e.1 = other then value else e.2) = e := by
        intro e mem
        simp [ne_of_notMem fresh mem]
      simp [List.map_congr_left others]
    · rw [if_neg same, ih distinct]
      simp only [List.map_cons, if_neg same, List.mem_cons, Ne.symm same, false_or,
        List.cons_append]

theorem lookup_eq_none_of_notMem {name : String} {entries : List (String × Value)}
    (h : name ∉ entries.map Prod.fst) : entries.lookup name = none := by
  rw [List.lookup_eq_none_iff]
  intro e mem
  simpa using (ne_of_notMem h mem).symm

theorem lookup_eq_some_iff_mem {name : String} {value : Value} {entries : List (String × Value)}
    (distinct : (entries.map Prod.fst).Nodup) :
    entries.lookup name = some value ↔ (name, value) ∈ entries := by
  constructor
  · intro found
    obtain ⟨before, after, rfl, -⟩ := List.lookup_eq_some_iff.1 found
    exact List.mem_append_right _ List.mem_cons_self
  · intro mem
    obtain ⟨before, after, rfl⟩ := List.append_of_mem mem
    refine List.lookup_eq_some_iff.2 ⟨before, after, rfl, fun e earlier => ?_⟩
    rw [List.map_append, List.map_cons, List.nodup_middle, List.nodup_cons] at distinct
    have placed : e.1 ∈ before.map Prod.fst := List.mem_map_of_mem earlier
    rw [bne_iff_ne]
    exact fun same => distinct.1 (List.mem_append_left _ (same ▸ placed))

theorem nodup_map_fst_override {name : String} {value : Value} {entries : List (String × Value)}
    (distinct : (entries.map Prod.fst).Nodup) :
    ((override name value entries).map Prod.fst).Nodup := by
  rw [map_fst_override]
  split
  · exact distinct
  · next new =>
    refine List.nodup_append.2 ⟨distinct, List.nodup_singleton _, ?_⟩
    rintro other mem last hLast rfl
    exact new (List.mem_singleton.1 hLast ▸ mem)

/-- Putting all entries of a second layer into a first one. -/
theorem foldl_override_eq {first second : List (String × Value)}
    (distinct : (first.map Prod.fst).Nodup) (distinct' : (second.map Prod.fst).Nodup) :
    second.foldl (fun done e => override e.1 e.2 done) first =
      first.map (fun e => (e.1, (second.lookup e.1).getD e.2)) ++
        second.filter fun e => e.1 ∉ first.map Prod.fst := by
  induction second generalizing first with
  | nil => simp
  | cons e rest ih =>
    obtain ⟨name, value⟩ := e
    obtain ⟨fresh, distinct'⟩ := List.nodup_cons.1 distinct'
    have absent := lookup_eq_none_of_notMem fresh
    -- The names stay different while entries are put in, so the first layer may be any at all.
    rw [List.foldl_cons, ih (nodup_map_fst_override distinct) distinct', map_fst_override,
      override_eq distinct]
    -- A value that was replaced stays: its name does not occur again behind it.
    have values : (first.map fun e => (e.1, if e.1 = name then value else e.2)).map
          (fun e => (e.1, (rest.lookup e.1).getD e.2)) =
        first.map fun e => (e.1, (((name, value) :: rest).lookup e.1).getD e.2) := by
      rw [List.map_map]
      refine List.map_congr_left fun e _ => ?_
      by_cases same : e.1 = name
      · simp [same, absent]
      · simp [same, List.lookup_cons, beq_false_of_ne same]
    rw [List.map_append, values, List.filter_cons]
    by_cases known : name ∈ first.map Prod.fst
    · rw [if_pos known, if_pos known, if_neg (by simpa using known), List.map_nil, List.append_nil]
    · have others : (rest.filter fun e => e.1 ∉ first.map Prod.fst ++ [name]) =
          rest.filter fun e => e.1 ∉ first.map Prod.fst := by
        refine List.filter_congr fun e mem => ?_
        simp [ne_of_notMem fresh mem]
      rw [if_neg known, if_neg known, if_pos (by simpa using known), others, List.append_assoc]
      simp [absent]

/-- Merging succeeds with the values that count, unless a key of either layer is no name. -/
theorem merge_eq (path : NodePath) (defaults product : AttributeLayer) :
    merge path defaults product =
      match defaults.strangeKeys ++ product.strangeKeys with
      | [] => .ok (merged defaults product)
      | k :: _ => .error ⟨path ++ ["attributes"], .attributeName k⟩ := by
  rw [merge, named_eq, named_eq]
  -- The defaults are read first, so a fault of theirs hides those of the product.
  cases defaults.strangeKeys with
  | cons k _ => rfl
  | nil =>
    cases product.strangeKeys with
    | cons k _ => rfl
    | nil =>
      have joined := foldl_override_eq defaults.nodup_names product.nodup_names
      exact congrArg (fun l => Except.ok (l.filter fun e => !isNull e.2)) joined

theorem mem_names_of_mem_merged {defaults product : AttributeLayer} {name : String}
    (h : name ∈ (merged defaults product).map Prod.fst) :
    name ∈ defaults.names ∨ name ∈ product.names := by
  obtain ⟨e, mem, rfl⟩ := List.mem_map.1 h
  rcases List.mem_append.1 (List.mem_filter.1 mem).1 with mem | mem
  · obtain ⟨e, default, rfl⟩ := List.mem_map.1 mem
    exact .inl (List.mem_map.2 ⟨e, default, rfl⟩)
  · exact .inr (List.mem_map_of_mem (List.mem_filter.1 mem).1)

/-- The names of the defaults, and behind them those that the product alone has. -/
def order (defaults product : AttributeLayer) : List String :=
  defaults.names ++ product.names.filter (· ∉ defaults.names)

theorem nodup_order (defaults product : AttributeLayer) : (order defaults product).Nodup := by
  refine List.nodup_append.2 ⟨defaults.nodup_names, product.nodup_names.filter _, ?_⟩
  rintro name mem other kept rfl
  have new : name ∉ defaults.names := by simpa using (List.mem_filter.1 kept).2
  exact new mem

theorem map_fst_merged_sublist (defaults product : AttributeLayer) :
    ((merged defaults product).map Prod.fst).Sublist (order defaults product) := by
  have all : ((defaults.namedEntries.map fun e =>
        (e.1, (product.namedEntries.lookup e.1).getD e.2)) ++
      product.namedEntries.filter fun e => e.1 ∉ defaults.names).map Prod.fst =
        order defaults product := by
    rw [List.map_append, List.map_map, order, names, names, List.filter_map]
    rfl
  rw [← all]
  exact List.filter_sublist.map _

/-- No attribute occurs twice after the merging. -/
theorem nodup_map_fst_merged (defaults product : AttributeLayer) :
    ((merged defaults product).map Prod.fst).Nodup :=
  (nodup_order defaults product).sublist (map_fst_merged_sublist defaults product)

/-- The keys of a layer, in their order. -/
def keys (l : AttributeLayer) : List Value := l.entries.map Prod.fst

/-- An attribute name is a text that is not empty. -/
def IsName (k : Value) : Prop := ∃ name, k = .text name ∧ name ≠ ""

/-- The keys of a layer are some names, in their order. -/
structure Lists (l : AttributeLayer) (names : List String) : Prop where
  keys : l.keys = names.map Value.text
  filled : "" ∉ names

/-- A layer gives a name a value. -/
def Gives (l : AttributeLayer) (name : String) (v : Value) : Prop := (.text name, v) ∈ l.entries

/-- The value of the product counts where it gives one, and that of the defaults otherwise. -/
def Counts (defaults product : AttributeLayer) (name : String) (v : Value) : Prop :=
  product.Gives name v ∨ defaults.Gives name v ∧ ∀ v', ¬ product.Gives name v'

variable {l defaults product : AttributeLayer} {name : String} {v k : Value}

theorem isNone_name? : (name? k).isNone = true ↔ ¬ IsName k := by
  rw [Option.isNone_iff_eq_none, Option.eq_none_iff_forall_ne_some, IsName, not_exists]
  exact forall_congr' fun name => not_congr name?_eq_some

theorem strangeKeys_eq : l.strangeKeys = l.keys.filter fun k => (name? k).isNone := rfl

theorem Lists.strangeKeys {names : List String} (lists : l.Lists names) : l.strangeKeys = [] := by
  rw [strangeKeys_eq, List.filter_eq_nil_iff]
  intro k mem strange
  rw [lists.keys] at mem
  obtain ⟨name, isIn, rfl⟩ := List.mem_map.1 mem
  exact isNone_name?.1 strange ⟨name, rfl, fun empty => lists.filled (empty ▸ isIn)⟩

/-- A layer without a strange key lists its names. -/
theorem lists_names (named : l.strangeKeys = []) : l.Lists l.names := by
  refine ⟨?_, fun mem => ne_empty_of_mem_names mem rfl⟩
  rw [names, namedEntries, List.map_filterMap, List.map_filterMap, keys, ← List.filterMap_eq_map]
  refine List.filterMap_congr fun e mem => ?_
  have isName : IsName e.1 := not_not.1 <|
    mt isNone_name?.2 (List.filter_eq_nil_iff.1 named _ (List.mem_map_of_mem (f := Prod.fst) mem))
  obtain ⟨name, key, filled⟩ := isName
  rw [name?_eq_some.2 ⟨key, filled⟩]
  exact congrArg some key

theorem Lists.eq_names {names : List String} (lists : l.Lists names) : names = l.names :=
  List.map_injective_iff.2 (fun _ _ => Value.text.inj)
    (lists.keys.symm.trans (lists_names lists.strangeKeys).keys)

theorem Lists.gives_iff {names : List String} (lists : l.Lists names) :
    l.Gives name v ↔ l.namedEntries.lookup name = some v := by
  rw [lookup_eq_some_iff_mem l.nodup_names, namedEntries, List.mem_filterMap]
  simp only [Option.map_eq_some_iff, Prod.mk.injEq]
  constructor
  · intro gives
    have isKey : .text name ∈ l.keys := List.mem_map_of_mem gives
    rw [lists.keys] at isKey
    obtain ⟨other, listed, same⟩ := List.mem_map.1 isKey
    obtain rfl := Value.text.inj same
    have filled : other ≠ "" := fun empty => lists.filled (empty ▸ listed)
    exact ⟨_, gives, other, name?_eq_some.2 ⟨rfl, filled⟩, rfl, rfl⟩
  · rintro ⟨⟨k, v'⟩, mem, found, isName, rfl, rfl⟩
    obtain ⟨rfl, -⟩ := name?_eq_some.1 isName
    exact mem

theorem mem_names_iff : name ∈ l.names ↔ ∃ v, l.namedEntries.lookup name = some v := by
  simp only [names, lookup_eq_some_iff_mem l.nodup_names, List.mem_map, Prod.exists,
    exists_and_right, exists_eq_right]

/-- The values that are merged are those of the product and the defaults without one. -/
theorem mem_merged : (name, v) ∈ merged defaults product ↔
    (product.namedEntries.lookup name).or (defaults.namedEntries.lookup name) = some v ∧
      isNull v = false := by
  have own : (name, v) ∈ product.namedEntries ↔ product.namedEntries.lookup name = some v :=
    (lookup_eq_some_iff_mem product.nodup_names).symm
  have inherited : (∃ e ∈ defaults.namedEntries,
        (e.1, (product.namedEntries.lookup e.1).getD e.2) = (name, v)) ↔
      ∃ v', defaults.namedEntries.lookup name = some v' ∧
        (product.namedEntries.lookup name).getD v' = v := by
    simp only [lookup_eq_some_iff_mem defaults.nodup_names, Prod.exists, Prod.mk.injEq]
    constructor
    · rintro ⟨_, v', mem, rfl, value⟩
      exact ⟨v', mem, value⟩
    · rintro ⟨v', mem, value⟩
      exact ⟨name, v', mem, rfl, value⟩
  simp only [merged, List.mem_filter, List.mem_append, List.mem_map, inherited, own,
    mem_names_iff, decide_eq_true_eq, Bool.not_eq_true']
  refine and_congr_left fun _ => ?_
  cases product.namedEntries.lookup name <;> cases defaults.namedEntries.lookup name <;> simp

/-- Entries in the order of some names are told by what they are. -/
theorem eq_of_mem_iff {order : List String} (distinct : order.Nodup)
    {entries others : List (String × Value)} (ordered : (entries.map Prod.fst).Sublist order)
    (ordered' : (others.map Prod.fst).Sublist order) (same : ∀ e, e ∈ entries ↔ e ∈ others) :
    entries = others := by
  have perm : entries.Perm others := by
    refine (List.perm_ext_iff_of_nodup ?_ ?_).2 same
    · exact .of_map _ (distinct.sublist ordered)
    · exact .of_map _ (distinct.sublist ordered')
  have ascending : order.Pairwise fun a b => order.idxOf a < order.idxOf b := by
    rw [List.pairwise_iff_getElem]
    intro i j hi hj lt
    rwa [distinct.idxOf_getElem, distinct.idxOf_getElem]
  have sorted := List.pairwise_map.1 (ascending.sublist ordered)
  have sorted' := List.pairwise_map.1 (ascending.sublist ordered')
  exact perm.eq_of_pairwise (fun e e' _ _ lt gt => absurd gt (Nat.lt_asymm lt)) sorted sorted'

/-- The fault of a merging is the first key that is no name, the defaults being read first. -/
theorem merge_eq_error_iff {path : NodePath} {fault : Violation} :
    merge path defaults product = .error fault ↔
      ∃ before k after, defaults.keys ++ product.keys = before ++ k :: after ∧
        (∀ k' ∈ before, IsName k') ∧ ¬ IsName k ∧
        fault = ⟨path ++ ["attributes"], .attributeName k⟩ := by
  have first_iff (k : Value) (rest : List Value) :
      defaults.strangeKeys ++ product.strangeKeys = k :: rest ↔
        ∃ before after, defaults.keys ++ product.keys = before ++ k :: after ∧
          (∀ k' ∈ before, IsName k') ∧ ¬ IsName k ∧
          after.filter (fun k => (name? k).isNone) = rest := by
    simp only [strangeKeys_eq, ← List.filter_append, List.filter_eq_cons_iff, isNone_name?, not_not]
  rw [merge_eq]
  constructor
  · intro failed
    split at failed
    · cases failed
    · next k rest strange =>
      obtain ⟨before, after, form, names, unnamed, -⟩ := (first_iff k rest).1 strange
      exact ⟨before, k, after, form, names, unnamed, (Except.error.inj failed).symm⟩
  · rintro ⟨before, k, after, form, names, unnamed, rfl⟩
    rw [(first_iff k _).2 ⟨before, after, form, names, unnamed, rfl⟩]

theorem mem_merged_iff_counts {first second : List String} (lists : defaults.Lists first)
    (lists' : product.Lists second) :
    (name, v) ∈ merged defaults product ↔
      Counts defaults product name v ∧ isNull v = false := by
  rw [mem_merged, Counts]
  simp only [lists.gives_iff, lists'.gives_iff]
  cases product.namedEntries.lookup name <;> simp

/-- What a merging gives has the names of the defaults and then those of the product alone, each
with the value that counts unless that is null. -/
theorem merge_eq_ok_iff {path : NodePath} {entries : List (String × Value)} :
    merge path defaults product = .ok entries ↔
      ∃ first second, defaults.Lists first ∧ product.Lists second ∧
        (entries.map Prod.fst).Sublist (first ++ second.filter (· ∉ first)) ∧
        (entries.map Prod.fst).Nodup ∧
        ∀ name v, (name, v) ∈ entries ↔ Counts defaults product name v ∧ isNull v = false := by
  rw [merge_eq]
  constructor
  · intro done
    split at done
    · next named =>
      obtain ⟨named, named'⟩ := List.append_eq_nil_iff.1 named
      obtain rfl := Except.ok.inj done
      have lists := lists_names named
      have lists' := lists_names named'
      exact ⟨_, _, lists, lists', map_fst_merged_sublist .., nodup_map_fst_merged ..,
        fun name v => mem_merged_iff_counts lists lists'⟩
    · cases done
  · rintro ⟨first, second, lists, lists', ordered, -, same⟩
    rw [lists.strangeKeys, lists'.strangeKeys]
    obtain rfl := lists.eq_names
    obtain rfl := lists'.eq_names
    refine congrArg Except.ok (eq_of_mem_iff (nodup_order defaults product)
      (map_fst_merged_sublist defaults product) ordered fun e => ?_)
    rw [same e.1 e.2, ← mem_merged_iff_counts lists lists']

/-- The merging in terms of the entries of the two layers. -/
theorem merge_exactly (path : NodePath) (defaults product : AttributeLayer) :
    (∀ fault, merge path defaults product = .error fault ↔
      ∃ before k after, defaults.keys ++ product.keys = before ++ k :: after ∧
        (∀ k' ∈ before, IsName k') ∧ ¬ IsName k ∧
        fault = ⟨path ++ ["attributes"], .attributeName k⟩) ∧
    (∀ entries, merge path defaults product = .ok entries ↔
      ∃ first second, defaults.Lists first ∧ product.Lists second ∧
        (entries.map Prod.fst).Sublist (first ++ second.filter (· ∉ first)) ∧
        (entries.map Prod.fst).Nodup ∧
        ∀ name v, (name, v) ∈ entries ↔ Counts defaults product name v ∧ isNull v = false) :=
  ⟨fun _ => merge_eq_error_iff, fun _ => merge_eq_ok_iff⟩

end AttributeLayer

end ProductSpec
