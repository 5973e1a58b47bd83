import EventSchema.BackReferences
import EventSchema.Proofs.OrderedMap
import EventSchema.Proofs.Outcomes
import EventSchema.Proofs.Record.ReadBack

namespace EventSchema
namespace BackReferences

/-!
# The dictionary and the objects after linking

Writing the links of all attributes into the dictionary alters each definition
once: a used attribute gets its links and keeps the rest, an unused one is left
alone, and used attributes without a definition follow at the end
(`foldl_record`).

The links of an attribute are read back when they are passed on to the object of
its type.  Links that were just written are read without fault, so the faults
that remain are those of data that nothing has looked into: an object type that
is no name, and links of an attribute that no descriptor uses.
-/

/-! ## The index of uses -/

theorem distinct_collect (common : Option ClassDescriptor)
    (classes : OrderedMap Text ClassDescriptor) (objects : OrderedMap Text ObjectDescriptor) :
    (collect common classes objects).Distinct := by
  have folds : forall (uses : List (Text × Link)) (index : OrderedMap Text (List Link)),
      index.Distinct ->
      (uses.foldl (fun index use => append index use.1 [use.2]) index).Distinct := by
    intro uses
    induction uses with
    | nil => exact fun _ distinct => distinct
    | cons use rest ih => exact fun index distinct => ih _ (distinct.insert _ _)
  exact folds _ [] List.nodup_nil

/-! ## Writing links -/

/-- The definition of an attribute once its links are written. -/
def linked (index : OrderedMap Text (List Link)) (name : Text) (definition : Fields) : Fields :=
  match index.get? name with
  | none => definition
  | some links => OrderedMap.insert definition linksKey (linksJson links)

/-- The attributes that are used and not defined, with their links alone. -/
def undefinedUses (index : OrderedMap Text (List Link)) (entries : OrderedMap Text Fields) :
    OrderedMap Text Fields :=
  OrderedMap.mapValues (fun _ links => [(linksKey, linksJson links)])
    (index.filter fun found => !entries.keys.contains found.1)

section Writing

variable {index rest : OrderedMap Text (List Link)} {entries : OrderedMap Text Fields} {name : Text}

theorem linked_of_missing (missing : index.get? name = none) (definition : Fields) :
    linked index name definition = definition := by
  rw [linked, missing]

theorem linked_cons_self (links : List Link) (definition : Fields) :
    linked ((name, links) :: rest) name definition =
      OrderedMap.insert definition linksKey (linksJson links) := by
  rw [linked, OrderedMap.get?_cons, if_pos rfl]

theorem linked_cons_of_ne {other : Text} (different : other ≠ name) (links : List Link)
    (definition : Fields) :
    linked ((name, links) :: rest) other definition = linked rest other definition := by
  rw [linked, OrderedMap.get?_cons, if_neg (Ne.symm different)]
  rfl

/-- Only the links of a definition are written. -/
theorem get?_linked_of_ne (definition : Fields) {key : Text} (other : key ≠ linksKey) :
    (linked index name definition).get? key = definition.get? key := by
  unfold linked
  cases index.get? name with
  | none => rfl
  | some links => exact OrderedMap.get?_insert_of_ne _ _ (Ne.symm other)

/-- The links of a defined attribute are written into its definition. -/
theorem mapValues_record_of_mem (fresh : name ∉ rest.keys) (distinct : entries.Distinct)
    (present : name ∈ entries.keys) (links : List Link) :
    (record entries name links).mapValues (linked rest) =
      entries.mapValues (linked ((name, links) :: rest)) := by
  have missing := (OrderedMap.get?_eq_none_iff rest name).mpr fresh
  rw [record, OrderedMap.insert_eq_mapValues distinct present, OrderedMap.mapValues,
    OrderedMap.mapValues, OrderedMap.mapValues, List.map_map]
  apply List.map_congr_left
  intro entry member
  rcases entry with ⟨other, definition⟩
  simp only [Function.comp_apply]
  by_cases same : other = name
  · subst other
    have held := distinct.get?_eq_some_iff.mpr member
    rw [if_pos rfl, held, linked_of_missing missing, linked_cons_self]
    rfl
  · rw [if_neg same, linked_cons_of_ne same]

theorem undefinedUses_record_of_mem (present : name ∈ entries.keys) (links : List Link) :
    undefinedUses rest (record entries name links) =
      undefinedUses ((name, links) :: rest) entries := by
  have names : (record entries name links).keys = entries.keys := by
    rw [record, OrderedMap.keys_insert, if_pos present]
  simp only [undefinedUses, names, List.filter_cons]
  rw [if_neg (by simpa using present)]

/-- An attribute that is not defined is appended with its links alone. -/
theorem record_of_not_mem (absent : name ∉ entries.keys) (links : List Link) :
    record entries name links = entries ++ [(name, [(linksKey, linksJson links)])] := by
  rw [record, OrderedMap.insert_eq_append absent, (OrderedMap.get?_eq_none_iff entries name).mpr absent]
  rfl

theorem mapValues_linked_cons_of_not_mem (absent : name ∉ entries.keys) (links : List Link) :
    entries.mapValues (linked ((name, links) :: rest)) = entries.mapValues (linked rest) := by
  apply List.map_congr_left
  intro entry member
  have different : entry.1 ≠ name := by
    rintro rfl
    exact absent (OrderedMap.mem_keys_of_mem member)
  rw [linked_cons_of_ne different]

theorem mapValues_record_of_not_mem (fresh : name ∉ rest.keys) (absent : name ∉ entries.keys)
    (links : List Link) :
    (record entries name links).mapValues (linked rest) =
      entries.mapValues (linked ((name, links) :: rest)) ++
        [(name, [(linksKey, linksJson links)])] := by
  have missing := (OrderedMap.get?_eq_none_iff rest name).mpr fresh
  rw [record_of_not_mem absent, mapValues_linked_cons_of_not_mem absent, OrderedMap.mapValues,
    List.map_append, List.map_singleton, linked_of_missing missing]
  rfl

theorem undefinedUses_record_of_not_mem (fresh : name ∉ rest.keys) (absent : name ∉ entries.keys)
    (links : List Link) :
    undefinedUses ((name, links) :: rest) entries =
      (name, [(linksKey, linksJson links)]) ::
        undefinedUses rest (record entries name links) := by
  have others : undefinedUses rest (record entries name links) = undefinedUses rest entries := by
    unfold undefinedUses
    congr 1
    apply List.filter_congr
    intro found member
    have different : found.1 ≠ name := by
      rintro rfl
      exact fresh (OrderedMap.mem_keys_of_mem member)
    simp [record_of_not_mem absent, OrderedMap.keys_append, different]
  rw [others]
  simp [undefinedUses, absent, OrderedMap.mapValues]

end Writing

/-- Writing all links alters each definition once and appends the others. -/
theorem foldl_record {index : OrderedMap Text (List Link)} (once : index.Distinct)
    {entries : OrderedMap Text Fields} (distinct : entries.Distinct) :
    index.foldl (fun entries found => record entries found.1 found.2) entries =
      entries.mapValues (linked index) ++ undefinedUses index entries := by
  induction index generalizing entries with
  | nil =>
      have same : entries.mapValues (linked []) = entries := List.map_id entries
      rw [List.foldl_nil, same]
      exact (List.append_nil entries).symm
  | cons found rest ih =>
      rcases found with ⟨name, links⟩
      rcases List.nodup_cons.mp once with ⟨fresh, onceRest⟩
      rw [List.foldl_cons, ih onceRest (distinct_record distinct name links)]
      by_cases present : name ∈ entries.keys
      · rw [mapValues_record_of_mem fresh distinct present, undefinedUses_record_of_mem present]
      · rw [mapValues_record_of_not_mem fresh present,
          undefinedUses_record_of_not_mem fresh present, List.append_assoc]
        rfl

/-- The dictionary learns its links and nothing else. -/
theorem outcome_updateDictionary (dictionary : Dictionary) (common : Option ClassDescriptor)
    (classes : OrderedMap Text ClassDescriptor) (objects : OrderedMap Text ObjectDescriptor) :
    (updateDictionary dictionary common classes objects).outcome =
      .ok (recordAll dictionary (collect common classes objects)) := rfl

theorem entries_of_updateDictionary {dictionary updated : Dictionary}
    {common : Option ClassDescriptor} {classes : OrderedMap Text ClassDescriptor}
    {objects : OrderedMap Text ObjectDescriptor}
    (updates : (updateDictionary dictionary common classes objects).outcome = .ok updated) :
    updated.entries = dictionary.entries.mapValues (linked (collect common classes objects)) ++
      undefinedUses (collect common classes objects) dictionary.entries := by
  cases updates
  exact foldl_record (distinct_collect common classes objects) dictionary.distinct

/-! ## Faults of references -/

/-- What keeps an item from being read as a link. -/
def LinkFault (item : Json) (failure : Failure) : Prop :=
  ∃ found, Record.check Link item = .error found ∧ failure = .invalidRecord found

/-- What keeps the links of a definition from being read: they have no items, or
an item is no link. -/
inductive LinksFault (definition : Fields) : Failure -> Prop where
  | items (value : Json) (held : definition.get? linksKey = some value)
      (none : value.items? = none) : LinksFault definition (.unexpectedShape .items)
  | item (value : Json) (items : List Json) (failure : Failure)
      (held : definition.get? linksKey = some value) (listed : value.items? = some items)
      (first : Outcome.FirstFault LinkFault items failure) : LinksFault definition failure

/-- Whether a value is a list or an object. -/
def isContainer : Json -> Bool
  | .arr _ => true
  | .obj _ => true
  | _ => false

/-- What keeps a definition from being passed on: its object type is no name, or
it names an object and its links cannot be read. -/
inductive ReferenceFault {δ : Type} (objects : OrderedMap Text δ) (definition : Fields) :
    Failure -> Prop where
  | objectType (value : Json) (held : definition.get? "object_type" = some value)
      (container : isContainer value = true) :
      ReferenceFault objects definition (.unexpectedShape .objectType)
  | links (name : Text) (failure : Failure)
      (held : definition.get? "object_type" = some (.str name)) (listed : name ∈ objects.keys)
      (fault : LinksFault definition failure) : ReferenceFault objects definition failure

/-- The faults of links that are held. -/
theorem linksFault_iff_of_get? {definition : Fields} {value : Json}
    (held : definition.get? linksKey = some value) {failure : Failure} :
    LinksFault definition failure ↔
      (value.items? = none ∧ failure = .unexpectedShape .items) ∨
        ∃ items, value.items? = some items ∧ Outcome.FirstFault LinkFault items failure := by
  constructor
  · intro fault
    cases fault with
    | items other found none =>
        cases held.symm.trans found
        exact Or.inl ⟨none, rfl⟩
    | item other items _ found listed first =>
        cases held.symm.trans found
        exact Or.inr ⟨items, listed, first⟩
  · rintro (⟨none, rfl⟩ | ⟨items, listed, first⟩)
    · exact .items value held none
    · exact .item value items failure held listed first

theorem not_linksFault_of_missing {definition : Fields} (missing : definition.get? linksKey = none)
    (failure : Failure) : ¬LinksFault definition failure := by
  intro fault
  cases fault with
  | items value found _ => cases missing.symm.trans found
  | item value items _ found _ _ => cases missing.symm.trans found

theorem readLinks_eq_error_iff {definition : Fields} {failure : Failure} :
    readLinks definition = .error failure ↔ LinksFault definition failure := by
  have reads : forall (items : List Json) (other : Failure),
      items.mapM (fun item => (Record.check Link item).mapError Failure.invalidRecord) =
        .error other ↔ Outcome.FirstFault LinkFault items other := by
    intro items other
    apply Outcome.mapM_eq_error_iff_firstFault
    intro item fault
    unfold LinkFault
    cases Record.check Link item with
    | ok link => simp [Except.mapError]
    | error found => simp [Except.mapError, eq_comm]
  unfold readLinks
  cases held : definition.get? linksKey with
  | none =>
      constructor
      · intro same
        cases same
      · intro fault
        exact absurd fault (not_linksFault_of_missing held failure)
  | some value =>
      rw [linksFault_iff_of_get? held, Option.getD_some]
      cases listed : value.items? with
      | none => simp [eq_comm]
      | some items => simp [reads]

/-- The faults of a definition with an object type. -/
theorem referenceFault_iff_of_get? {δ : Type} {objects : OrderedMap Text δ} {definition : Fields}
    {value : Json} (held : definition.get? "object_type" = some value) {failure : Failure} :
    ReferenceFault objects definition failure ↔
      (isContainer value = true ∧ failure = .unexpectedShape .objectType) ∨
        ∃ name, value = .str name ∧ name ∈ objects.keys ∧ LinksFault definition failure := by
  constructor
  · intro fault
    cases fault with
    | objectType other found container =>
        cases held.symm.trans found
        exact Or.inl ⟨container, rfl⟩
    | links name _ found listed fault =>
        cases held.symm.trans found
        exact Or.inr ⟨name, rfl, listed, fault⟩
  · rintro (⟨container, rfl⟩ | ⟨name, rfl, listed, fault⟩)
    · exact .objectType value held container
    · exact .links name failure held listed fault

theorem not_referenceFault_of_missing {δ : Type} {objects : OrderedMap Text δ}
    {definition : Fields} (missing : definition.get? "object_type" = none) (failure : Failure) :
    ¬ReferenceFault objects definition failure := by
  intro fault
  cases fault with
  | objectType value found _ => cases missing.symm.trans found
  | links name _ found _ _ => cases missing.symm.trans found

theorem refer_eq_error_iff {δ : Type} {objects : OrderedMap Text δ}
    {referrers : OrderedMap Text (List Link)} {definition : Fields} {failure : Failure} :
    refer objects referrers definition = .error failure ↔
      ReferenceFault objects definition failure := by
  unfold refer
  cases held : definition.get? "object_type" with
  | none =>
      constructor
      · intro same
        cases same
      · intro fault
        exact absurd fault (not_referenceFault_of_missing held failure)
  | some value =>
      rw [referenceFault_iff_of_get? held]
      cases value with
      | str name =>
          have listed : objects.contains name = true ↔ name ∈ objects.keys :=
            OrderedMap.get?_isSome_iff objects name
          by_cases present : name ∈ objects.keys
          · simp [isContainer, listed, present, Outcome.bind_eq_error_iff, readLinks_eq_error_iff,
              pure, Except.pure]
          · simp [isContainer, listed, present, pure, Except.pure]
      | arr items => simp [isContainer, eq_comm]
      | obj fields => simp [isContainer, eq_comm]
      | _ => simp [isContainer, pure, Except.pure]

/-- What keeps an entry of the dictionary from being passed on.  The links of a
used attribute are written anew, so only those of unused ones count. -/
inductive EntryFault {δ : Type} (index : OrderedMap Text (List Link)) (objects : OrderedMap Text δ)
    (entry : Text × Fields) : Failure -> Prop where
  | objectType (value : Json) (held : entry.2.get? "object_type" = some value)
      (container : isContainer value = true) :
      EntryFault index objects entry (.unexpectedShape .objectType)
  | links (name : Text) (failure : Failure)
      (held : entry.2.get? "object_type" = some (.str name)) (listed : name ∈ objects.keys)
      (unused : entry.1 ∉ index.keys) (fault : LinksFault entry.2 failure) :
      EntryFault index objects entry failure

/-- No such fault is said to be one of the schema. -/
theorem EntryFault.isSchemaFault_eq_false {δ : Type} {index : OrderedMap Text (List Link)}
    {objects : OrderedMap Text δ} {entry : Text × Fields} {failure : Failure}
    (fault : EntryFault index objects entry failure) : failure.isSchemaFault = false := by
  cases fault with
  | objectType _ _ _ => rfl
  | links _ _ _ _ _ links =>
      cases links with
      | items _ _ _ => rfl
      | item _ _ _ _ _ first =>
          rcases first with ⟨_, _, _, _, _, _, _, rfl⟩
          rfl

/-- Written links are read back as they are. -/
theorem readLinks_insert (definition : Fields) (links : List Link) :
    readLinks (OrderedMap.insert definition linksKey (linksJson links)) = .ok (arrange links) := by
  unfold readLinks
  rw [OrderedMap.get?_insert_self]
  change (List.map (Record.toJson .full) (arrange links)).mapM _ = _
  rw [Outcome.mapM_eq_ok_iff, List.forall₂_map_left_iff, List.forall₂_same]
  intro link _
  rw [Record.check, Link.ofJson_toJson]
  rfl

/-- So nothing keeps them from being read. -/
theorem not_linksFault_linksJson (definition : Fields) (links : List Link) (failure : Failure) :
    ¬LinksFault (OrderedMap.insert definition linksKey (linksJson links)) failure := by
  intro fault
  have fails := readLinks_eq_error_iff.mpr fault
  rw [readLinks_insert] at fails
  cases fails

/-- Passing on a linked definition fails for the faults of its entry. -/
theorem referenceFault_linked_iff {δ : Type} {index : OrderedMap Text (List Link)}
    {objects : OrderedMap Text δ} {entry : Text × Fields} {failure : Failure} :
    ReferenceFault objects (linked index entry.1 entry.2) failure ↔
      EntryFault index objects entry failure := by
  cases used : index.get? entry.1 with
  | none =>
      have unused := (OrderedMap.get?_eq_none_iff index entry.1).1 used
      rw [linked, used]
      constructor
      · intro fault
        cases fault with
        | objectType value held container => exact .objectType value held container
        | links name _ held listed fault => exact .links name failure held listed unused fault
      · intro fault
        cases fault with
        | objectType value held container => exact .objectType value held container
        | links name _ held listed _ fault => exact .links name failure held listed fault
  | some links =>
      have known := OrderedMap.mem_keys_of_get?_eq_some used
      have same : OrderedMap.get? (OrderedMap.insert entry.2 linksKey (linksJson links))
          "object_type" = entry.2.get? "object_type" :=
        OrderedMap.get?_insert_of_ne _ _ (by decide)
      rw [linked, used]
      constructor
      · intro fault
        cases fault with
        | objectType value held container => exact .objectType value (same ▸ held) container
        | links name _ held listed fault =>
            exact absurd fault (not_linksFault_linksJson entry.2 links failure)
      · intro fault
        cases fault with
        | objectType value held container => exact .objectType value (same.trans held) container
        | links name _ held listed unused fault => exact absurd known unused

theorem not_referenceFault_undefinedUses {δ : Type} {index : OrderedMap Text (List Link)}
    {entries : OrderedMap Text Fields} {objects : OrderedMap Text δ} :
    ∀ definition ∈ (undefinedUses index entries).values, forall failure : Failure,
      ¬ReferenceFault objects definition failure := by
  intro definition member failure fault
  rcases List.mem_map.1 member with ⟨entry, within, rfl⟩
  rcases List.mem_map.1 within with ⟨source, _, rfl⟩
  cases fault with
  | objectType value held _ => cases held
  | links name _ held _ _ => cases held

/-- Passing on the links fails with the first fault in the order of the dictionary. -/
theorem updateObjects_eq_error_iff {dictionary updated : Dictionary}
    {common : Option ClassDescriptor} {classes : OrderedMap Text ClassDescriptor}
    {objects : OrderedMap Text ObjectDescriptor}
    (updates : (updateDictionary dictionary common classes objects).outcome = .ok updated)
    {failure : Failure} :
    updateObjects updated objects = .error failure ↔
      Outcome.FirstFault (EntryFault (collect common classes objects) objects)
        dictionary.entries failure := by
  have passed : forall definitions : List Fields,
      definitions.foldlM (refer objects) [] = .error failure ↔
        Outcome.FirstFault (ReferenceFault objects) definitions failure := by
    intro definitions
    apply Outcome.foldlM_eq_error_iff_firstFault
    exact fun _ _ _ => refer_eq_error_iff
  have entries : forall (entry : Text × Fields) (other : Failure),
      ReferenceFault objects (linked (collect common classes objects) entry.1 entry.2) other ↔
        EntryFault (collect common classes objects) objects entry other :=
    fun _ _ => referenceFault_linked_iff
  rw [updateObjects, Outcome.bind_eq_error_iff, referrers, passed,
    entries_of_updateDictionary updates]
  refine (or_iff_left ?_).trans ?_
  · rintro ⟨_, _, same⟩
    cases same
  · rw [OrderedMap.values_append, OrderedMap.values_mapValues,
      Outcome.firstFault_append_iff not_referenceFault_undefinedUses, Outcome.firstFault_map_iff]
    simp only [entries]

end BackReferences
end EventSchema
