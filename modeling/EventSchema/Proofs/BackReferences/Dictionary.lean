import EventSchema.Proofs.BackReferences
import EventSchema.Proofs.BackReferences.Users

namespace EventSchema
namespace BackReferences

/-!
# What the dictionary says about users

Writing links never fails and leaves the heading of the dictionary alone.  The
entry of a used attribute lists its users and keeps whatever else it defines;
an attribute that is used without being defined gets an entry with its links
alone, after all others.  Entries of attributes that nobody uses are not
touched, their links included.
-/

variable {index : OrderedMap Text (List Link)} {entries : OrderedMap Text Fields} {name : Text}

/-! ## Entries after linking -/

/-- Whatever an assignment stores, the other fields are those that were there. -/
theorem erase_insert_self (definition : Fields) (key : Text) (value : Json) :
    OrderedMap.erase (OrderedMap.insert definition key value) key =
      OrderedMap.erase definition key := by
  have restricted :=
    OrderedMap.filter_key_insert (fun other => decide (other ≠ key)) definition key value
  simpa [OrderedMap.erase] using restricted

theorem keys_undefinedUses (index : OrderedMap Text (List Link))
    (entries : OrderedMap Text Fields) :
    (undefinedUses index entries).keys = index.keys.filter fun name => name ∉ entries.keys := by
  rw [undefinedUses, OrderedMap.keys_mapValues]
  refine Eq.trans ?_ List.filter_map.symm
  refine congrArg (List.map Prod.fst) (List.filter_congr fun entry _ => ?_)
  by_cases present : entry.1 ∈ entries.keys <;> simp [present]

theorem get?_undefinedUses_of_not_mem (missing : name ∉ entries.keys) :
    (undefinedUses index entries).get? name =
      (index.get? name).map fun links => [(linksKey, linksJson links)] := by
  have restricted :=
    OrderedMap.get?_filter_key (fun known => !entries.keys.contains known) index name
  rw [undefinedUses, OrderedMap.get?_mapValues, restricted, if_pos (by simpa using missing)]

/-- A defined attribute keeps its entry, up to its links. -/
theorem get?_linked_of_get? {definition : Fields} (found : entries.get? name = some definition) :
    OrderedMap.get? (entries.mapValues (linked index) ++ undefinedUses index entries) name =
      some (linked index name definition) := by
  rw [OrderedMap.get?_append, OrderedMap.get?_mapValues, found, Option.map_some, Option.some_or]

/-- An attribute that is not defined has an entry if it is used. -/
theorem get?_linked_of_missing (missing : entries.get? name = none) :
    OrderedMap.get? (entries.mapValues (linked index) ++ undefinedUses index entries) name =
      (index.get? name).map fun links => [(linksKey, linksJson links)] := by
  rw [OrderedMap.get?_append, OrderedMap.get?_mapValues, missing, Option.map_none, Option.none_or,
    get?_undefinedUses_of_not_mem ((OrderedMap.get?_eq_none_iff entries name).mp missing)]

/-! ## Users in the dictionary -/

variable {dictionary updated : Dictionary} {common : Option ClassDescriptor}
  {classes : OrderedMap Text ClassDescriptor} {objects : OrderedMap Text ObjectDescriptor}

/-- The entry of a used attribute: it lists the users, each once and in order, and
says nothing else than before. -/
structure ListedEntry (users : Link -> Prop) (before : Option Fields) (definition : Fields) :
    Prop where
  links : ∃ links, Lists users links ∧
    definition.get? linksKey = some (.arr (links.map (Record.toJson .full)))
  kept : forall known : Fields, before = some known ->
    definition.erase linksKey = known.erase linksKey
  linksOnly : before = none -> definition.keys = [linksKey]

/-- The dictionary lists the users of every attribute and is otherwise as before.
Names that are new to it follow in the order of their first use. -/
structure ListsUsers (dictionary updated : Dictionary) (common : Option ClassDescriptor)
    (classes : OrderedMap Text ClassDescriptor) (objects : OrderedMap Text ObjectDescriptor) :
    Prop where
  heading : { updated with
    entries := dictionary.entries
    distinct := dictionary.distinct } = dictionary
  used : ∀ name ∈ usedNames common classes objects, ∃ definition,
    updated.entries.get? name = some definition ∧
      ListedEntry (UsedBy common classes objects name) (dictionary.entries.get? name) definition
  unused : forall name : Text, name ∉ usedNames common classes objects ->
    updated.entries.get? name = dictionary.entries.get? name
  order : updated.entries.keys = dictionary.entries.keys ++
    (usedNames common classes objects).eraseDups.filter fun name => name ∉ dictionary.entries.keys

theorem mem_keys_collect_iff :
    name ∈ (collect common classes objects).keys ↔ name ∈ usedNames common classes objects := by
  rw [keys_collect, List.mem_eraseDups]

/-- Writing the links that the index lists for an attribute yields the entry of its
users. -/
theorem listedEntry_insert {classes : KeyedMap Text ClassDescriptor}
    {objects : KeyedMap Text ObjectDescriptor} {links : List Link}
    (found : (collect common classes objects).get? name = some links) (before : Option Fields) :
    ListedEntry (UsedBy common classes objects name) before
      (OrderedMap.insert (before.getD []) linksKey (linksJson links)) where
  links := by
    have listsUsers : Lists (UsedBy common classes objects name)
        (arrange (listed (collect common classes objects) name)) :=
      lists_listed_collect common classes objects name
    rw [listed, found, Option.getD_some] at listsUsers
    exact ⟨arrange links, listsUsers, OrderedMap.get?_insert_self _ _ _⟩
  kept known held := by
    rw [held, Option.getD_some]
    exact erase_insert_self known linksKey (linksJson links)
  linksOnly missing := by
    rw [missing]
    rfl

/-- Once all links are written, a used attribute has the entry of its users. -/
theorem exists_listedEntry (classes : KeyedMap Text ClassDescriptor)
    (objects : KeyedMap Text ObjectDescriptor) (used : name ∈ usedNames common classes objects)
    (entries : OrderedMap Text Fields) :
    ∃ definition,
      OrderedMap.get? (entries.mapValues (linked (collect common classes objects)) ++
          undefinedUses (collect common classes objects) entries) name = some definition ∧
        ListedEntry (UsedBy common classes objects name) (entries.get? name) definition := by
  obtain ⟨links, found⟩ := OrderedMap.exists_get?_of_mem_keys (mem_keys_collect_iff.mpr used)
  have entry := listedEntry_insert found
  cases defined : entries.get? name with
  | some definition =>
      refine ⟨_, (get?_linked_of_get? defined).trans ?_, entry (some definition)⟩
      rw [linked, found]
      rfl
  | none =>
      refine ⟨_, (get?_linked_of_missing defined).trans ?_, entry none⟩
      rw [found]
      rfl

/-- Telling the dictionary who uses its attributes succeeds.  Every used attribute
then lists exactly its users, in strictly increasing order of group and type, and
nothing else is altered. -/
theorem updateDictionary_lists_users (dictionary : Dictionary) (common : Option ClassDescriptor)
    (classes : KeyedMap Text ClassDescriptor) (objects : KeyedMap Text ObjectDescriptor) :
    ∃ updated, (updateDictionary dictionary common classes objects).outcome = .ok updated ∧
      ListsUsers dictionary updated common classes objects := by
  have updates := outcome_updateDictionary dictionary common classes objects
  have entries := entries_of_updateDictionary updates
  refine ⟨_, updates, rfl, ?_, ?_, ?_⟩
  · intro name used
    rw [entries]
    exact exists_listedEntry classes objects used dictionary.entries
  · intro name unused
    rw [entries]
    have missing : (collect common classes objects).get? name = none :=
      (OrderedMap.get?_eq_none_iff _ name).mpr (mt mem_keys_collect_iff.mp unused)
    cases defined : dictionary.entries.get? name with
    | some definition => exact (get?_linked_of_get? defined).trans (by rw [linked, missing])
    | none => exact (get?_linked_of_missing defined).trans (by rw [missing]; rfl)
  · rw [entries, OrderedMap.keys_append, OrderedMap.keys_mapValues, keys_undefinedUses, keys_collect]

/-- The base event is the common set and a class as well, so it uses its attributes
twice.  The attribute that is not defined follows the defined ones, and the stale
links of the other are replaced. -/
theorem updateDictionary_lists_users_of_base_event :
    let shared : ClassDescriptor :=
      { type := "base_event", name := some "Base", caption := none, description := none,
        parent := none, attributes := [("time", []), ("user", [])], details := ⟨none, none, none⟩,
        extra := [] }
    let user : ObjectDescriptor :=
      { type := "user", name := none, caption := some "User", description := none, parent := none,
        attributes := [("time", [])], details := ⟨none⟩, extra := [] }
    let dictionary : Dictionary :=
      { name := none, caption := none, description := none,
        entries := [("user", [("_links", .null), ("object_type", .str "user")]), ("spare", [])],
        extra := [] }
    let classes : KeyedMap Text ClassDescriptor := ⟨[("base_event", shared)], by decide⟩
    let objects : KeyedMap Text ObjectDescriptor := ⟨[("user", user)], by decide⟩
    ∃ updated, (updateDictionary dictionary (some shared) classes objects).outcome =
        .ok updated ∧ ListsUsers dictionary updated (some shared) classes objects ∧
      updated.entries.keys = (["user", "spare", "time"] : List Text) ∧
      updated.entries.get? "spare" = some [] := by
  intro shared user dictionary classes objects
  rcases updateDictionary_lists_users dictionary (some shared) classes objects with
    ⟨updated, succeeds, lists⟩
  refine ⟨updated, succeeds, lists, ?_, ?_⟩
  · exact lists.order.trans (by decide)
  · exact (lists.unused "spare" (by decide)).trans rfl

end BackReferences
end EventSchema
