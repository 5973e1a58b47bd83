import EventSchema.Proofs.BackReferences.Dictionary
import EventSchema.Proofs.BackReferences.Objects

namespace EventSchema
namespace BackReferences

/-!
# Links that differ in the caption alone

Links are collected as a set, which tells them apart by all they hold, and sorted by
group and type.  So the order of the set shows in the sorted list exactly where two
links lead to the same place under different captions (`forall_sort_eq_iff`).

The links that are computed from descriptors never do.  But an entry of the dictionary
passes on whatever links it holds, and the entry of an attribute that nobody uses still
holds those of its file.
-/

/-! ## The order of a set of links -/

/-- The place to which a link leads: all but the caption. -/
def target (link : Link) : Text × Text := (link.group, link.type)

theorem target_eq_iff {left right : Link} :
    target left = target right ↔ left.group = right.group ∧ left.type = right.type := by
  rw [target, target, Prod.mk.injEq]

/-- Links compare equal if they lead to the same place. -/
theorem precedes_antisymm_iff {left right : Link} :
    precedes left right = true ∧ precedes right left = true ↔ target left = target right := by
  rw [target_eq_iff]
  unfold precedes
  constructor
  · rintro ⟨lower, upper⟩
    by_cases group : left.group = right.group
    · rw [if_pos group] at lower
      rw [if_pos group.symm] at upper
      exact ⟨group, Text.le_antisymm lower upper⟩
    · rw [if_neg group] at lower
      rw [if_neg (Ne.symm group)] at upper
      exact absurd (Text.le_antisymm lower upper) group
  · rintro ⟨group, type⟩
    have same : Text.le right.type right.type = true :=
      (Text.le_total right.type right.type).elim id id
    rw [if_pos group, if_pos group.symm, type]
    exact ⟨same, same⟩

/-- A list of a set of links: each of them, and none twice. -/
structure ListsOnce (arrives : Link -> Prop) (links : List Link) : Prop where
  nodup : links.Nodup
  complete : forall link : Link, link ∈ links ↔ arrives link

theorem listsOnce_arrange {arrives : Link -> Prop} {links : List Link}
    (complete : forall link : Link, link ∈ links ↔ arrives link) :
    ListsOnce arrives (arrange links) where
  nodup := nodup_arrange links
  complete link := mem_arrange.trans (complete link)

/-- Every order of a set of links is sorted to the same list if and only if no two of them
lead to the same place. -/
theorem forall_sort_eq_iff {arrives : Link -> Prop} {links : List Link}
    (lists : ListsOnce arrives links)
    (sorted : links.Pairwise fun left right => precedes left right = true) :
    (forall order : List Link, ListsOnce arrives order -> Sorting.sort precedes order = links) ↔
      (links.map target).Nodup := by
  have orders : forall order : List Link, ListsOnce arrives order ↔ order.Perm links := by
    intro order
    constructor
    · intro other
      refine (List.perm_ext_iff_of_nodup other.nodup lists.nodup).mpr fun link => ?_
      exact (other.complete link).trans (lists.complete link).symm
    · intro perm
      exact ⟨perm.nodup_iff.mpr lists.nodup, fun link => perm.mem_iff.trans (lists.complete link)⟩
  have apart := Sorting.forall_perm_sort_eq_iff precedes_total (fun _ _ _ => precedes_trans)
    lists.nodup
  rw [Sorting.sort_eq_self sorted] at apart
  simp only [orders, apart, List.nodup_map_iff_inj_on lists.nodup, ← precedes_antisymm_iff, and_imp]

/-! ## Links that are passed on -/

section Passing

variable {δ : Type} {objects : OrderedMap Text δ} {known found : OrderedMap Text (List Link)}
  {type : Text}

/-- A definition brings a link to the object of its type. -/
def Brings (definition : Fields) (type : Text) (link : Link) : Prop :=
  OfType definition type ∧ ∃ links, readLinks definition = .ok links ∧ link ∈ links

/-- What is listed for a known object after more definitions were passed on to the
objects. -/
structure PassesOn (definitions : List Fields) (known : OrderedMap Text (List Link)) (type : Text)
    (found : OrderedMap Text (List Link)) : Prop where
  keys : type ∈ found.keys ↔
    type ∈ known.keys ∨ ∃ definition ∈ definitions, OfType definition type
  links : forall link : Link, link ∈ listed found type ↔
    link ∈ listed known type ∨ ∃ definition ∈ definitions, Brings definition type link

/-- A definition without the name of an object passes nothing on. -/
theorem passesOn_of_not_ofType {definition : Fields} (other : ¬OfType definition type) :
    PassesOn [definition] known type known where
  keys := by simp [other]
  links link := by simp [Brings, other]

/-- A single definition is passed on. -/
theorem passesOn_refer {definition : Fields} (present : type ∈ objects.keys)
    (gives : refer objects known definition = .ok found) :
    PassesOn [definition] known type found := by
  unfold refer at gives
  split at gives
  · next name held =>
      split at gives
      · rcases Outcome.bind_eq_ok_iff.mp gives with ⟨links, reads, same⟩
        cases same
        by_cases same : name = type
        · subst name
          have brings : forall link : Link, Brings definition type link ↔ link ∈ links := by
            intro link
            simp only [Brings, OfType, held, reads, true_and, Except.ok.injEq, exists_eq_left']
          refine ⟨?_, fun link => ?_⟩
          · simp [append, OrderedMap.mem_keys_insert, OfType, held]
          · simp [listed_append, brings]
        · have other : ¬OfType definition type := by
            intro ofType
            exact same (Json.str.inj (Option.some.inj (held.symm.trans ofType)))
          refine ⟨?_, fun link => ?_⟩
          · simp [append, OrderedMap.mem_keys_insert, other, Ne.symm same]
          · simp [listed_append, same, Brings, other]
      · next absent =>
          cases gives
          refine passesOn_of_not_ofType fun ofType => absent ?_
          cases held.symm.trans ofType
          exact (OrderedMap.get?_isSome_iff objects type).mpr present
  · cases gives
  · cases gives
  · next unnamed _ _ =>
      cases gives
      exact passesOn_of_not_ofType fun ofType => unnamed type ofType

/-- So are all definitions, one after another. -/
theorem passesOn_foldlM {definitions : List Fields} (present : type ∈ objects.keys)
    (gives : definitions.foldlM (refer objects) known = .ok found) :
    PassesOn definitions known type found := by
  induction definitions generalizing known with
  | nil =>
      cases gives
      exact ⟨by simp, fun link => by simp⟩
  | cons definition rest ih =>
      rw [List.foldlM_cons] at gives
      rcases Outcome.bind_eq_ok_iff.mp gives with ⟨middle, first, others⟩
      have here := passesOn_refer present first
      have later := ih others
      refine ⟨?_, fun link => ?_⟩
      · rw [later.keys, here.keys]
        simp [or_assoc]
      · rw [later.links, here.links]
        simp [or_assoc]

end Passing

/-! ## Links that arrive at an object -/

variable {dictionary updated : Dictionary} {common : Option ClassDescriptor}
  {classes : OrderedMap Text ClassDescriptor} {objects reached : OrderedMap Text ObjectDescriptor}
  {users : Text -> Link -> Prop} {type : Text}

/-- The object of a type lists the links that arrive there, if the dictionary names it,
and is left alone otherwise. -/
structure ListsArrivals (names : Prop) (arrives : Link -> Prop)
    (before after : ObjectDescriptor) : Prop where
  named : names -> ∃ links, ListsOnce arrives links ∧
    (links.Pairwise fun left right => precedes left right = true) ∧
    after = { before with details := ⟨some links⟩ }
  unnamed : ¬names -> after = before

theorem listsArrivals_of_updateObjects
    (gives : updateObjects dictionary objects = .ok reached) {object : ObjectDescriptor}
    (found : objects.get? type = some object) :
    ∃ after, reached.get? type = some after ∧
      ListsArrivals (∃ definition ∈ dictionary.entries.values, OfType definition type)
        (fun link => ∃ definition ∈ dictionary.entries.values, Brings definition type link)
        object after := by
  rcases Outcome.bind_eq_ok_iff.mp gives with ⟨referred, folds, same⟩
  have passes := passesOn_foldlM (OrderedMap.mem_keys_of_get?_eq_some found) folds
  rw [← Except.ok.inj same, OrderedMap.get?_mapValues, found, Option.map_some]
  refine ⟨_, rfl, ?_, ?_⟩
  · intro named
    obtain ⟨links, passed⟩ := OrderedMap.exists_get?_of_mem_keys (passes.keys.mpr (Or.inr named))
    refine ⟨arrange links, listsOnce_arrange fun link => ?_, pairwise_arrange links, by rw [passed]⟩
    have held := passes.links link
    simp only [listed, passed, Option.getD_some, OrderedMap.get?_nil, Option.getD_none,
      List.not_mem_nil, false_or] at held
    exact held
  · intro unnamed
    have missing : type ∉ referred.keys := fun present =>
      (passes.keys.mp present).elim (fun held => by cases held) unnamed
    rw [(OrderedMap.get?_eq_none_iff referred type).mpr missing]

/-- An entry holds a link in the file of the dictionary, and nobody uses its attribute. -/
def LeftOver (users : Text -> Link -> Prop) (entry : Text × Fields) (link : Link) : Prop :=
  (forall user : Link, ¬users entry.1 user) ∧
    ∃ links, readLinks entry.2 = .ok links ∧ link ∈ links

/-- A link arrives at a type from an attribute of the type: it leads to a user of the
attribute or is left over there. -/
def Arrives (dictionary : Dictionary) (users : Text -> Link -> Prop) (type : Text) (link : Link) :
    Prop :=
  ∃ entry ∈ dictionary.entries, OfType entry.2 type ∧
    (users entry.1 link ∨ LeftOver users entry link)

theorem mem_usedNames_iff {name : Text} :
    name ∈ usedNames common classes objects ↔ ∃ link, UsedBy common classes objects name link := by
  simp only [← map_fst_allUses, usedBy_iff_mem_allUses, List.mem_map, Prod.exists,
    exists_and_right, exists_eq_right]

/-- Writing links alters no object type. -/
theorem ofType_linked_iff {index : OrderedMap Text (List Link)} {name : Text}
    {definition : Fields} : OfType (linked index name definition) type ↔ OfType definition type := by
  rw [OfType, OfType, get?_linked_of_ne definition (by decide)]

/-- Once its links are written, an entry holds its users; without users it holds what it
held. -/
theorem exists_readLinks_linked_iff {entry : Text × Fields} {link : Link} :
    (∃ links, readLinks (linked (collect common classes objects) entry.1 entry.2) = .ok links ∧
      link ∈ links) ↔
      UsedBy common classes objects entry.1 link ∨
        LeftOver (UsedBy common classes objects) entry link := by
  have users : link ∈ listed (collect common classes objects) entry.1 ↔
      UsedBy common classes objects entry.1 link := mem_listed_collect
  have unused : (collect common classes objects).get? entry.1 = none ↔
      forall user : Link, ¬UsedBy common classes objects entry.1 user := by
    rw [OrderedMap.get?_eq_none_iff, mem_keys_collect_iff, mem_usedNames_iff, not_exists]
  unfold linked LeftOver
  cases found : (collect common classes objects).get? entry.1 with
  | none =>
      have nobody := unused.mp found
      simp only [nobody, not_false_eq_true, implies_true, true_and, false_or]
  | some links =>
      have used : ¬forall user : Link, ¬UsedBy common classes objects entry.1 user := fun nobody => by
        cases found.symm.trans (unused.mpr nobody)
      simp only [readLinks_insert, Except.ok.injEq, exists_eq_left', mem_arrange, ← users, listed,
        found, Option.getD_some, used, false_and, or_false]

/-- What the dictionary passes on once it lists the users of its attributes. -/
theorem arrives_iff_of_updateDictionary
    (succeeds : (updateDictionary dictionary common classes objects).outcome = .ok updated) :
    ((∃ definition ∈ updated.entries.values, OfType definition type) ↔ Names dictionary type) ∧
      forall link : Link,
        (∃ definition ∈ updated.entries.values, Brings definition type link) ↔
          Arrives dictionary (UsedBy common classes objects) type link := by
  rw [entries_of_updateDictionary succeeds]
  -- Entries of attributes that are not defined have no type.
  have defined : forall holds : Fields -> Prop,
      (∃ definition ∈ OrderedMap.values
          (dictionary.entries.mapValues (linked (collect common classes objects)) ++
            undefinedUses (collect common classes objects) dictionary.entries),
        OfType definition type ∧ holds definition) ↔
        ∃ entry ∈ dictionary.entries, OfType entry.2 type ∧
          holds (linked (collect common classes objects) entry.1 entry.2) := by
    intro holds
    rw [OrderedMap.values_append, OrderedMap.values_mapValues]
    constructor
    · rintro ⟨definition, member, ofType, held⟩
      rcases List.mem_append.1 member with old | new
      · rcases List.mem_map.1 old with ⟨entry, within, rfl⟩
        exact ⟨entry, within, ofType_linked_iff.mp ofType, held⟩
      · cases (untyped_of_mem_undefinedUses new).symm.trans ofType
    · rintro ⟨entry, within, ofType, held⟩
      exact ⟨_, List.mem_append_left _ (List.mem_map_of_mem within), ofType_linked_iff.mpr ofType,
        held⟩
  constructor
  · have typed := defined fun _ => True
    simp only [and_true] at typed
    exact typed
  · intro link
    refine (defined fun definition => ∃ links, readLinks definition = .ok links ∧ link ∈ links).trans
      ?_
    simp only [exists_readLinks_linked_iff, Arrives]

/-- The object of a type after both updates lists what arrives there. -/
theorem listsArrivals_of_updates
    (tells : (updateDictionary dictionary common classes objects).outcome = .ok updated)
    (gives : updateObjects updated objects = .ok reached) {object : ObjectDescriptor}
    (found : objects.get? type = some object) :
    ∃ after, reached.get? type = some after ∧
      ListsArrivals (Names dictionary type)
        (Arrives dictionary (UsedBy common classes objects) type) object after := by
  have lists := listsArrivals_of_updateObjects gives found
  rcases arrives_iff_of_updateDictionary tells with ⟨names, arrives⟩
  rw [names, funext fun link => propext (arrives link)] at lists
  exact lists

/-! ## Ties -/

/-- No link that is left over leads to the same place as another link that arrives at the
type. -/
def Untied (dictionary : Dictionary) (users : Text -> Link -> Prop) (type : Text) : Prop :=
  ∀ entry ∈ dictionary.entries, OfType entry.2 type -> forall left right : Link,
    LeftOver users entry left -> Arrives dictionary users type right ->
      target left = target right -> left = right

/-- Links that arrive at a type lead to different places if and only if they are not tied:
no two users of attributes share a group and a type. -/
theorem nodup_target_iff (classes : KeyedMap Text ClassDescriptor)
    (objects : KeyedMap Text ObjectDescriptor) {links : List Link}
    (lists : ListsOnce (Arrives dictionary (UsedBy common classes objects) type) links) :
    (links.map target).Nodup ↔ Untied dictionary (UsedBy common classes objects) type := by
  rw [List.nodup_map_iff_inj_on lists.nodup]
  simp only [lists.complete]
  constructor
  · intro apart entry member ofType left right held arrives same
    exact apart left ⟨entry, member, ofType, Or.inr held⟩ right arrives same
  · rintro apart left ⟨first, firstMember, firstType, lower⟩ right
      ⟨second, secondMember, secondType, upper⟩ same
    rcases lower with lower | lower
    · rcases upper with upper | upper
      · exact lower.unique upper (target_eq_iff.mp same).1 (target_eq_iff.mp same).2
      · refine (apart second secondMember secondType right left upper ?_ same.symm).symm
        exact ⟨first, firstMember, firstType, Or.inl lower⟩
    · exact apart first firstMember firstType left right lower
        ⟨second, secondMember, secondType, upper⟩ same

end BackReferences
end EventSchema
