import EventSchema.BackReferences
import EventSchema.Proofs.OrderedMap
import EventSchema.Proofs.Sorting

namespace EventSchema
namespace BackReferences

/-!
# The users of attributes

A descriptor uses an attribute if it has it: the common set, a class or an
object.  `UsedBy` says so for single links, without an order and without an
index.  The index of uses lists exactly these links, under names that stand in
the order of their first use.

Links are told apart by group and type.  The caption of a link is read off its
descriptor, so where the names of descriptors are distinct no two links differ
in the caption alone, and arranging them gives a strictly increasing list.
-/

/-! ## The order of links -/

/-- A link comes before another: its group does, or they share the group and its
type does. -/
def Before (left right : Link) : Prop :=
  (Text.le left.group right.group = true ∧ left.group ≠ right.group) ∨
    (left.group = right.group ∧ Text.le left.type right.type = true ∧ left.type ≠ right.type)

theorem precedes_total (left right : Link) :
    precedes left right = true ∨ precedes right left = true := by
  unfold precedes
  by_cases same : left.group = right.group
  · rw [if_pos same, if_pos same.symm]
    exact Text.le_total left.type right.type
  · rw [if_neg same, if_neg (Ne.symm same)]
    exact Text.le_total left.group right.group

theorem precedes_trans {first second third : Link} (lower : precedes first second = true)
    (upper : precedes second third = true) : precedes first third = true := by
  unfold precedes at lower upper ⊢
  by_cases firstSame : first.group = second.group
  · rw [if_pos firstSame] at lower
    rw [firstSame]
    by_cases secondSame : second.group = third.group
    · rw [if_pos secondSame] at upper ⊢
      exact Text.le_trans lower upper
    · rw [if_neg secondSame] at upper ⊢
      exact upper
  · rw [if_neg firstSame] at lower
    by_cases secondSame : second.group = third.group
    · rw [← secondSame, if_neg firstSame]
      exact lower
    · rw [if_neg secondSame] at upper
      have apart : first.group ≠ third.group := by
        intro outer
        exact firstSame (Text.le_antisymm lower (outer ▸ upper))
      rw [if_neg apart]
      exact Text.le_trans lower upper

/-- Of two links that differ in group or type, the one that may stand first comes
before the other. -/
theorem before_of_precedes {left right : Link} (ordered : precedes left right = true)
    (apart : left.group = right.group -> left.type ≠ right.type) : Before left right := by
  unfold precedes at ordered
  split at ordered
  · next same => exact Or.inr ⟨same, ordered, apart same⟩
  · next different => exact Or.inl ⟨ordered, different⟩

theorem mem_arrange {links : List Link} {link : Link} : link ∈ arrange links ↔ link ∈ links := by
  rw [arrange, Sorting.mem_sort, List.mem_eraseDups]

theorem nodup_arrange (links : List Link) : (arrange links).Nodup :=
  (Sorting.sort_perm precedes links.eraseDups).nodup_iff.mpr (Sorting.nodup_eraseDups links)

theorem pairwise_arrange (links : List Link) :
    (arrange links).Pairwise fun left right => precedes left right = true :=
  Sorting.sort_pairwise precedes_total (fun _ _ _ => precedes_trans) links.eraseDups

/-- A list of links: strictly increasing, and complete for what it should list. -/
structure Lists (users : Link -> Prop) (links : List Link) : Prop where
  increasing : links.Pairwise Before
  complete : forall link : Link, link ∈ links ↔ users link

/-- Links that group and type tell apart are arranged in strictly increasing
order. -/
theorem lists_arrange {users : Link -> Prop} {links : List Link}
    (complete : forall link : Link, link ∈ links ↔ users link)
    (identified : forall left right : Link, users left -> users right ->
      left.group = right.group -> left.type = right.type -> left = right) :
    Lists users (arrange links) where
  increasing := by
    refine ((pairwise_arrange links).and (nodup_arrange links)).imp_of_mem ?_
    rintro left right leftMember rightMember ⟨ordered, different⟩
    refine before_of_precedes ordered fun group type => different ?_
    exact identified left right ((complete left).1 (mem_arrange.mp leftMember))
      ((complete right).1 (mem_arrange.mp rightMember)) group type
  complete link := mem_arrange.trans (complete link)

/-! ## Users -/

variable {common : Option ClassDescriptor} {classes : OrderedMap Text ClassDescriptor}
  {objects : OrderedMap Text ObjectDescriptor} {name : Text} {link : Link}

/-- A link leads to a descriptor that has the attribute of a name.  It holds the
type under which the descriptor is listed and the name under which it is shown. -/
inductive UsedBy (common : Option ClassDescriptor) (classes : OrderedMap Text ClassDescriptor)
    (objects : OrderedMap Text ObjectDescriptor) (name : Text) : Link -> Prop where
  | common (shared : ClassDescriptor) (held : common = some shared)
      (has : name ∈ shared.attributes.keys) :
      UsedBy common classes objects name ⟨"common", "base_event", some shared.displayName⟩
  | eventClass (type : Text) (cls : ClassDescriptor) (listed : (type, cls) ∈ classes)
      (has : name ∈ cls.attributes.keys) :
      UsedBy common classes objects name ⟨"class", type, some cls.displayName⟩
  | object (type : Text) (object : ObjectDescriptor) (listed : (type, object) ∈ objects)
      (has : name ∈ object.attributes.keys) :
      UsedBy common classes objects name ⟨"object", type, some object.displayName⟩

/-- The names of attributes in the order of their uses: by the common set, by classes
and by objects. -/
def usedNames (common : Option ClassDescriptor) (classes : OrderedMap Text ClassDescriptor)
    (objects : OrderedMap Text ObjectDescriptor) : List Text :=
  common.toList.flatMap (fun shared => shared.attributes.keys) ++
    classes.values.flatMap (fun cls => cls.attributes.keys) ++
    objects.values.flatMap (fun object => object.attributes.keys)

theorem mem_uses_iff {δ : Type} {group : Text} {descriptors : OrderedMap Text (Descriptor δ)} :
    (name, link) ∈ uses group descriptors ↔
      ∃ type descriptor, (type, descriptor) ∈ descriptors ∧ name ∈ descriptor.attributes.keys ∧
        link = ⟨group, type, some descriptor.displayName⟩ := by
  simp only [uses, List.mem_flatMap, List.mem_map, Prod.exists, Prod.mk.injEq]
  constructor
  · rintro ⟨type, descriptor, listed, _, has, rfl, rfl⟩
    exact ⟨type, descriptor, listed, has, rfl⟩
  · rintro ⟨type, descriptor, listed, has, rfl⟩
    exact ⟨type, descriptor, listed, name, has, rfl, rfl⟩

theorem usedBy_iff_mem_allUses :
    UsedBy common classes objects name link ↔ (name, link) ∈ allUses common classes objects := by
  rw [allUses, List.mem_append, List.mem_append, mem_uses_iff, mem_uses_iff, mem_uses_iff]
  constructor
  · intro used
    cases used with
    | common shared held has =>
        exact Or.inl (Or.inl ⟨_, shared, by rw [held]; exact List.mem_singleton.2 rfl, has, rfl⟩)
    | eventClass type cls listed has => exact Or.inl (Or.inr ⟨type, cls, listed, has, rfl⟩)
    | object type object listed has => exact Or.inr ⟨type, object, listed, has, rfl⟩
  · rintro ((⟨type, shared, listed, has, rfl⟩ | ⟨type, cls, listed, has, rfl⟩) |
      ⟨type, object, listed, has, rfl⟩)
    · rcases List.mem_map.1 listed with ⟨other, held, same⟩
      cases same
      exact .common shared (Option.mem_toList.1 held) has
    · exact .eventClass type cls listed has
    · exact .object type object listed has

theorem map_fst_uses {δ : Type} (group : Text) (descriptors : OrderedMap Text (Descriptor δ)) :
    (uses group descriptors).map Prod.fst =
      descriptors.values.flatMap fun descriptor => descriptor.attributes.keys := by
  simp [uses, OrderedMap.values, List.map_flatMap, List.flatMap_map, Function.comp_def]

/-- The names of all uses, one after another. -/
theorem map_fst_allUses :
    (allUses common classes objects).map Prod.fst = usedNames common classes objects := by
  rw [allUses, List.map_append, List.map_append, map_fst_uses, map_fst_uses, map_fst_uses]
  cases common with
  | none => rfl
  | some shared => rfl

/-- Group and type tell the users of attributes apart. -/
theorem UsedBy.unique {classes : KeyedMap Text ClassDescriptor}
    {objects : KeyedMap Text ObjectDescriptor} {first second : Text} {left right : Link}
    (lower : UsedBy common classes objects first left)
    (upper : UsedBy common classes objects second right) (group : left.group = right.group)
    (type : left.type = right.type) : left = right := by
  cases lower with
  | common shared held _ =>
      cases upper with
      | common other again _ =>
          cases held.symm.trans again
          rfl
      | eventClass _ _ _ _ => simp at group
      | object _ _ _ _ => simp at group
  | eventClass _ cls found _ =>
      cases upper with
      | common _ _ _ => simp at group
      | eventClass _ other again _ =>
          cases type
          cases (classes.distinct.get?_eq_some_iff.mpr found).symm.trans
            (classes.distinct.get?_eq_some_iff.mpr again)
          rfl
      | object _ _ _ _ => simp at group
  | object _ object found _ =>
      cases upper with
      | common _ _ _ => simp at group
      | eventClass _ _ _ _ => simp at group
      | object _ other again _ =>
          cases type
          cases (objects.distinct.get?_eq_some_iff.mpr found).symm.trans
            (objects.distinct.get?_eq_some_iff.mpr again)
          rfl

/-! ## Links listed under names -/

/-- The links that an index lists under a name. -/
def listed (index : OrderedMap Text (List Link)) (name : Text) : List Link :=
  (index.get? name).getD []

/-- Add lists of links to those listed under their names. -/
def appendAll (index additions : OrderedMap Text (List Link)) : OrderedMap Text (List Link) :=
  additions.foldl (fun index addition => append index addition.1 addition.2) index

theorem appendAll_cons (index rest : OrderedMap Text (List Link)) (name : Text)
    (links : List Link) :
    appendAll index ((name, links) :: rest) = appendAll (append index name links) rest := rfl

theorem listed_append (index : OrderedMap Text (List Link)) (name other : Text)
    (links : List Link) :
    listed (append index name links) other =
      if name = other then listed index other ++ links else listed index other := by
  unfold listed append
  rw [OrderedMap.get?_insert]
  by_cases same : name = other
  · subst other
    rw [if_pos rfl, if_pos rfl, Option.getD_some]
  · rw [if_neg same, if_neg same]

/-- A link is listed under a name if it was, or if it was added there. -/
theorem mem_listed_appendAll {index additions : OrderedMap Text (List Link)} :
    link ∈ listed (appendAll index additions) name ↔
      link ∈ listed index name ∨ ∃ links, (name, links) ∈ additions ∧ link ∈ links := by
  induction additions generalizing index with
  | nil => simp [appendAll]
  | cons addition rest ih =>
      rcases addition with ⟨known, links⟩
      rw [appendAll_cons, ih, listed_append]
      by_cases same : known = name
      · subst known
        simp only [if_true, List.mem_append, List.mem_cons, Prod.mk.injEq, true_and, or_and_right,
          exists_or, exists_eq_left, or_assoc]
      · simp only [if_neg same, List.mem_cons, Prod.mk.injEq, Ne.symm same, false_and, false_or]

/-- New names follow in the order in which they are added first. -/
theorem keys_appendAll (index additions : OrderedMap Text (List Link)) :
    (appendAll index additions).keys =
      index.keys ++ (additions.keys.filter fun name => name ∉ index.keys).eraseDups :=
  OrderedMap.keys_foldl_insert Prod.fst
    (fun index addition => (index.get? addition.1).getD [] ++ addition.2) additions index

theorem collect_eq_appendAll (common : Option ClassDescriptor)
    (classes : OrderedMap Text ClassDescriptor) (objects : OrderedMap Text ObjectDescriptor) :
    collect common classes objects =
      appendAll [] ((allUses common classes objects).map fun use => (use.1, [use.2])) := by
  rw [appendAll, List.foldl_map]
  rfl

/-- The index lists the users of each attribute. -/
theorem mem_listed_collect :
    link ∈ listed (collect common classes objects) name ↔
      UsedBy common classes objects name link := by
  rw [collect_eq_appendAll, mem_listed_appendAll, usedBy_iff_mem_allUses]
  simp [listed]

/-- The index has the names in the order of their first use. -/
theorem keys_collect :
    (collect common classes objects).keys = (usedNames common classes objects).eraseDups := by
  rw [collect_eq_appendAll, keys_appendAll, ← map_fst_allUses]
  simp [OrderedMap.keys, Function.comp_def]

/-- What is listed for an attribute are its users, each once. -/
theorem lists_listed_collect (common : Option ClassDescriptor)
    (classes : KeyedMap Text ClassDescriptor) (objects : KeyedMap Text ObjectDescriptor)
    (name : Text) : Lists (UsedBy common classes objects name)
      (arrange (listed (collect common classes objects) name)) :=
  lists_arrange (fun _ => mem_listed_collect) fun _ _ => UsedBy.unique

end BackReferences
end EventSchema
