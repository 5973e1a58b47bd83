import EventSchema.Proofs.Declarations.Addition
import EventSchema.Proofs.Inclusion.Directives

namespace EventSchema
namespace Inclusion

/-!
# What an overlay leaves of a descriptor's attributes

An overlay is merged over a descriptor before any directive is served.  The attributes of
the descriptor itself are all kept by that.  The attributes of fragments are not there yet:
only the directive that will name them is, and a directive is replaced like any other value.
So an overlay that brings a directive of its own can take attributes away.

Two directives decide which attributes there are, that of the root and that among the
attributes.  The latter may come from fragments of the root, so that replacing the former
can replace it, too.  An overlay without a directive in these two places takes away nothing.
-/

variable {tree : SchemaTree} {fields base overlay : Fields} {name : Text}
  {fragments? : Option (List Fields)} {named : Option Json}

/-! ## Names of attributes -/

/-- The names of the attributes of an object; none if it has no object of attributes. -/
def attributeNames (fields : Fields) : List Text :=
  ((attributesIn fields).getD []).keys

/-- The attributes of an object are left out or are an object. -/
def AttributesFit (fields : Fields) : Prop :=
  fields.get? "attributes" = none ∨ ∃ attributes, attributesIn fields = some attributes

/-- The directive among the attributes of an object. -/
def directiveAmong (fields : Fields) : Option Json :=
  (attributesIn fields).bind fun attributes => attributes.get? directive

theorem attributesIn_merge (keyed : Json.Keyed (.obj overlay)) (fits : AttributesFit overlay) :
    attributesIn (base.merge overlay) =
      ((attributesIn overlay).map (Fields.merge ((attributesIn base).getD []))).or
        (attributesIn base) := by
  rw [attributesIn, Fields.get?_merge keyed.distinct]
  rcases fits with missing | ⟨attributes, inside⟩
  · have none : attributesIn overlay = none := by rw [attributesIn, missing, Option.bind_none]
    rw [missing, none, Option.map_none, Option.none_or, Option.map_none, Option.none_or,
      attributesIn]
  · have held := attributesIn_eq_some_iff.mp inside
    rw [held, inside, Option.map_some, Option.some_or, Option.map_some, Option.some_or,
      Fields.laid_obj (keyed.of_get? held).distinct]
    rfl

theorem mem_attributeNames_merge (keyed : Json.Keyed (.obj overlay))
    (fits : AttributesFit overlay) :
    name ∈ attributeNames (base.merge overlay) ↔
      name ∈ attributeNames overlay ∨ name ∈ attributeNames base := by
  rw [attributeNames, attributesIn_merge keyed fits, attributeNames, attributeNames]
  cases attributesIn overlay with
  | none => simp
  | some attributes => exact Fields.mem_keys_merge

/-- Where attributes fit below others, so do both together. -/
theorem AttributesFit.merge (keyed : Json.Keyed (.obj overlay)) (lower : AttributesFit base)
    (fits : AttributesFit overlay) : AttributesFit (base.merge overlay) := by
  rcases fits with missing | ⟨attributes, inside⟩
  · have same : (base.merge overlay).get? "attributes" = base.get? "attributes" := by
      rw [Fields.get?_merge keyed.distinct, missing, Option.map_none, Option.none_or]
    unfold AttributesFit attributesIn
    rw [same]
    exact lower
  · refine Or.inr ⟨Fields.merge ((attributesIn base).getD []) attributes, ?_⟩
    rw [attributesIn_merge keyed (Or.inr ⟨attributes, inside⟩), inside]
    rfl

/-- What has attributes in the end has none that are no object. -/
theorem attributesFit_of_merge (keyed : Json.Keyed (.obj overlay)) {attributes : Fields}
    (inside : attributesIn (base.merge overlay) = some attributes) : AttributesFit overlay := by
  have held := attributesIn_eq_some_iff.mp inside
  rw [Fields.get?_merge keyed.distinct] at held
  cases own : overlay.get? "attributes" with
  | none => exact Or.inl own
  | some value =>
      rw [own, Option.map_some, Option.some_or] at held
      cases leaf : value.isObject with
      | true =>
          cases value with
          | obj fields => exact Or.inr ⟨fields, attributesIn_eq_some_iff.mpr own⟩
          | _ => cases leaf
      | false =>
          rw [Fields.laid_of_not_isObject _ leaf] at held
          cases held
          cases leaf

theorem directiveAmong_merge (keyed : Json.Keyed (.obj overlay)) (fits : AttributesFit overlay) :
    directiveAmong (base.merge overlay) =
      ((directiveAmong overlay).map (Fields.laid (directiveAmong base))).or
        (directiveAmong base) := by
  rw [directiveAmong, attributesIn_merge keyed fits, directiveAmong, directiveAmong]
  cases inside : attributesIn overlay with
  | none => rfl
  | some attributes =>
      have own := keyed.of_get? (attributesIn_eq_some_iff.mp inside)
      rw [Option.map_some, Option.some_or, Option.bind_some, Option.bind_some,
        Fields.get?_merge own.distinct]
      cases attributesIn base <;> rfl

/-! ## Attributes over fragments -/

/-- Apart from the directive, fragments are merged under an object. -/
theorem get?_lay_of_ne (keyed : Json.Keyed (.obj fields)) {key : Text} (other : key ≠ directive) :
    (lay fragments? fields).get? key =
      OrderedMap.get? (Fields.merge (Fields.mergeAll (fragments?.getD [])) fields) key := by
  cases fragments? with
  | none => rw [Option.getD_none, Fields.mergeAll_nil, Fields.merge_nil_left keyed.distinct, lay]
  | some fragments =>
      rw [lay, Fields.get?_merge (keyed.erase directive).distinct, Fields.get?_merge keyed.distinct,
        OrderedMap.get?_erase, if_neg other]
      rfl

theorem attributesIn_lay (keyed : Json.Keyed (.obj fields)) :
    attributesIn (lay fragments? fields) =
      attributesIn (Fields.merge (Fields.mergeAll (fragments?.getD [])) fields) := by
  rw [attributesIn, get?_lay_of_ne keyed (by decide)]
  rfl

/-- The keys of an object over fragments. -/
theorem mem_keys_lay (unnamed : fragments? = none -> fields.get? directive = none) :
    name ∈ (lay fragments? fields).keys ↔
      (name ≠ directive ∧ name ∈ fields.keys) ∨
        ∃ fragment ∈ fragments?.getD [], name ∈ OrderedMap.keys fragment := by
  cases fragments? with
  | none =>
      have ordinary : name ∈ fields.keys -> name ≠ directive := by
        rintro member rfl
        exact (OrderedMap.get?_eq_none_iff fields directive).mp (unnamed rfl) member
      simpa [lay] using ordinary
  | some fragments =>
      rw [lay, Fields.mem_keys_merge, OrderedMap.keys_erase, List.mem_filter, decide_eq_true_eq,
        Fields.mem_keys_mergeAll, and_comm, Option.getD_some]

/-! ## Attributes of an expanded descriptor -/

namespace Layers

variable {layers : Layers}

/-- A name that the descriptor brings among its attributes, or the fragments of its root or
of its attributes do.  The fragments of the root lie over one another as whole objects. -/
inductive Supplies (layers : Layers) (name : Text) : Prop
  | own (ordinary : name ≠ directive) (has : name ∈ attributeNames layers.own)
  | root (ordinary : name ≠ directive)
      (has : name ∈ attributeNames (Fields.mergeAll (layers.root.getD [])))
  | among (fragment : Fields) (included : fragment ∈ layers.among.getD [])
      (has : name ∈ (contribution fragment).keys)

theorem attributeNames_expanded :
    attributeNames layers.expanded = (layers.attributes?.getD []).keys := by
  rw [attributeNames, attributesIn_expanded]
  cases layers.attributes? with
  | none => rfl
  | some attributes =>
      rw [Option.map_some, Option.getD_some, Option.getD_some, OrderedMap.keys_mapValues]

theorem mem_attributeNames_whole (keyed : layers.Keyed) (fits : AttributesFit layers.own) :
    name ∈ attributeNames layers.whole ↔ name ∈ attributeNames layers.own ∨
      name ∈ attributeNames (Fields.mergeAll (layers.root.getD [])) := by
  rw [attributeNames, whole, attributesIn_lay keyed.own]
  exact mem_attributeNames_merge keyed.own fits

/-- An expanded descriptor has the attributes that its layers bring. -/
theorem mem_attributeNames_expanded_iff (included : layers.Included tree) (keyed : layers.Keyed)
    (fits : AttributesFit layers.own) :
    name ∈ attributeNames layers.expanded ↔ layers.Supplies name := by
  have lower : name ∈ attributeNames layers.expanded ↔
      (name ≠ directive ∧ name ∈ attributeNames layers.whole) ∨
        ∃ fragment ∈ layers.among.getD [], name ∈ (contribution fragment).keys := by
    rw [attributeNames_expanded, attributes?, attributeNames]
    cases inside : attributesIn layers.whole with
    | none => simp [included.among_eq_none inside]
    | some attributes =>
        have expands := included.among
        rw [inside, Option.bind_some] at expands
        rw [Option.map_some, Option.getD_some, Option.getD_some, mem_keys_lay]
        · cases layers.among <;> simp
        · rw [Option.map_eq_none_iff, expands.eq_none_iff]
          exact id
  rw [lower, mem_attributeNames_whole keyed fits]
  constructor
  · rintro (⟨ordinary, own | root⟩ | ⟨fragment, member, has⟩)
    · exact .own ordinary own
    · exact .root ordinary root
    · exact .among fragment member has
  · intro supplies
    cases supplies with
    | own ordinary has => exact Or.inl ⟨ordinary, Or.inl has⟩
    | root ordinary has => exact Or.inl ⟨ordinary, Or.inr has⟩
    | among fragment member has => exact Or.inr ⟨fragment, member, has⟩

end Layers

/-! ## Fragments that an overlay replaces -/

/-- A directive names the same fragments whenever it is served. -/
theorem Names.unique {value : Json} {first second : List Fields} (names : Names tree value first)
    (again : Names tree value second) : first = second := by
  cases names with
  | one holds =>
      cases again with
      | one held => rw [holds.unique held]
  | several hold =>
      generalize same : Json.arr _ = directed at again
      cases again with
      | one _ => cases same
      | several held =>
          have alike := List.map_injective_iff.mpr (fun _ _ => Json.str.inj) (Json.arr.inj same)
          subst alike
          refine List.right_unique_forall₂' (fun _ _ _ holds again => ?_) hold held
          exact SchemaTree.Holds.unique holds again

theorem Expands.unique {first second : Option (List Fields)} (expands : Expands tree named first)
    (again : Expands tree named second) : first = second := by
  cases named with
  | none => exact expands.trans again.symm
  | some value =>
      rcases expands with ⟨fragments, rfl, names⟩
      rcases again with ⟨others, rfl, namesAgain⟩
      rw [names.unique namesAgain]

/-- What names fragments is no object. -/
theorem Names.isObject_eq_false {value : Json} {fragments : List Fields}
    (names : Names tree value fragments) : value.isObject = false := by
  cases names <;> rfl

namespace Layers

variable {layers lower upper : Layers}

/-- The directive among the attributes is that of the descriptor, if it has one, and else that
of the fragments of its root. -/
theorem directiveAmong_whole (included : layers.Included tree) (keyed : layers.Keyed)
    (fits : AttributesFit layers.own) :
    directiveAmong layers.whole = (directiveAmong layers.own).or
      (directiveAmong (Fields.mergeAll (layers.root.getD []))) := by
  have laid : directiveAmong layers.whole = ((directiveAmong layers.own).map
      (Fields.laid (directiveAmong (Fields.mergeAll (layers.root.getD []))))).or
        (directiveAmong (Fields.mergeAll (layers.root.getD []))) := by
    rw [← directiveAmong_merge keyed.own fits, directiveAmong, whole, attributesIn_lay keyed.own]
    rfl
  rw [laid]
  cases own : directiveAmong layers.own with
  | none => rfl
  | some value =>
      have expands := included.among
      change Expands tree (directiveAmong layers.whole) layers.among at expands
      rw [laid, own, Option.map_some, Option.some_or] at expands
      rcases expands with ⟨fragments, _, names⟩
      have leaf : value.isObject = false := by
        rw [← Fields.isObject_laid]
        exact names.isObject_eq_false
      rw [Option.map_some, Option.some_or, Option.some_or, Fields.laid_of_not_isObject _ leaf]

/-- A name that fragments bring to a descriptor which an overlay takes out of it.  Their
directive is replaced, or it came from fragments of the root whose directive is. -/
inductive Replaced (lower : Layers) (overlay : Fields) (name : Text) : Prop
  | root (replaces : overlay.get? directive ≠ none)
      (has : name ∈ attributeNames (Fields.mergeAll (lower.root.getD [])))
  | among (replaces : directiveAmong overlay ≠ none) (fragment : Fields)
      (included : fragment ∈ lower.among.getD []) (has : name ∈ (contribution fragment).keys)
  | through (replaces : overlay.get? directive ≠ none) (indirect : directiveAmong lower.own = none)
      (fragment : Fields) (included : fragment ∈ lower.among.getD [])
      (has : name ∈ (contribution fragment).keys)

/-- The layers of a descriptor alone and with an overlay merged over it. -/
structure Overlaid (tree : SchemaTree) (lower upper : Layers) (overlay : Fields) : Prop where
  own : upper.own = lower.own.merge overlay
  keyed : Json.Keyed (.obj overlay)
  fits : AttributesFit overlay
  lowerIncluded : lower.Included tree
  upperIncluded : upper.Included tree
  lowerKeyed : lower.Keyed
  upperKeyed : upper.Keyed
  lowerFits : AttributesFit lower.own

namespace Overlaid

variable (overlaid : Overlaid tree lower upper overlay)

include overlaid

theorem upperFits : AttributesFit upper.own := by
  rw [overlaid.own]
  exact overlaid.lowerFits.merge overlaid.keyed overlaid.fits

theorem directiveAmong_own (kept : directiveAmong overlay = none) :
    directiveAmong upper.own = directiveAmong lower.own := by
  rw [overlaid.own, directiveAmong_merge overlaid.keyed overlaid.fits, kept, Option.map_none,
    Option.none_or]

/-- The root includes the same fragments unless the overlay has a directive there. -/
theorem root_eq (kept : overlay.get? directive = none) : upper.root = lower.root := by
  have same : directiveOf upper.own = directiveOf lower.own := by
    unfold directiveOf
    rw [overlaid.own, Fields.get?_merge overlaid.keyed.distinct, kept, Option.map_none,
      Option.none_or]
  have expands := overlaid.upperIncluded.root
  rw [same] at expands
  exact expands.unique overlaid.lowerIncluded.root

/-- The same fragments are included among the attributes unless the overlay has a directive
there, or the directive came from the root and the overlay has one at the root. -/
theorem among_eq (kept : directiveAmong overlay = none)
    (reaches : overlay.get? directive = none ∨ directiveAmong lower.own ≠ none) :
    upper.among = lower.among := by
  have same : directiveAmong upper.whole = directiveAmong lower.whole := by
    rw [directiveAmong_whole overlaid.upperIncluded overlaid.upperKeyed overlaid.upperFits,
      directiveAmong_whole overlaid.lowerIncluded overlaid.lowerKeyed overlaid.lowerFits,
      overlaid.directiveAmong_own kept]
    rcases reaches with root | own
    · rw [overlaid.root_eq root]
    · rcases Option.ne_none_iff_exists'.mp own with ⟨value, found⟩
      rw [found, Option.some_or, Option.some_or]
  have expands : Expands tree (directiveAmong upper.whole) upper.among :=
    overlaid.upperIncluded.among
  rw [same] at expands
  exact expands.unique overlaid.lowerIncluded.among

/-- What the descriptor itself brings is kept. -/
theorem supplies_of_own (ordinary : name ≠ directive) (has : name ∈ attributeNames lower.own) :
    upper.Supplies name := by
  refine .own ordinary ?_
  rw [overlaid.own]
  exact (mem_attributeNames_merge overlaid.keyed overlaid.fits).mpr (Or.inr has)

/-- What is brought no more was brought by fragments that are replaced. -/
theorem replaced_of_not_supplies (supplies : lower.Supplies name)
    (lost : ¬upper.Supplies name) : lower.Replaced overlay name := by
  cases supplies with
  | own ordinary has => exact absurd (overlaid.supplies_of_own ordinary has) lost
  | root ordinary has =>
      by_cases kept : overlay.get? directive = none
      · rw [← overlaid.root_eq kept] at has
        exact absurd (.root ordinary has) lost
      · exact .root kept has
  | among fragment included has =>
      by_cases kept : directiveAmong overlay = none
      · by_cases reaches : overlay.get? directive = none ∨ directiveAmong lower.own ≠ none
        · rw [← overlaid.among_eq kept reaches] at included
          exact absurd (.among fragment included has) lost
        · rw [not_or, not_not] at reaches
          exact .through reaches.1 reaches.2 fragment included has
      · exact .among kept fragment included has

end Overlaid

/-- How the names of attributes fare where an overlay is merged over a descriptor. -/
structure KeepsAttributes (lower upper : Layers) (overlay : Fields) : Prop where
  alone : forall name : Text, name ∈ attributeNames lower.expanded ↔ lower.Supplies name
  merged : forall name : Text, name ∈ attributeNames upper.expanded ↔ upper.Supplies name
  own : ∀ name ∈ attributeNames lower.own, name ≠ directive -> name ∈ attributeNames upper.expanded
  lost : ∀ name ∈ attributeNames lower.expanded, name ∉ attributeNames upper.expanded ->
    lower.Replaced overlay name
  kept : overlay.get? directive = none -> directiveAmong overlay = none ->
    ∀ name ∈ attributeNames lower.expanded, name ∈ attributeNames upper.expanded

theorem Overlaid.keepsAttributes (overlaid : Overlaid tree lower upper overlay) :
    KeepsAttributes lower upper overlay := by
  have alone : forall name : Text,
      name ∈ attributeNames lower.expanded ↔ lower.Supplies name := fun _ =>
    mem_attributeNames_expanded_iff overlaid.lowerIncluded overlaid.lowerKeyed overlaid.lowerFits
  have merged : forall name : Text,
      name ∈ attributeNames upper.expanded ↔ upper.Supplies name := fun _ =>
    mem_attributeNames_expanded_iff overlaid.upperIncluded overlaid.upperKeyed overlaid.upperFits
  have lost : ∀ name ∈ attributeNames lower.expanded, name ∉ attributeNames upper.expanded ->
      lower.Replaced overlay name := by
    intro name before after
    exact overlaid.replaced_of_not_supplies ((alone name).mp before)
      fun supplies => after ((merged name).mpr supplies)
  refine ⟨alone, merged, fun name has ordinary => ?_, lost, fun root among name before => ?_⟩
  · exact (merged name).mpr (overlaid.supplies_of_own ordinary has)
  · by_contra after
    cases lost name before after with
    | root replaces _ => exact replaces root
    | among replaces _ _ _ => exact replaces among
    | through replaces _ _ _ _ => exact replaces root

end Layers

/-- Where a descriptor expands alone and with an overlay merged over it, the overlay only takes
away attributes of fragments whose directive it replaces, at the root or among the attributes.
All that the descriptor has of its own is kept. -/
theorem expand_overlay_keeps_attributes {owner : Text} {alone merged attributes : Fields}
    (keyedBase : Json.Keyed (.obj base)) (keyedOverlay : Json.Keyed (.obj overlay))
    (fits : overlay.get? "attributes" = none ∨ ∃ own, overlay.get? "attributes" = some (.obj own))
    (expandsAlone : (Session.expand tree owner base []).1.outcome = .ok alone)
    (expandsMerged : (Session.expand tree owner (base.merge overlay) []).1.outcome = .ok merged)
    (inside : attributesIn alone = some attributes) :
    ∃ lower upper : Layers, lower.own = base ∧ lower.Included tree ∧ lower.expanded = alone ∧
      upper.own = base.merge overlay ∧ upper.Included tree ∧ upper.expanded = merged ∧
      Layers.KeepsAttributes lower upper overlay := by
  have attributesFit : AttributesFit overlay := by
    refine fits.imp_right fun ⟨own, held⟩ => ⟨own, attributesIn_eq_some_iff.mpr held⟩
  have keyedMerged := Fields.keyed_merge keyedBase keyedOverlay
  rw [(fetches_expand owner _).follows.outcome [] Session.faithful_nil]
    at expandsAlone expandsMerged
  rcases exists_layers_of_expand keyedBase expandsAlone with ⟨lower, rfl, lowerIncluded, rfl⟩
  rcases exists_layers_of_expand keyedMerged expandsMerged with ⟨upper, own, upperIncluded, rfl⟩
  have lowerFits : AttributesFit lower.own := by
    rw [Layers.attributesIn_expanded, Option.map_eq_some_iff] at inside
    rcases inside with ⟨_, laid, _⟩
    rcases Option.map_eq_some_iff.mp laid with ⟨whole, held, _⟩
    rw [Layers.whole, attributesIn_lay keyedBase] at held
    exact attributesFit_of_merge keyedBase held
  have overlaid : Layers.Overlaid tree lower upper overlay :=
    { own, keyed := keyedOverlay, fits := attributesFit, lowerIncluded, upperIncluded,
      lowerKeyed := lowerIncluded.keyed keyedBase
      upperKeyed := upperIncluded.keyed (own ▸ keyedMerged)
      lowerFits }
  exact ⟨lower, upper, rfl, lowerIncluded, rfl, own, upperIncluded, rfl, overlaid.keepsAttributes⟩

/-- A schema with two fragments that bring different attributes. -/
def partsTree : SchemaTree :=
  let files : MemoryTree :=
    { files :=
        [(Path.parse "s/f.json", "\x7b\"attributes\": \x7b\"x\": \x7b\x7d\x7d\x7d"),
         (Path.parse "s/g.json", "\x7b\"attributes\": \x7b\"y\": \x7b\x7d\x7d\x7d")]
      unreadable := [] }
  SchemaTree.below files.source (Path.parse "s") "extensions"

/-- A descriptor that includes the first fragment among its attributes. -/
def includingUser : Fields :=
  [("type", .str "user"),
   ("attributes", .obj [("$include", .str "f.json"), ("own", .obj [("$include", .str "f.json")])])]

/-- What it expands to. -/
def includedUser : Fields :=
  [("type", .str "user"),
   ("attributes", .obj
     [("x", .obj []), ("own", .obj [("attributes", .obj [("x", .obj [])])])])]

/-- An overlay that includes the other fragment in a single attribute. -/
def innerOverlay : Fields :=
  [("type", .str "user"),
   ("attributes", .obj [("own", .obj [("$include", .str "g.json")]), ("note", .obj [])])]

/-- An overlay that includes the other fragment among the attributes. -/
def replacingOverlay : Fields :=
  [("type", .str "user"), ("attributes", .obj [("$include", .str "g.json")])]

theorem keyed_includingUser : Json.Keyed (.obj includingUser) := by
  have written : Json.read (Json.obj includingUser).write = .ok (.obj includingUser) := by
    decide +kernel
  exact (Json.wellFormed_of_read written).keyed

theorem expand_includingUser :
    (Session.expand partsTree "user" includingUser []).1.outcome = .ok includedUser := by
  rw [← Outcome.toOption_eq_some_iff]
  decide +kernel

/-- A directive in a single attribute replaces one there, and no attribute is lost. -/
theorem expand_overlay_keeps_attributes_around_attribute :
    let merged : Fields :=
      [("type", .str "user"),
       ("attributes", .obj
         [("x", .obj []), ("own", .obj [("attributes", .obj [("y", .obj [])])]),
          ("note", .obj [])])]
    Json.Keyed (.obj includingUser) ∧ Json.Keyed (.obj innerOverlay) ∧
      (∃ own, innerOverlay.get? "attributes" = some (.obj own)) ∧
      (Session.expand partsTree "user" includingUser []).1.outcome = .ok includedUser ∧
      (Session.expand partsTree "user" (includingUser.merge innerOverlay) []).1.outcome =
        .ok merged ∧
      (∃ attributes, attributesIn includedUser = some attributes) ∧
      ∃ lower upper : Layers, lower.own = includingUser ∧ lower.Included partsTree ∧
        lower.expanded = includedUser ∧ upper.own = includingUser.merge innerOverlay ∧
        upper.Included partsTree ∧ upper.expanded = merged ∧
        Layers.KeepsAttributes lower upper innerOverlay := by
  intro merged
  have keyed : Json.Keyed (.obj innerOverlay) := by
    have written : Json.read (Json.obj innerOverlay).write = .ok (.obj innerOverlay) := by
      decide +kernel
    exact (Json.wellFormed_of_read written).keyed
  have expands : (Session.expand partsTree "user" (includingUser.merge innerOverlay)
      []).1.outcome = .ok merged := by
    rw [← Outcome.toOption_eq_some_iff]
    decide +kernel
  exact ⟨keyed_includingUser, keyed, ⟨_, rfl⟩, expand_includingUser, expands, ⟨_, rfl⟩,
    expand_overlay_keeps_attributes keyed_includingUser keyed (Or.inr ⟨_, rfl⟩)
      expand_includingUser expands rfl⟩

/-- A directive among the attributes replaces that of the descriptor, and the attribute of its
fragment is lost. -/
theorem expand_overlay_replaces_fragment :
    ∃ merged, (∃ own, replacingOverlay.get? "attributes" = some (.obj own)) ∧
      (Session.expand partsTree "user" includingUser []).1.outcome = .ok includedUser ∧
      (Session.expand partsTree "user" (includingUser.merge replacingOverlay) []).1.outcome =
        .ok merged ∧
      (∃ attributes, attributesIn includedUser = some attributes) ∧
      ("x" : Text) ∈ attributeNames includedUser ∧ ("x" : Text) ∉ attributeNames merged := by
  refine ⟨[("type", .str "user"), ("attributes", .obj
      [("y", .obj []), ("own", .obj [("attributes", .obj [("x", .obj [])])])])],
    ⟨_, rfl⟩, expand_includingUser, ?_, ⟨_, rfl⟩, by decide, by decide⟩
  rw [← Outcome.toOption_eq_some_iff]
  decide +kernel

end Inclusion
end EventSchema
