import EventSchema.Proofs.Identifiers
import EventSchema.Record.Register

namespace EventSchema

/-!
# The enumerations of an identified class

An identified class has three enumerations of its own.  Whatever was declared for
their attributes, an enumeration is replaced as a whole and its attribute is
credited to the class; every other field that was declared stays.

The number of the class and that of its category are the only codes of their
enumerations.  The codes of events are those of the dispositions that the class
declares, and those for `Other` and `Unknown`, which no disposition takes away.
-/

namespace Category

/-- The fields of a category that its classes show: those that are filled, without
the range of class numbers. -/
def shownFields (category : Category) : Fields :=
  (Record.toFields .full category).filter fun entry =>
    entry.1 ≠ "class_id_range" ∧ entry.2 ≠ .null

/-- Without its range, a category is written as the fields that are shown. -/
theorem toFields_compact_eq_shownFields {category : Category}
    (undeclared : ∀ key ∈ category.extra.keys, key ∉ declared) :
    Record.toFields .compact { category with classIdRange := .null } = category.shownFields := by
  have kept : ∀ entry ∈ category.extra, entry.1 ≠ "class_id_range" := by
    intro entry member same
    exact undeclared entry.1 (OrderedMap.mem_keys_of_mem member) (same ▸ by decide)
  simp only [Record.toFields, Form.finish, shownFields, List.filter_append]
  congr 1
  · simp [declaredFields, List.filter_cons]
  · exact List.filter_congr fun entry member => by simp [kept entry member]

end Category

namespace Attributes

/-- The field of an attribute, if there is one. -/
def fieldOf? (attributes : Attributes) (name key : Text) : Option Json :=
  (attributes.get? name).bind fun definition => definition.get? key

/-- Crediting alters no field but the source. -/
theorem fieldOf?_creditTo (attributes : Attributes) (owner name : Text) {key : Text}
    (notSource : key ≠ sourceKey) :
    fieldOf? (attributes.creditTo owner) name key = fieldOf? attributes name key := by
  rw [fieldOf?, fieldOf?, creditTo, OrderedMap.get?_mapValues]
  cases attributes.get? name with
  | none => rfl
  | some definition =>
      rw [Option.map_some, Option.bind_some, Option.bind_some]
      split
      · rfl
      · exact OrderedMap.get?_insert_of_ne _ _ (Ne.symm notSource)

end Attributes

namespace Identifiers

open Attributes

variable {attributes : Attributes} {owner caption name : Text} {uid : Int} {codes : Fields}

/-! ## Replaced enumerations -/

/-- A definition that enumerates codes for its owner and is otherwise as declared. -/
structure Enumerates (owner : Text) (codes : Fields) (declared : Text -> Option Json)
    (definition : Fields) : Prop where
  codes : definition.get? "enum" = some (.obj codes)
  source : definition.get? Attributes.sourceKey = some (.str owner)
  kept : forall key : Text, key ≠ "enum" -> key ≠ Attributes.sourceKey ->
    definition.get? key = declared key

theorem enumerates_enumerate (attributes : Attributes) (name owner : Text) (codes : Fields) :
    Enumerates owner codes (fieldOf? attributes name)
      (enumerate attributes name owner codes) where
  codes := by
    rw [enumerate, OrderedMap.get?_insert_of_ne _ _ (by decide), OrderedMap.get?_insert_self]
  source := OrderedMap.get?_insert_self _ _ _
  kept key notEnum notSource := by
    rw [enumerate, OrderedMap.get?_insert_of_ne _ _ (Ne.symm notSource),
      OrderedMap.get?_insert_of_ne _ _ (Ne.symm notEnum), fieldOf?]
    cases attributes.get? name with
    | none => rfl
    | some definition => rfl

/-! ## Codes of events -/

/-- A class declares a disposition of a number. -/
def HasDisposition (attributes : Attributes) (number : Int) : Prop :=
  ∃ enumerated, dispositions attributes = .ok enumerated ∧
    ∃ entry ∈ enumerated, Numeral.readAnyScript? entry.1 = some number

/-- The codes of the events of a class: one for each disposition that the class
declares, and the two that every class has. -/
structure EventCodes (attributes : Attributes) (caption : Text) (uid : Int) (codes : Fields) :
    Prop where
  other : codes.get? (toString otherCode) = some (named caption "Other")
  unknown : codes.get? (toString (uid * codesPerClass)) = some (named caption "Unknown")
  complete : forall key : Text, key ∈ codes.keys ↔
    key = toString otherCode ∨ key = toString (uid * codesPerClass) ∨
      ∃ number, HasDisposition attributes number ∧ key = toString (uid * codesPerClass + number)

/-- A disposition with a number adds its code, and any other adds nothing. -/
theorem mem_keys_addDisposition_iff {entry : Text × Json} {next : Fields}
    (adds : (addDisposition name caption uid codes entry).outcome = .ok next) (key : Text) :
    key ∈ next.keys ↔ key ∈ codes.keys ∨ ∃ number, Numeral.readAnyScript? entry.1 = some number ∧
      key = toString (uid * codesPerClass + number) := by
  unfold addDisposition at adds
  split at adds
  · next unnumbered =>
      cases adds
      simp [unnumbered]
  · next number numbered =>
      split at adds
      · next definition held =>
          simp only [Report.outcome_bind, Report.outcome_liftM, Outcome.bind_eq_ok_iff, eventCode,
            writeInteger_eq_ok_iff, Report.outcome_pure] at adds
          rcases adds with ⟨_, ⟨_, rfl⟩, same⟩
          cases same
          rw [OrderedMap.mem_keys_insert]
          simp [numbered, or_comm]
      · cases adds

/-- A run over dispositions adds the codes of all that have a number. -/
theorem mem_keys_foldlM_addDisposition_iff {enumerated start : Fields}
    (folds : enumerated.foldlM
      (fun codes entry => (addDisposition name caption uid codes entry).outcome) start = .ok codes)
    (key : Text) :
    key ∈ codes.keys ↔ key ∈ start.keys ∨ ∃ entry ∈ enumerated, ∃ number,
      Numeral.readAnyScript? entry.1 = some number ∧
        key = toString (uid * codesPerClass + number) := by
  induction enumerated generalizing start with
  | nil =>
      cases folds
      simp
  | cons entry rest ih =>
      rw [List.foldlM_cons] at folds
      rcases Outcome.bind_eq_ok_iff.mp folds with ⟨middle, first, folds⟩
      rw [ih folds, mem_keys_addDisposition_iff first]
      simp only [List.mem_cons, or_and_right, exists_or, exists_eq_left, or_assoc]

/-- The codes that a class is given are complete.  `Other` keeps its code, as that
of `Unknown` is a multiple of a thousand. -/
theorem eventCodes_of_eventCodes {cls : ClassDescriptor}
    (made : (eventCodes name cls uid).outcome = .ok codes) :
    EventCodes cls.attributes cls.displayName uid codes := by
  unfold eventCodes at made
  simp only [Report.outcome_bind, Report.outcome_liftM, Outcome.bind_eq_ok_iff, eventCode,
    writeInteger_eq_ok_iff, Report.outcome_pure, Report.outcome_foldlM, unknownDisposition,
    Int.add_zero] at made
  rcases made with ⟨enumerated, listed, own, folds, _, ⟨_, rfl⟩, same⟩
  cases same
  have apart : ((toString (uid * codesPerClass) : String) : Text) ≠
      (toString otherCode : String) := by
    rw [ne_eq, Numeral.toString_text_inj, codesPerClass, otherCode]
    omega
  have disposed : forall number : Int, HasDisposition cls.attributes number ↔
      ∃ entry ∈ enumerated, Numeral.readAnyScript? entry.1 = some number := by
    intro number
    constructor
    · rintro ⟨_, again, found⟩
      cases listed.symm.trans again
      exact found
    · exact fun found => ⟨enumerated, listed, found⟩
  constructor
  · rw [OrderedMap.get?_insert_of_ne _ _ apart, OrderedMap.get?_insert_self]
  · exact OrderedMap.get?_insert_self _ _ _
  · intro key
    rw [OrderedMap.mem_keys_insert, OrderedMap.mem_keys_insert,
      mem_keys_foldlM_addDisposition_iff folds, or_left_comm]
    simp only [OrderedMap.keys_nil, List.not_mem_nil, false_or, disposed]
    refine or_congr_right (or_congr_right ?_)
    constructor
    · rintro ⟨entry, member, number, numbered, same⟩
      exact ⟨number, ⟨entry, member, numbered⟩, same⟩
    · rintro ⟨number, ⟨entry, member, numbered⟩, same⟩
      exact ⟨entry, member, number, numbered, same⟩

/-- Dispositions are only read off the enumeration that a class declares for them. -/
theorem EventCodes.congr {other : Attributes} (events : EventCodes attributes caption uid codes)
    (same : fieldOf? other "disposition_id" "enum" = fieldOf? attributes "disposition_id" "enum") :
    EventCodes other caption uid codes where
  other := events.other
  unknown := events.unknown
  complete key := by
    have alike : dispositions other = dispositions attributes := by
      unfold fieldOf? at same
      rw [dispositions, same, dispositions]
    simp only [HasDisposition, alike]
    exact events.complete key

/-! ## Identified classes -/

/-- The one code of a class with a number. -/
def numberCodes (cls : ClassDescriptor) (uid : Int) : Fields :=
  [(toString uid,
    .obj [("name", Field.ofText? cls.name), ("description", Field.ofText? cls.description)])]

/-- The one code of a class in a category. -/
def shownCodes (category : Category) : Fields :=
  [(toString category.id, .obj category.shownFields)]

/-- What holds of a class that has received its identifiers, where `declared` gives
the fields that were declared for an attribute. -/
structure Identified (categories : OrderedMap Text Category) (owner : Text)
    (declared : Text -> Text -> Option Json) (cls : ClassDescriptor) : Prop where
  classId : ∃ uid definition, cls.details.uid = some uid ∧
    cls.attributes.get? "class_id" = some definition ∧
    Enumerates owner (numberCodes cls uid) (declared "class_id") definition
  categoryId : ∃ key category definition, cls.details.category = some key ∧
    categories.get? key = some category ∧ cls.attributes.get? "category_id" = some definition ∧
    Enumerates owner (shownCodes category) (declared "category_id") definition
  eventUid : ∃ uid codes definition, cls.details.uid = some uid ∧
    EventCodes cls.attributes cls.displayName uid codes ∧
    cls.attributes.get? "event_uid" = some definition ∧
    Enumerates owner codes (declared "event_uid") definition

/-- The number of a class is the only code of its own enumeration. -/
theorem eq_numberCodes {cls : ClassDescriptor} (made : classCodes cls uid = .ok codes) :
    codes = numberCodes cls uid := by
  rcases Outcome.bind_eq_ok_iff.mp made with ⟨code, writes, same⟩
  rcases writeInteger_eq_ok_iff.mp writes with ⟨_, rfl⟩
  exact (Except.ok.inj same).symm

/-- The number of its category is the only code of a class's category. -/
theorem exists_eq_shownCodes {categories : OrderedMap Text Category}
    (undeclared : ∀ entry ∈ categories, ∀ key ∈ entry.2.extra.keys, key ∉ Category.declared)
    {cls : ClassDescriptor} (made : categoryCodes categories cls = .ok codes) :
    ∃ key category, cls.details.category = some key ∧ categories.get? key = some category ∧
      codes = shownCodes category := by
  unfold categoryCodes at made
  split at made
  · cases made
  · next category found =>
      rcases Option.bind_eq_some_iff.mp found with ⟨key, chosen, held⟩
      rcases Outcome.bind_eq_ok_iff.mp made with ⟨code, writes, same⟩
      rcases writeInteger_eq_ok_iff.mp writes with ⟨_, rfl⟩
      have own := undeclared (key, category) (OrderedMap.mem_of_get?_eq_some held)
      cases same
      refine ⟨key, category, chosen, held, ?_⟩
      rw [shownCodes, Record.toJson, Category.toFields_compact_eq_shownFields own]

/-- The attributes that identification makes itself. -/
def madeNames : List Text := ["event_uid", "class_id", "category_id"]

/-- Each of them enumerates codes for the class. -/
theorem Identified.exists_enumerates {categories : OrderedMap Text Category}
    {declared : Text -> Text -> Option Json} {cls : ClassDescriptor}
    (identified : Identified categories owner declared cls) (made : name ∈ madeNames) :
    ∃ codes definition, cls.attributes.get? name = some definition ∧
      Enumerates owner codes (declared name) definition := by
  simp only [madeNames, List.mem_cons, List.not_mem_nil, or_false] at made
  rcases made with rfl | rfl | rfl
  · rcases identified.eventUid with ⟨_, _, _, _, _, found, enumerates⟩
    exact ⟨_, _, found, enumerates⟩
  · rcases identified.classId with ⟨_, _, _, found, enumerates⟩
    exact ⟨_, _, found, enumerates⟩
  · rcases identified.categoryId with ⟨_, _, _, _, _, found, enumerates⟩
    exact ⟨_, _, found, enumerates⟩

/-- They are credited to the class. -/
theorem Identified.source {categories : OrderedMap Text Category}
    {declared : Text -> Text -> Option Json} {cls : ClassDescriptor}
    (identified : Identified categories owner declared cls) (made : name ∈ madeNames)
    {definition : Fields} (found : cls.attributes.get? name = some definition) :
    definition.get? Attributes.sourceKey = some (.str owner) := by
  rcases identified.exists_enumerates made with ⟨_, _, held, enumerates⟩
  cases found.symm.trans held
  exact enumerates.source

/-- All other attributes are only credited. -/
theorem get?_attributes_of_identify {categories : OrderedMap Text Category}
    {cls identified : ClassDescriptor}
    (identifies : (identify categories owner cls uid).outcome = .ok identified)
    (other : name ∉ madeNames) :
    identified.attributes.get? name = (cls.attributes.creditTo owner).get? name := by
  rcases exists_codes_of_identify identifies with ⟨_, _, _, _, _, _, rfl⟩
  simp only [madeNames, List.mem_cons, List.not_mem_nil, or_false, not_or] at other
  rw [OrderedMap.get?_insert_of_ne _ _ (Ne.symm other.2.2),
    OrderedMap.get?_insert_of_ne _ _ (Ne.symm other.2.1),
    OrderedMap.get?_insert_of_ne _ _ (Ne.symm other.1)]

/-- An identified class has its enumerations, over all that it declared itself. -/
theorem identified_of_identify {categories : OrderedMap Text Category}
    (undeclared : ∀ entry ∈ categories, ∀ key ∈ entry.2.extra.keys, key ∉ Category.declared)
    {cls identified : ClassDescriptor} (numbered : cls.details.uid = some uid)
    (identifies : (identify categories name cls uid).outcome = .ok identified) :
    Identified categories name (fieldOf? cls.attributes) identified := by
  have dispositions : fieldOf? identified.attributes "disposition_id" "enum" =
      fieldOf? cls.attributes "disposition_id" "enum" := by
    rw [fieldOf?, get?_attributes_of_identify identifies (by decide)]
    exact fieldOf?_creditTo cls.attributes name "disposition_id" (by decide)
  rcases exists_codes_of_identify identifies with
    ⟨events, own, category, made, ownMade, categoryMade, rfl⟩
  have replaced := enumerates_enumerate cls.attributes
  constructor
  · cases eq_numberCodes ownMade
    refine ⟨uid, _, numbered, ?_, replaced "class_id" name _⟩
    rw [OrderedMap.get?_insert_of_ne _ _ (by decide), OrderedMap.get?_insert_self]
    rfl
  · rcases exists_eq_shownCodes undeclared categoryMade with ⟨key, found, chosen, held, rfl⟩
    exact ⟨key, found, _, chosen, held, OrderedMap.get?_insert_self _ _ _,
      replaced "category_id" name _⟩
  · refine ⟨uid, events, _, numbered, ?_, ?_, replaced "event_uid" name events⟩
    · exact (eventCodes_of_eventCodes made).congr dispositions
    · rw [OrderedMap.get?_insert_of_ne _ _ (by decide),
        OrderedMap.get?_insert_of_ne _ _ (by decide), OrderedMap.get?_insert_self]

end Identifiers
end EventSchema
