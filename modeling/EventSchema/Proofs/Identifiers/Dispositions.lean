import EventSchema.Proofs.Identifiers.Enumerations
import EventSchema.Proofs.Sorting

namespace EventSchema

/-!
# Event codes, disposition by disposition

The codes of a class are assigned one after another: one for each disposition whose key is
an integer, in the order of the keys, and then the two that every class has.  Several keys
may stand for one integer.  Its code then has the place of the first of them and the value
of the last.  The codes that every class has are assigned last, so a disposition that meets
one of them only gives it a place.

A key that is no integer is passed over with one warning.
-/

namespace Report

variable {α β : Type}

/-- A step that succeeds hands its value on, and its events come first. -/
theorem ok_bind_eq (events : List Event) (value : α) (next : α -> Report β) :
    (⟨events, .ok value⟩ : Report α) >>= next =
      ⟨events ++ (next value).events, (next value).outcome⟩ := rfl

theorem liftM_ok_bind (value : α) (next : α -> Report β) :
    (liftM (Except.ok value : Except Failure α) : Report α) >>= next = next value := rfl

end Report

namespace Identifiers

open Attributes

variable {attributes : Attributes} {name caption : Text} {uid : Int} {codes : Fields}
  {entry : Text × Json}

/-! ## What is assigned -/

/-- The dispositions that a class enumerates, if it enumerates any. -/
def listed (attributes : Attributes) : Fields :=
  match fieldOf? attributes "disposition_id" "enum" with
  | some (.obj enumerated) => enumerated
  | _ => []

/-- The code of a disposition of a class, if its key is an integer. -/
def codeOf? (uid : Int) (entry : Text × Json) : Option Int :=
  (Numeral.readAnyScript? entry.1).map fun disposition => uid * codesPerClass + disposition

/-- What a code shows: the fields of its disposition, under a name that starts with that of
the class. -/
def shownDisposition (caption : Text) : Json -> Json
  | .obj definition =>
      .obj (OrderedMap.insert definition "name"
        (.str (eventName caption ((OrderedMap.get? definition "name").getD .null))))
  | value => value

/-- What a disposition is assigned. -/
def assigned? (caption : Text) (uid : Int) (entry : Text × Json) : Option (Text × Json) :=
  (codeOf? uid entry).map fun code => (↑(toString code), shownDisposition caption entry.2)

/-- What every class is assigned after its dispositions. -/
def commonCodes (caption : Text) (uid : Int) : List (Text × Json) :=
  [(toString otherCode, named caption "Other"),
    (toString (uid * codesPerClass), named caption "Unknown")]

/-- All that is assigned to a class, in order. -/
def assignments (attributes : Attributes) (caption : Text) (uid : Int) : List (Text × Json) :=
  (listed attributes).filterMap (assigned? caption uid) ++ commonCodes caption uid

/-- The warning about a key that is no integer. -/
def keyWarning (name : Text) (entry : Text × Json) : Event :=
  .note .warning (name ++ ": ignoring non-numeric disposition_id value " ++ Text.quoted entry.1)

/-- The entries whose keys are no integers. -/
def unread (entries : Fields) : Fields :=
  entries.filter fun entry => Numeral.readAnyScript? entry.1 = none

/-- What makes the dispositions of a class fit for codes: they are not given or they are an
object, each of them is an object, and no code has more digits than may be written. -/
structure Enumerable (attributes : Attributes) (uid : Int) : Prop where
  object : forall value : Json, fieldOf? attributes "disposition_id" "enum" = some value ->
    value.isGiven = true -> value.isObject = true
  objects : ∀ entry ∈ listed attributes, entry.2.isObject = true
  writable : ∀ entry ∈ listed attributes, forall code : Int, codeOf? uid entry = some code ->
    Numeral.writable code = true
  unknown : Numeral.writable (uid * codesPerClass) = true

/-- What is not given counts as no dispositions. -/
theorem dispositions_eq_listed (enumerable : Enumerable attributes uid) :
    dispositions attributes = .ok (listed attributes) := by
  unfold dispositions listed
  rw [← fieldOf?]
  cases found : fieldOf? attributes "disposition_id" "enum" with
  | none => rfl
  | some value =>
      have shape := enumerable.object value found
      cases value with
      | obj enumerated => cases enumerated <;> rfl
      | _ =>
          have absent := mt shape Bool.false_ne_true
          rw [Bool.not_eq_true] at absent
          simp [absent]

/-- A disposition with a code is assigned it, and any other is warned about. -/
theorem addDisposition_eq (name caption : Text) (codes : Fields)
    (object : entry.2.isObject = true)
    (writable : forall code : Int, codeOf? uid entry = some code ->
      Numeral.writable code = true) :
    addDisposition name caption uid codes entry =
      ⟨(unread [entry]).map (keyWarning name),
        .ok (codes.insertAll ([entry].filterMap (assigned? caption uid)))⟩ := by
  rcases entry with ⟨key, value⟩
  unfold addDisposition
  cases numbered : Numeral.readAnyScript? key with
  | none =>
      simp [unread, assigned?, codeOf?, numbered, keyWarning, Report.note, Report.event]
      rfl
  | some disposition =>
      have coded : codeOf? uid (key, value) = some (uid * codesPerClass + disposition) := by
        rw [codeOf?, numbered, Option.map_some]
      have writes := writeInteger_eq_ok_iff.mpr ⟨writable _ coded, rfl⟩
      cases value with
      | obj definition =>
          simp [unread, assigned?, coded, numbered, eventCode, writes]
          rfl
      | _ => cases object

/-- A run over dispositions assigns the codes of all that have one. -/
theorem foldlM_addDisposition_eq (name caption : Text) {enumerated : Fields} (codes : Fields)
    (objects : ∀ entry ∈ enumerated, entry.2.isObject = true)
    (writable : ∀ entry ∈ enumerated, forall code : Int, codeOf? uid entry = some code ->
      Numeral.writable code = true) :
    enumerated.foldlM (addDisposition name caption uid) codes =
      ⟨(unread enumerated).map (keyWarning name),
        .ok (codes.insertAll (enumerated.filterMap (assigned? caption uid)))⟩ := by
  induction enumerated generalizing codes with
  | nil => rfl
  | cons entry rest ih =>
      rw [List.forall_mem_cons] at objects writable
      have first := addDisposition_eq name caption codes objects.1 writable.1
      have warned : unread (entry :: rest) = unread [entry] ++ unread rest :=
        List.filter_append [entry] rest
      have assigned : (entry :: rest).filterMap (assigned? caption uid) =
          [entry].filterMap (assigned? caption uid) ++ rest.filterMap (assigned? caption uid) :=
        List.filterMap_append (l := [entry])
      rw [List.foldlM_cons, first, Report.ok_bind_eq, ih _ objects.2 writable.2, warned, assigned,
        List.map_append, OrderedMap.insertAll_append]

/-- The codes of a class come of all that is assigned to it. -/
theorem eventCodes_eq (name : Text) {cls : ClassDescriptor}
    (enumerable : Enumerable cls.attributes uid) :
    eventCodes name cls uid =
      ⟨(unread (listed cls.attributes)).map (keyWarning name),
        .ok (OrderedMap.ofEntries (assignments cls.attributes cls.displayName uid))⟩ := by
  have writes : eventCode uid unknownDisposition = .ok ↑(toString (uid * codesPerClass)) := by
    rw [eventCode, unknownDisposition, Int.add_zero]
    exact writeInteger_eq_ok_iff.mpr ⟨enumerable.unknown, rfl⟩
  have folds := foldlM_addDisposition_eq name cls.displayName [] enumerable.objects
    enumerable.writable
  unfold eventCodes
  rw [dispositions_eq_listed enumerable, Report.liftM_ok_bind]
  dsimp only
  rw [folds, Report.ok_bind_eq, writes, Report.liftM_ok_bind, OrderedMap.ofEntries, assignments,
    OrderedMap.insertAll_append]
  exact congrArg (Report.mk · _) (List.append_nil _)

/-! ## The codes of a class -/

/-- The dispositions with a code, in order. -/
def withCode (attributes : Attributes) (uid code : Int) : Fields :=
  (listed attributes).filter fun entry => codeOf? uid entry = some code

/-- The codes of a class, each with what it shows. -/
structure DispositionCodes (attributes : Attributes) (caption : Text) (uid : Int)
    (codes : Fields) : Prop where
  other : codes.get? (toString otherCode) = some (named caption "Other")
  unknown : codes.get? (toString (uid * codesPerClass)) = some (named caption "Unknown")
  present : forall code : Int, code ≠ otherCode -> code ≠ uid * codesPerClass ->
    (↑(toString code) ∈ codes.keys ↔ ∃ entry ∈ listed attributes, codeOf? uid entry = some code)
  shown : forall code : Int, code ≠ otherCode -> code ≠ uid * codesPerClass ->
    codes.get? (toString code) =
      (withCode attributes uid code).getLast?.map fun entry => shownDisposition caption entry.2
  keys : codes.keys = ((listed attributes).filterMap (codeOf? uid) ++
    [otherCode, uid * codesPerClass]).eraseDups.map fun code => (toString code : Text)

/-- A text is assigned by the dispositions with the code that it stands for. -/
theorem filter_assigned (attributes : Attributes) (caption : Text) (uid code : Int) :
    ((listed attributes).filterMap (assigned? caption uid)).filter
        (fun entry => entry.1 = ↑(toString code)) =
      (withCode attributes uid code).map fun entry =>
        (↑(toString code), shownDisposition caption entry.2) := by
  rw [List.filter_filterMap, withCode, ← List.filterMap_eq_map, List.filterMap_filter]
  refine List.filterMap_congr fun entry _ => ?_
  cases coded : codeOf? uid entry with
  | none => simp [assigned?, coded]
  | some other =>
      rw [assigned?, coded, Option.map_some, Option.filter_some]
      simp only [Numeral.toString_text_inj, decide_eq_true_eq, Option.some.injEq]
      by_cases same : other = code
      · rw [if_pos same, if_pos same, same]
        rfl
      · rw [if_neg same, if_neg same]

/-- The code of `Other` is no multiple of a thousand. -/
theorem unknownCode_ne_otherCode (uid : Int) :
    (toString (uid * codesPerClass) : Text) ≠ toString otherCode := by
  rw [ne_eq, Numeral.toString_text_inj, codesPerClass, otherCode]
  omega

/-- A code beside the two that every class has shows the last disposition that has it. -/
theorem get?_ofEntries_assignments (attributes : Attributes) (caption : Text) {uid code : Int}
    (notOther : code ≠ otherCode) (notUnknown : code ≠ uid * codesPerClass) :
    (OrderedMap.ofEntries (assignments attributes caption uid)).get? (toString code) =
      (withCode attributes uid code).getLast?.map fun entry =>
        shownDisposition caption entry.2 := by
  have others : (commonCodes caption uid).filter (fun entry => entry.1 = ↑(toString code)) = [] := by
    simp only [commonCodes, List.filter_cons, Numeral.toString_text_inj, decide_eq_true_eq,
      if_neg (Ne.symm notOther), if_neg (Ne.symm notUnknown), List.filter_nil]
  rw [OrderedMap.get?_ofEntries, assignments, List.filter_append, filter_assigned, others,
    List.append_nil, List.getLast?_map, Option.map_map]
  rfl

/-- The texts that are assigned are those of the codes. -/
theorem map_fst_assignments (attributes : Attributes) (caption : Text) (uid : Int) :
    (assignments attributes caption uid).map Prod.fst =
      ((listed attributes).filterMap (codeOf? uid) ++ [otherCode, uid * codesPerClass]).map
        fun code => (toString code : Text) := by
  rw [assignments, List.map_append, List.map_append, List.map_filterMap, List.map_filterMap]
  refine congrArg (· ++ _) (List.filterMap_congr fun entry _ => ?_)
  rw [assigned?, Option.map_map]
  rfl

/-- Assigning them all makes the codes of a class. -/
theorem dispositionCodes_ofEntries (attributes : Attributes) (caption : Text) (uid : Int) :
    DispositionCodes attributes caption uid
      (OrderedMap.ofEntries (assignments attributes caption uid)) where
  other := by
    rw [assignments, OrderedMap.ofEntries, OrderedMap.insertAll_append, commonCodes,
      OrderedMap.insertAll_cons, OrderedMap.insertAll_cons, OrderedMap.insertAll_nil,
      OrderedMap.get?_insert_of_ne _ _ (unknownCode_ne_otherCode uid),
      OrderedMap.get?_insert_self]
  unknown := by
    rw [assignments, OrderedMap.ofEntries, OrderedMap.insertAll_append, commonCodes,
      OrderedMap.insertAll_cons, OrderedMap.insertAll_cons, OrderedMap.insertAll_nil,
      OrderedMap.get?_insert_self]
  present code notOther notUnknown := by
    rw [← OrderedMap.get?_isSome_iff, get?_ofEntries_assignments attributes caption notOther
      notUnknown, Option.isSome_map, List.getLast?_isSome, withCode, ne_eq, List.filter_eq_nil_iff]
    simp
  shown code := get?_ofEntries_assignments attributes caption
  keys := by
    rw [OrderedMap.keys_ofEntries, map_fst_assignments]
    exact Sorting.eraseDups_map _ fun _ _ _ _ => Numeral.toString_text_inj.mp

/-- A class is given exactly the codes of its dispositions and the two common ones, with one
warning for each key that is no integer. -/
theorem eventCodes_lists_dispositions (name : Text) {cls : ClassDescriptor}
    (enumerable : Enumerable cls.attributes uid) :
    ∃ codes, eventCodes name cls uid =
        ⟨(unread (listed cls.attributes)).map (keyWarning name), .ok codes⟩ ∧
      DispositionCodes cls.attributes cls.displayName uid codes ∧
      (enumerate cls.attributes "event_uid" name codes).get? "enum" = some (.obj codes) ∧
      forall (categories : OrderedMap Text Category) (identified : ClassDescriptor),
        (identify categories name cls uid).outcome = .ok identified ->
          fieldOf? identified.attributes "event_uid" "enum" = some (.obj codes) := by
  have made := eventCodes_eq name enumerable
  have enumerates := enumerates_enumerate cls.attributes "event_uid" name
  refine ⟨_, made, dispositionCodes_ofEntries cls.attributes cls.displayName uid,
    (enumerates _).codes, fun categories identified identifies => ?_⟩
  rcases exists_codes_of_identify identifies with ⟨events, _, _, again, _, _, rfl⟩
  rw [made] at again
  cases again
  rw [fieldOf?, OrderedMap.get?_insert_of_ne _ _ (by decide),
    OrderedMap.get?_insert_of_ne _ _ (by decide), OrderedMap.get?_insert_self]
  exact (enumerates _).codes

/-- A class whose dispositions are spelled in several ways.  One meets the code of `Unknown`
and one that of `Other`. -/
def spelledClass : ClassDescriptor where
  type := "scan"
  name := some "Scan"
  caption := none
  description := none
  parent := none
  attributes :=
    [("disposition_id", [("enum", .obj
      [("1", .obj [("name", .str "Allowed"), ("note", .null)]), ("one", .obj []),
        ("0", .obj [("name", .str "Nothing")]), ("\u0663", .obj [("note", .null)]),
        (" +01 ", .obj [("name", .str "Blocked")]), ("-7001", .obj []), ("1__0", .obj [])])])]
  details := ⟨some 7, none, none⟩
  extra := []

/-- What is spelled differently has one code, in the first place and with the last value. -/
theorem eventCodes_lists_dispositions_spelled :
    Enumerable spelledClass.attributes 7 ∧ ∃ codes, eventCodes "scan" spelledClass 7 =
      ⟨[.note .warning "scan: ignoring non-numeric disposition_id value 'one'",
        .note .warning "scan: ignoring non-numeric disposition_id value '1__0'"], .ok codes⟩ ∧
      codes.keys = (["7001", "7000", "7003", "-1"] : List Text) ∧
      codes.get? "7001" = some (.obj [("name", .str "Scan: Blocked")]) ∧
      codes.get? "7003" = some (.obj [("note", .null), ("name", .str "Scan: None")]) ∧
      codes.get? "7000" = some (.obj [("name", .str "Scan: Unknown")]) ∧
      codes.get? "-1" = some (.obj [("name", .str "Scan: Other")]) := by
  have writable : ∀ entry ∈ listed spelledClass.attributes, ∀ code ∈ codeOf? 7 entry,
      Numeral.writable code = true := by
    decide +kernel
  have enumerable : Enumerable spelledClass.attributes 7 :=
    { object := fun value declared _ => (by cases declared; rfl)
      objects := by decide
      writable := writable
      unknown := by decide +kernel }
  have blocked : (toString (7001 : Int) : Text) = "7001" := by decide +kernel
  have unnamed : (toString (7003 : Int) : Text) = "7003" := by decide +kernel
  have unknown : (toString (7 * codesPerClass) : Text) = "7000" := by decide +kernel
  have other : (toString otherCode : Text) = "-1" := by decide +kernel
  have order : ((listed spelledClass.attributes).filterMap (codeOf? 7) ++
      [otherCode, 7 * codesPerClass]).eraseDups = [7001, 7 * codesPerClass, 7003, otherCode] := by
    decide
  rcases eventCodes_lists_dispositions "scan" enumerable with ⟨codes, made, shows, _⟩
  refine ⟨enumerable, codes, made.trans (congrArg (Report.mk · _) (by decide +kernel)), ?_, ?_, ?_, ?_, ?_⟩
  · rw [shows.keys, order, List.map_cons, List.map_cons, List.map_cons, List.map_cons,
      blocked, unknown, unnamed, other, List.map_nil]
  · rw [← blocked, shows.shown 7001 (by decide) (by decide)]
    decide
  · rw [← unnamed, shows.shown 7003 (by decide) (by decide)]
    decide
  · rw [← unknown, shows.unknown]
    decide
  · rw [← other, shows.other]
    decide

end Identifiers
end EventSchema
