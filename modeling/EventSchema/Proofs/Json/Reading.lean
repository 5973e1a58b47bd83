import EventSchema.Json.Reader
import EventSchema.Proofs.Number.Binary64
import EventSchema.Proofs.Number.Numeral
import EventSchema.Proofs.OrderedMap
import Mathlib.Data.List.TakeWhile

namespace EventSchema
namespace Json

/-!
# Values that are read from texts

Every value that the reader yields is well formed: an object is made by
assigning its entries one after another, so its keys are distinct, and an
integer with more digits than the limit stops the reader.  The floating-point
numbers in it are in canonical form.
-/

/-! ## Numbers -/

theorem isAsciiDigit_of_splitWhole? {text whole rest : Text}
    (splits : splitWhole? text = some (whole, rest)) :
    ∀ symbol ∈ whole, Text.isAsciiDigit symbol = true := by
  intro symbol member
  unfold splitWhole? at splits
  split at splits
  · rcases Prod.mk.inj (Option.some.inj splits) with ⟨rfl, _⟩
    cases List.mem_singleton.1 member
    rfl
  · dsimp only at splits
    split at splits
    · cases splits
    · rcases Prod.mk.inj (Option.some.inj splits) with ⟨rfl, _⟩
      exact List.mem_takeWhile_imp member

theorem isAsciiDigit_of_splitNumber? {text rest : Text} {number : NumberText}
    (splits : splitNumber? text = some (number, rest)) :
    ∀ symbol ∈ number.whole, Text.isAsciiDigit symbol = true := by
  unfold splitNumber? at splits
  simp only [Option.bind_eq_bind, Option.bind_eq_some_iff] at splits
  rcases splits with ⟨⟨whole, fraction⟩, parts, splits⟩
  rcases Prod.mk.inj (Option.some.inj splits) with ⟨rfl, _⟩
  exact isAsciiDigit_of_splitWhole? parts

theorem wellFormed_of_numberValue {number : NumberText}
    (digits : ∀ symbol ∈ number.whole, Text.isAsciiDigit symbol = true) {value : Json}
    (reads : number.value = .ok value) : value.WellFormed := by
  unfold NumberText.value at reads
  split at reads
  · split at reads
    · next within =>
        cases reads
        refine Numeral.writable_signed_ofDigits _ ?_ (by simpa using within)
        intro digit member
        rcases List.mem_map.1 member with ⟨symbol, written, rfl⟩
        rcases Option.isSome_iff_exists.1 (digits symbol written) with ⟨value, read⟩
        have small := Numeral.asciiDigitValue_le read
        unfold Text.asciiDigitValue? at read
        split at read
        · cases read
          exact small
        · cases read
    · cases reads
  · cases reads
    trivial

/-- Where neither a string nor an array or object begins, a word or a number is read. -/
theorem word_or_number_of_readAtom {text rest : Text} {value : Json}
    (reads : readAtom text = .ok (value, rest)) :
    (∃ word : Text, (word, value) ∈ words) ∨
      ∃ number : NumberText, number.value = .ok value ∧
        ∀ symbol ∈ number.whole, Text.isAsciiDigit symbol = true := by
  unfold readAtom at reads
  split at reads
  · next found =>
      rcases Prod.mk.inj (Except.ok.inj reads) with ⟨rfl, _⟩
      exact Or.inl ⟨_, List.mem_of_find?_eq_some found⟩
  · unfold readNumber at reads
    split at reads
    · cases reads
    · next number _ splits =>
        rcases Outcome.bind_eq_ok_iff.mp reads with ⟨found, read, same⟩
        rcases Prod.mk.inj (Except.ok.inj same) with ⟨rfl, _⟩
        exact Or.inr ⟨number, read, isAsciiDigit_of_splitNumber? splits⟩

theorem wellFormed_of_readAtom {text rest : Text} {value : Json}
    (reads : readAtom text = .ok (value, rest)) : value.WellFormed := by
  rcases word_or_number_of_readAtom reads with ⟨word, member⟩ | ⟨number, read, digits⟩
  · simp only [words, List.mem_cons, List.not_mem_nil, or_false, Prod.mk.injEq] at member
    rcases member with ⟨_, rfl⟩ | ⟨_, rfl⟩ | ⟨_, rfl⟩ | ⟨_, rfl⟩ | ⟨_, rfl⟩ | ⟨_, rfl⟩
    all_goals trivial
  · exact wellFormed_of_numberValue digits read

/-! ## Values -/

/-- An object of well-formed entries is well formed. -/
theorem wellFormed_ofEntries {entries : List (Text × Json)}
    (values : ∀ entry ∈ entries, entry.2.WellFormed) :
    WellFormed (.obj (OrderedMap.ofEntries entries)) := by
  refine ⟨OrderedMap.distinct_ofEntries entries, (wellFormedFields_iff _).2 fun entry member => ?_⟩
  exact values entry (OrderedMap.mem_of_mem_ofEntries member)

/-- The cases of an induction over what is read: strings, words and numbers, and what is
made of values that were read before. -/
structure ReadingCases (motive : Json -> Prop) : Prop where
  str : forall text : Text, motive (.str text)
  atom : forall {text rest : Text} {value : Json}, readAtom text = .ok (value, rest) -> motive value
  arr : forall {items : List Json}, (∀ item ∈ items, motive item) -> motive (.arr items)
  obj : forall {entries : List (Text × Json)}, (∀ entry ∈ entries, motive entry.2) ->
    motive (.obj (OrderedMap.ofEntries entries))

/-- What holds of all that is read with a given fuel. -/
structure HoldsOfRead (motive : Json -> Prop) (fuel : Nat) : Prop where
  value : forall {text rest : Text} {value : Json},
    readValue fuel text = .ok (value, rest) -> motive value
  items : forall {text rest : Text} {items : List Json},
    readItems fuel text = .ok (items, rest) -> ∀ item ∈ items, motive item
  entries : forall {text rest : Text} {entries : List (Text × Json)},
    readEntries fuel text = .ok (entries, rest) -> ∀ entry ∈ entries, motive entry.2

namespace HoldsOfRead

variable {motive : Json -> Prop} {fuel : Nat} {text rest : Text}

theorem value_succ (holds : HoldsOfRead motive fuel) (cases : ReadingCases motive) {value : Json}
    (reads : readValue (fuel + 1) text = .ok (value, rest)) : motive value := by
  unfold readValue at reads
  split at reads
  · rcases Outcome.bind_eq_ok_iff.mp reads with ⟨read, _, same⟩
    rcases Prod.mk.inj (Except.ok.inj same) with ⟨rfl, _⟩
    exact cases.str read.1
  · split at reads
    · rcases Prod.mk.inj (Except.ok.inj reads) with ⟨rfl, _⟩
      exact cases.arr fun item member => absurd member List.not_mem_nil
    · rcases Outcome.bind_eq_ok_iff.mp reads with ⟨⟨items, left⟩, read, same⟩
      rcases Prod.mk.inj (Except.ok.inj same) with ⟨rfl, _⟩
      exact cases.arr (holds.items read)
  · split at reads
    · rcases Prod.mk.inj (Except.ok.inj reads) with ⟨rfl, _⟩
      have none : ∀ entry ∈ ([] : List (Text × Json)), motive entry.2 :=
        fun entry member => absurd member List.not_mem_nil
      exact cases.obj none
    · rcases Outcome.bind_eq_ok_iff.mp reads with ⟨⟨entries, left⟩, read, same⟩
      rcases Prod.mk.inj (Except.ok.inj same) with ⟨rfl, _⟩
      exact cases.obj (holds.entries read)
  · exact cases.atom reads

theorem items_succ (holds : HoldsOfRead motive fuel) {items : List Json}
    (reads : readItems (fuel + 1) text = .ok (items, rest)) : ∀ item ∈ items, motive item := by
  unfold readItems at reads
  rcases Outcome.bind_eq_ok_iff.mp reads with ⟨⟨first, left⟩, read, reads⟩
  have head := holds.value read
  dsimp only at reads
  split at reads
  · rcases Prod.mk.inj (Except.ok.inj reads) with ⟨rfl, _⟩
    simpa using head
  · rcases Outcome.bind_eq_ok_iff.mp reads with ⟨⟨others, left⟩, more, same⟩
    rcases Prod.mk.inj (Except.ok.inj same) with ⟨rfl, _⟩
    exact List.forall_mem_cons.2 ⟨head, holds.items more⟩
  · cases reads

theorem entries_succ (holds : HoldsOfRead motive fuel) {entries : List (Text × Json)}
    (reads : readEntries (fuel + 1) text = .ok (entries, rest)) :
    ∀ entry ∈ entries, motive entry.2 := by
  unfold readEntries at reads
  split at reads
  · rcases Outcome.bind_eq_ok_iff.mp reads with ⟨⟨key, left⟩, _, reads⟩
    dsimp only at reads
    split at reads
    · rcases Outcome.bind_eq_ok_iff.mp reads with ⟨⟨first, left⟩, read, reads⟩
      have head := holds.value read
      dsimp only at reads
      split at reads
      · rcases Prod.mk.inj (Except.ok.inj reads) with ⟨rfl, _⟩
        simpa using head
      · rcases Outcome.bind_eq_ok_iff.mp reads with ⟨⟨others, left⟩, more, same⟩
        rcases Prod.mk.inj (Except.ok.inj same) with ⟨rfl, _⟩
        exact List.forall_mem_cons.2 ⟨head, holds.entries more⟩
      · cases reads
    · cases reads
  · cases reads

end HoldsOfRead

/-- One induction serves values, items and entries, as the reader of each calls those of the
others with less fuel. -/
theorem ReadingCases.holdsOfRead {motive : Json -> Prop} (cases : ReadingCases motive)
    (fuel : Nat) : HoldsOfRead motive fuel := by
  induction fuel with
  | zero =>
      refine ⟨fun reads => ?_, fun reads => ?_, fun reads => ?_⟩
      all_goals cases reads
  | succ fuel ih =>
      exact ⟨fun reads => ih.value_succ cases reads, fun reads => ih.items_succ reads,
        fun reads => ih.entries_succ reads⟩

/-- A text that is read is one value from front to end. -/
theorem exists_readValue_of_read {text : Text} {value : Json} (reads : read text = .ok value) :
    ∃ (fuel : Nat) (start rest : Text), readValue fuel start = .ok (value, rest) := by
  unfold read readText at reads
  split at reads
  · next found =>
      cases reads
      split at found
      · cases found
      · rcases Outcome.bind_eq_ok_iff.mp found with ⟨⟨first, rest⟩, read, found⟩
        dsimp only at found
        split at found
        · cases found
          exact ⟨_, _, rest, read⟩
        · cases found
  · cases reads
  · cases reads

/-- What holds in all cases holds of every value that is read. -/
theorem ReadingCases.of_read {motive : Json -> Prop} (cases : ReadingCases motive) {text : Text}
    {value : Json} (reads : read text = .ok value) : motive value := by
  rcases exists_readValue_of_read reads with ⟨fuel, _, _, read⟩
  exact (cases.holdsOfRead fuel).value read

theorem readingCases_wellFormed : ReadingCases WellFormed where
  str _ := trivial
  atom reads := wellFormed_of_readAtom reads
  arr each := (wellFormedItems_iff _).2 each
  obj each := wellFormed_ofEntries each

/-- Every value that is read is well formed. -/
theorem wellFormed_of_read {text : Text} {value : Json} (reads : read text = .ok value) :
    value.WellFormed :=
  readingCases_wellFormed.of_read reads

/-! ## Floating-point numbers -/

/-- A floating-point number stands in a value, at any depth. -/
inductive Holds (number : Binary64) : Json -> Prop
  | here : Holds number (.float number)
  | item {items : List Json} {item : Json} (member : item ∈ items) (within : Holds number item) :
      Holds number (.arr items)
  | field {fields : Fields} {entry : Text × Json} (member : entry ∈ fields)
      (within : Holds number entry.2) : Holds number (.obj fields)

theorem canonical_of_numberValue {numberText : NumberText} {value : Json} {number : Binary64}
    (reads : numberText.value = .ok value) (holds : Holds number value) : number.Canonical := by
  unfold NumberText.value at reads
  split at reads
  · split at reads
    · cases reads
      cases holds
    · cases reads
  · cases reads
    cases holds
    exact Binary64.canonical_ofDecimal _ _ _

theorem canonical_of_readAtom {text rest : Text} {value : Json} {number : Binary64}
    (reads : readAtom text = .ok (value, rest)) (holds : Holds number value) :
    number.Canonical := by
  rcases word_or_number_of_readAtom reads with ⟨word, member⟩ | ⟨numberText, read, _⟩
  · simp only [words, List.mem_cons, List.not_mem_nil, or_false, Prod.mk.injEq] at member
    rcases member with ⟨_, rfl⟩ | ⟨_, rfl⟩ | ⟨_, rfl⟩ | ⟨_, rfl⟩ | ⟨_, rfl⟩ | ⟨_, rfl⟩
    all_goals cases holds
    all_goals trivial
  · exact canonical_of_numberValue read holds

theorem readingCases_canonical (number : Binary64) :
    ReadingCases fun value => Holds number value -> number.Canonical where
  str _ holds := by cases holds
  atom reads holds := canonical_of_readAtom reads holds
  arr each holds := by
    cases holds with
    | item member within => exact each _ member within
  obj each holds := by
    cases holds with
    | field member within => exact each _ (OrderedMap.mem_of_mem_ofEntries member) within

/-- Every floating-point number in a value that is read is in canonical form. -/
theorem canonical_of_read {text : Text} {value : Json} (reads : read text = .ok value)
    {number : Binary64} (holds : Holds number value) : number.Canonical :=
  (readingCases_canonical number).of_read reads holds

end Json
end EventSchema
