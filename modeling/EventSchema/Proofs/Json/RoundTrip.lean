import EventSchema.Proofs.Json.Integers
import EventSchema.Proofs.Json.Strings
import EventSchema.Proofs.OrderedMap

namespace EventSchema
namespace Json

/-!
# Values are read back

Reading undoes writing.  The reader decides by the first symbol what it reads, and
the writer never puts a blank or a closing bracket in front of a value, so each
branch of the reader is the one whose value was written.  The induction is on the
fuel, for values, items and entries at once, as each of the three readers calls the
others; a row of symbols needs twice its length.

`Json.Portable` names the values for which this holds.  Numbers with a fraction or
an exponent are left out, and so are halves of surrogate pairs, which the text can
name but of which two in a row are one character.
-/

mutual

/-- A value that its text gives back: at any depth, integers are no longer than may
be written, texts hold no halves, keys are distinct and there are no other
numbers. -/
def Portable : Json -> Prop
  | .null => True
  | .bool _ => True
  | .int value => Numeral.writable value = true
  | .float _ => False
  | .str text => text.hasHalf = false
  | .arr items => PortableItems items
  | .obj fields => OrderedMap.Distinct fields ∧ PortableFields fields

def PortableItems : List Json -> Prop
  | [] => True
  | item :: rest => item.Portable ∧ PortableItems rest

def PortableFields : List (Text × Json) -> Prop
  | [] => True
  | (key, value) :: rest => key.hasHalf = false ∧ value.Portable ∧ PortableFields rest

end

/-! ## The front of a value -/

/-- Whether a value can be written with this symbol in front. -/
def opensValue (symbol : Symbol) : Bool :=
  Text.isAsciiDigit symbol || symbol ∈ (['-', '"', '[', '\x7b', 'n', 't', 'f'] : List Char).map .char

/-- A text with a value at its front. -/
def StartsValue (text : Text) : Prop :=
  ∃ symbol rest, text = symbol :: rest ∧ opensValue symbol = true

theorem startsValue_cons {symbol : Symbol} {rest : Text} (opens : opensValue symbol = true) :
    StartsValue (symbol :: rest) :=
  ⟨symbol, rest, rfl, opens⟩

theorem StartsValue.append {text : Text} (starts : StartsValue text) (rest : Text) :
    StartsValue (text ++ rest) := by
  rcases starts with ⟨symbol, others, rfl, opens⟩
  exact ⟨symbol, others ++ rest, rfl, opens⟩

theorem StartsValue.head_ne {text : Text} (starts : StartsValue text) {other : Symbol}
    (closed : opensValue other = false) (rest : Text) : text ≠ other :: rest := by
  rintro rfl
  rcases starts with ⟨_, _, same, opens⟩
  rw [← (List.cons.inj same).1, closed] at opens
  cases opens

/-- No blank is skipped in front of a value. -/
theorem StartsValue.skipSpace {text : Text} (starts : StartsValue text) : skipSpace text = text := by
  rcases starts with ⟨symbol, rest, rfl, opens⟩
  have noSpace : isSpace symbol = false := by
    apply Bool.eq_false_iff.mpr
    intro space
    simp only [isSpace, Bool.or_eq_true, decide_eq_true_eq] at space
    rcases space with ((rfl | rfl) | rfl) | rfl <;> exact absurd opens (by decide)
  rw [Json.skipSpace, List.dropWhile_cons, noSpace]
  rfl

/-- A value is written with nothing in front of it. -/
theorem startsValue_writeChars {value : Json} (portable : value.Portable) :
    StartsValue (Text.ofChars (writeChars value)) := by
  cases value with
  | null => exact startsValue_cons rfl
  | bool value => cases value <;> exact startsValue_cons rfl
  | int value =>
      rcases exists_decimals_eq_digit value.natAbs with ⟨digit, others, starts, decimal⟩
      change StartsValue (Text.ofString (toString value))
      rw [ofString_toString, signText, starts]
      split
      · exact startsValue_cons rfl
      · exact startsValue_cons (by rw [opensValue, decimal, Bool.true_or])
  | float value => exact portable.elim
  | str text => exact startsValue_cons rfl
  | arr items => exact startsValue_cons rfl
  | obj fields => exact startsValue_cons rfl

/-- Items start as the first of them does. -/
theorem startsValue_writeItems {item : Json} (portable : item.Portable) (rest : List Json) :
    StartsValue (Text.ofChars (writeItems (item :: rest))) := by
  have first := startsValue_writeChars portable
  cases rest with
  | nil => exact first
  | cons next rest =>
      rw [writeItems, Text.ofChars, List.map_append]
      exact first.append _

/-- Entries start with the quote of a key. -/
theorem startsValue_writeEntries (entry : Text × Json) (rest : List (Text × Json)) :
    StartsValue (Text.ofChars (writeEntries (entry :: rest))) := by
  cases rest with
  | nil => exact startsValue_cons rfl
  | cons next rest => exact startsValue_cons rfl

/-! ## Single steps of the reader -/

/-- Where neither a quote nor a bracket opens, a word or a number is read. -/
theorem readValue_eq_readAtom {symbol : Symbol} (quote : symbol ≠ .char '"')
    (bracket : symbol ≠ .char '[') (brace : symbol ≠ .char '\x7b') (fuel : Nat) (rest : Text) :
    readValue (fuel + 1) (symbol :: rest) = readAtom (symbol :: rest) := by
  rw [readValue]
  · exact fun _ same => quote (List.cons.inj same).1
  · exact fun _ same => bracket (List.cons.inj same).1
  · exact fun _ same => brace (List.cons.inj same).1

/-- A list with an item is read item by item. -/
theorem readValue_bracket {fuel : Nat} {inner rest : Text} {items : List Json}
    (starts : StartsValue inner) (reads : readItems fuel inner = .ok (items, rest)) :
    readValue (fuel + 1) (.char '[' :: inner) = .ok (.arr items, rest) := by
  rw [readValue, starts.skipSpace]
  split
  · exact absurd rfl (starts.head_ne rfl _)
  · rw [reads]
    rfl

/-- An object with an entry is read entry by entry. -/
theorem readValue_brace {fuel : Nat} {inner rest : Text} {entries : List (Text × Json)}
    (starts : StartsValue inner) (reads : readEntries fuel inner = .ok (entries, rest)) :
    readValue (fuel + 1) (.char '\x7b' :: inner) = .ok (.obj (OrderedMap.ofEntries entries), rest) := by
  rw [readValue, starts.skipSpace]
  split
  · exact absurd rfl (starts.head_ne rfl _)
  · rw [reads]
    rfl

/-- A blank in front of a value is skipped. -/
theorem StartsValue.skipSpace_blank {text : Text} (starts : StartsValue text) :
    Json.skipSpace (.char ' ' :: text) = text :=
  starts.skipSpace

/-- Before a closing bracket stands the last item. -/
theorem readItems_last {fuel : Nat} {text rest : Text} {item : Json}
    (first : readValue fuel text = .ok (item, .char ']' :: rest)) :
    readItems (fuel + 1) text = .ok ([item], rest) := by
  rw [readItems]
  exact Outcome.bind_eq_ok_iff.mpr ⟨_, first, rfl⟩

/-- After a comma and a blank the next items are read. -/
theorem readItems_next {fuel : Nat} {text inner rest : Text} {item : Json} {items : List Json}
    (first : readValue fuel text = .ok (item, .char ',' :: .char ' ' :: inner))
    (starts : StartsValue inner) (reads : readItems fuel inner = .ok (items, rest)) :
    readItems (fuel + 1) text = .ok (item :: items, rest) := by
  rw [readItems]
  refine Outcome.bind_eq_ok_iff.mpr ⟨_, first, ?_⟩
  rw [← starts.skipSpace_blank] at reads
  exact Outcome.bind_eq_ok_iff.mpr ⟨_, reads, rfl⟩

/-- A key and its value are read before a closing brace. -/
theorem readEntries_last {fuel : Nat} {text inner rest : Text} {key : Text} {value : Json}
    (name : readString (.char '"' :: text) text = .ok (key, .char ':' :: .char ' ' :: inner))
    (starts : StartsValue inner)
    (first : readValue fuel inner = .ok (value, .char '\x7d' :: rest)) :
    readEntries (fuel + 1) (.char '"' :: text) = .ok ([(key, value)], rest) := by
  rw [← starts.skipSpace_blank] at first
  rw [readEntries]
  refine Outcome.bind_eq_ok_iff.mpr ⟨_, name, ?_⟩
  exact Outcome.bind_eq_ok_iff.mpr ⟨_, first, rfl⟩

/-- A key and its value are read before a comma, and the next entries after it. -/
theorem readEntries_next {fuel : Nat} {text inner later rest : Text} {key : Text} {value : Json}
    {entries : List (Text × Json)}
    (name : readString (.char '"' :: text) text = .ok (key, .char ':' :: .char ' ' :: inner))
    (starts : StartsValue inner)
    (first : readValue fuel inner = .ok (value, .char ',' :: .char ' ' :: later))
    (startsLater : StartsValue later) (reads : readEntries fuel later = .ok (entries, rest)) :
    readEntries (fuel + 1) (.char '"' :: text) = .ok ((key, value) :: entries, rest) := by
  rw [← starts.skipSpace_blank] at first
  rw [← startsLater.skipSpace_blank] at reads
  rw [readEntries]
  refine Outcome.bind_eq_ok_iff.mpr ⟨_, name, ?_⟩
  refine Outcome.bind_eq_ok_iff.mpr ⟨_, first, ?_⟩
  exact Outcome.bind_eq_ok_iff.mpr ⟨_, reads, rfl⟩

/-- An integer is read like a word. -/
theorem readValue_toString {rest : Text} (ends : EndsNumber rest) {value : Int}
    (writable : Numeral.writable value = true) (fuel : Nat) :
    readValue (fuel + 1) (Text.ofString (toString value) ++ rest) = .ok (.int value, rest) := by
  have atom := readAtom_toString ends writable
  rcases exists_decimals_eq_digit value.natAbs with ⟨digit, others, starts, decimal⟩
  have other : forall c : Char, Text.isAsciiDigit c = false -> digit ≠ .char c :=
    fun _ odd => ne_of_isAsciiDigit decimal odd
  rw [ofString_toString, signText, starts] at atom ⊢
  by_cases negative : value < 0
  · rw [if_pos negative] at atom ⊢
    exact (readValue_eq_readAtom (by decide) (by decide) (by decide) _ _).trans atom
  · rw [if_neg negative] at atom ⊢
    exact (readValue_eq_readAtom (other _ rfl) (other _ rfl) (other _ rfl) _ _).trans atom

/-! ## Whole values -/

/-- With this fuel the reader undoes the writer, for everything that is written with
at most half as many symbols. -/
structure Undoes (fuel : Nat) : Prop where
  value : forall (value : Json) (rest : Text), value.Portable -> EndsNumber rest ->
    2 * (writeChars value).length ≤ fuel ->
    readValue fuel (Text.ofChars (writeChars value) ++ rest) = .ok (value, rest)
  items : forall (item : Json) (others : List Json) (rest : Text),
    PortableItems (item :: others) -> 2 * (writeItems (item :: others)).length < fuel ->
    readItems fuel (Text.ofChars (writeItems (item :: others)) ++ .char ']' :: rest) =
      .ok (item :: others, rest)
  entries : forall (entry : Text × Json) (others : List (Text × Json)) (rest : Text),
    PortableFields (entry :: others) -> 2 * (writeEntries (entry :: others)).length < fuel ->
    readEntries fuel (Text.ofChars (writeEntries (entry :: others)) ++ .char '\x7d' :: rest) =
      .ok (entry :: others, rest)

/-- A string stands between its quotes. -/
theorem ofChars_writeString (text rest : Text) :
    Text.ofChars (writeString text) ++ rest =
      .char '"' :: (Text.ofChars (text.flatMap writeSymbol) ++ .char '"' :: rest) := by
  simp [writeString, Text.ofChars]

namespace Undoes

variable {fuel : Nat}

/-- A value is read with one step more than its parts. -/
theorem value_succ (undoes : Undoes fuel) {value : Json} {rest : Text} (portable : value.Portable)
    (ends : EndsNumber rest) (enough : 2 * (writeChars value).length ≤ fuel + 1) :
    readValue (fuel + 1) (Text.ofChars (writeChars value) ++ rest) = .ok (value, rest) := by
  cases value with
  | null => rfl
  | bool value => cases value <;> rfl
  | int value => exact readValue_toString ends portable fuel
  | float value => exact portable.elim
  | str text =>
      rw [writeChars, ofChars_writeString, readValue, readString_writeString portable]
      rfl
  | arr items =>
      cases items with
      | nil => rfl
      | cons item others =>
          have inner : Text.ofChars (writeChars (.arr (item :: others))) ++ rest =
              .char '[' :: (Text.ofChars (writeItems (item :: others)) ++ .char ']' :: rest) := by
            simp [writeChars, Text.ofChars]
          rw [inner]
          refine readValue_bracket ((startsValue_writeItems portable.1 others).append _)
            (undoes.items item others rest portable ?_)
          simp only [writeChars, List.length_cons, List.length_append] at enough
          omega
  | obj fields =>
      rcases portable with ⟨distinct, portable⟩
      -- The reader assigns the entries one by one, which with distinct keys keeps them all.
      cases fields with
      | nil => rfl
      | cons entry others =>
          have inner : Text.ofChars (writeChars (.obj (entry :: others))) ++ rest = .char '\x7b' ::
              (Text.ofChars (writeEntries (entry :: others)) ++ .char '\x7d' :: rest) := by
            simp [writeChars, Text.ofChars]
          rw [inner, readValue_brace ((startsValue_writeEntries entry others).append _)
            (undoes.entries entry others rest portable ?_), distinct.ofEntries]
          simp only [writeChars, List.length_cons, List.length_append] at enough
          omega

/-- Items are read one by one. -/
theorem items_succ (undoes : Undoes fuel) {item : Json} {others : List Json} {rest : Text}
    (portable : PortableItems (item :: others))
    (enough : 2 * (writeItems (item :: others)).length < fuel + 1) :
    readItems (fuel + 1) (Text.ofChars (writeItems (item :: others)) ++ .char ']' :: rest) =
      .ok (item :: others, rest) := by
  cases others with
  | nil =>
      apply readItems_last
      apply undoes.value _ _ portable.1 (endsNumber_cons (by decide))
      rw [writeItems] at enough
      omega
  | cons next others =>
      have inner : Text.ofChars (writeItems (item :: next :: others)) ++ .char ']' :: rest =
          Text.ofChars (writeChars item) ++ .char ',' :: .char ' ' ::
            (Text.ofChars (writeItems (next :: others)) ++ .char ']' :: rest) := by
        simp [writeItems, Text.ofChars]
      simp only [writeItems, List.length_cons, List.length_append] at enough
      rw [inner]
      exact readItems_next (undoes.value item _ portable.1 (endsNumber_cons (by decide)) (by omega))
        ((startsValue_writeItems portable.2.1 others).append _)
        (undoes.items next others rest portable.2 (by omega))

/-- Entries are read one by one, each as a key and a value. -/
theorem entries_succ (undoes : Undoes fuel) {entry : Text × Json} {others : List (Text × Json)}
    {rest : Text} (portable : PortableFields (entry :: others))
    (enough : 2 * (writeEntries (entry :: others)).length < fuel + 1) :
    readEntries (fuel + 1) (Text.ofChars (writeEntries (entry :: others)) ++ .char '\x7d' :: rest) =
      .ok (entry :: others, rest) := by
  rcases entry with ⟨key, value⟩
  rcases portable with ⟨whole, portable, later⟩
  have starts := startsValue_writeChars portable
  cases others with
  | nil =>
      have inner : Text.ofChars (writeEntries [(key, value)]) ++ .char '\x7d' :: rest =
          Text.ofChars (writeString key) ++ .char ':' :: .char ' ' ::
            (Text.ofChars (writeChars value) ++ .char '\x7d' :: rest) := by
        simp [writeEntries, Text.ofChars]
      simp only [writeEntries, List.length_cons, List.length_append] at enough
      rw [inner, ofChars_writeString]
      exact readEntries_last (readString_writeString whole _ _) (starts.append _)
        (undoes.value value _ portable (endsNumber_cons (by decide)) (by omega))
  | cons next others =>
      have inner : Text.ofChars (writeEntries ((key, value) :: next :: others)) ++ .char '\x7d' :: rest =
          Text.ofChars (writeString key) ++ .char ':' :: .char ' ' ::
            (Text.ofChars (writeChars value) ++ .char ',' :: .char ' ' ::
              (Text.ofChars (writeEntries (next :: others)) ++ .char '\x7d' :: rest)) := by
        simp [writeEntries, Text.ofChars]
      simp only [writeEntries, List.length_cons, List.length_append] at enough
      rw [inner, ofChars_writeString]
      exact readEntries_next (readString_writeString whole _ _) (starts.append _)
        (undoes.value value _ portable (endsNumber_cons (by decide)) (by omega))
        ((startsValue_writeEntries next others).append _)
        (undoes.entries next others rest later (by omega))

end Undoes

/-- Whatever the fuel, it reaches as far as twice the length of what is written. -/
theorem undoes (fuel : Nat) : Undoes fuel := by
  induction fuel with
  | zero =>
      refine ⟨fun value rest portable _ enough => ?_, fun _ _ _ _ enough => ?_,
        fun _ _ _ _ enough => ?_⟩
      · -- No value is written with no symbol at all.
        rcases startsValue_writeChars portable with ⟨symbol, others, starts, _⟩
        have some := congrArg List.length starts
        rw [Text.ofChars, List.length_map, List.length_cons] at some
        omega
      · cases enough
      · cases enough
  | succ fuel ih =>
      exact ⟨fun _ _ => ih.value_succ, fun _ _ _ => ih.items_succ, fun _ _ _ => ih.entries_succ⟩

/-- A portable value is read back from its text. -/
theorem read_write {value : Json} (portable : value.Portable) :
    read (Text.ofString value.write) = .ok value := by
  have starts := startsValue_writeChars portable
  have text : Text.ofString value.write = Text.ofChars (writeChars value) := by
    rw [Text.ofString, write, String.toList_ofList]
  have noMark : (Text.ofChars (writeChars value)).head? ≠ some (.char '\ufeff') := by
    rcases starts with ⟨symbol, others, same, opens⟩
    rw [same, List.head?_cons]
    rintro ⟨⟩
    exact absurd opens (by decide)
  have reads := (undoes (2 * (Text.ofChars (writeChars value)).length + 2)).value value [] portable
    (by rintro _ ⟨⟩) (by rw [Text.ofChars, List.length_map]; omega)
  rw [List.append_nil] at reads
  rw [read, readText, text, if_neg noMark, starts.skipSpace, reads]
  rfl

end Json
end EventSchema
