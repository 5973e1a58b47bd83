import EventSchema.Path
import EventSchema.Proofs.Sorting
import Mathlib.Data.List.Basic
import Mathlib.Data.List.Infix
import Mathlib.Data.List.Nodup
import Mathlib.Data.List.Pairwise

namespace EventSchema

/-!
# The order of paths and the files below a folder

Paths are compared part by part, and parts symbol by symbol.  `Before` states both
comparisons as lexicographic orders, apart from how they are computed.  The names of a
path have no slash, so its parts tell it from any other and a sorted list of different
paths is strictly increasing.

What lies below a folder is the folder followed by further names (`descend`), and
the tests on paths are stated in terms of those names.
-/

namespace Text

/-- The first text comes before the second: it has the lower code point at the
first difference, or it ends there. -/
def Before : (left right : Text) -> Prop :=
  List.Lex fun first second => first.code < second.code

theorem before_iff {left right : Text} :
    Before left right ↔ le left right = true ∧ left ≠ right := by
  induction left generalizing right with
  | nil =>
      cases right with
      | nil => simp [Before]
      | cons second right => simp [Before, le]
  | cons first left ih =>
      cases right with
      | nil => simp [Before, le]
      | cons second right =>
          have lower := @ih right
          unfold Before at lower ⊢
          rw [List.cons_lex_cons_iff, lower]
          simp only [le, Bool.or_eq_true, Bool.and_eq_true, decide_eq_true_eq]
          constructor
          · rintro (less | ⟨rfl, ordered, different⟩)
            · refine ⟨Or.inl less, fun same => ?_⟩
              rw [(List.cons.inj same).1] at less
              exact Nat.lt_irrefl _ less
            · exact ⟨Or.inr ⟨rfl, ordered⟩, fun same => different (List.cons.inj same).2⟩
          · rintro ⟨less | ⟨rfl, ordered⟩, different⟩
            · exact Or.inl less
            · exact Or.inr ⟨rfl, ordered, fun same => different (congrArg _ same)⟩

end Text

namespace PathName

theorem text_injective : Function.Injective text := by
  rintro ⟨_, _, _, _⟩ ⟨_, _, _, _⟩ rfl
  rfl

end PathName

namespace Path

/-! ## Order -/

/-- The first path comes before the second: it has the lower part at the first
difference, or it ends there. -/
def Before (left right : Path) : Prop :=
  List.Lex Text.Before left.parts right.parts

theorem lex_before_iff {left right : List Text} :
    List.Lex Text.Before left right ↔ namesLe left right = true ∧ left ≠ right := by
  induction left generalizing right with
  | nil =>
      cases right with
      | nil => simp
      | cons second right => simp [namesLe]
  | cons first left ih =>
      cases right with
      | nil => simp [namesLe]
      | cons second right =>
          rw [List.cons_lex_cons_iff, ih, Text.before_iff, namesLe]
          by_cases same : first = second
          · subst second
            simp
          · simp [same]

theorem namesLe_total (left right : List Text) :
    namesLe left right = true ∨ namesLe right left = true := by
  induction left generalizing right with
  | nil => exact Or.inl (by rw [namesLe])
  | cons first left ih =>
      cases right with
      | nil => exact Or.inr (by rw [namesLe])
      | cons second right =>
          rw [namesLe, namesLe]
          by_cases same : first = second
          · subst second
            rw [if_pos rfl, if_pos rfl]
            exact ih right
          · rw [if_neg same, if_neg (Ne.symm same)]
            exact Text.le_total first second

theorem namesLe_trans {first second third : List Text} (lower : namesLe first second = true)
    (upper : namesLe second third = true) : namesLe first third = true := by
  induction first generalizing second third with
  | nil => rw [namesLe]
  | cons a first ih =>
      cases second with
      | nil => cases lower
      | cons b second =>
          cases third with
          | nil => cases upper
          | cons c third =>
              rw [namesLe] at lower upper ⊢
              by_cases ab : a = b
              · subst b
                rw [if_pos rfl] at lower
                by_cases ac : a = c
                · subst c
                  rw [if_pos rfl] at upper ⊢
                  exact ih lower upper
                · rw [if_neg ac] at upper ⊢
                  exact upper
              · rw [if_neg ab] at lower
                by_cases bc : b = c
                · subst c
                  rw [if_neg ab]
                  exact lower
                · rw [if_neg bc] at upper
                  have through := Text.le_trans lower upper
                  have apart : a ≠ c := by
                    rintro rfl
                    exact ab (Text.le_antisymm lower upper)
                  rw [if_neg apart]
                  exact through

theorem namesLe_antisymm {first second : List Text} (lower : namesLe first second = true)
    (upper : namesLe second first = true) : first = second := by
  induction first generalizing second with
  | nil =>
      cases second with
      | nil => rfl
      | cons b second => cases upper
  | cons a first ih =>
      cases second with
      | nil => cases lower
      | cons b second =>
          rw [namesLe] at lower upper
          by_cases same : a = b
          · subst b
            rw [if_pos rfl] at lower upper
            rw [ih lower upper]
          · rw [if_neg same] at lower
            rw [if_neg (Ne.symm same)] at upper
            exact absurd (Text.le_antisymm lower upper) same

/-! ## Names -/

theorem not_mem_of_mem_pieces {text piece : Text} (member : piece ∈ pieces text) :
    Symbol.char '/' ∉ piece := by
  induction text generalizing piece with
  | nil =>
      rw [pieces, List.mem_singleton] at member
      subst piece
      exact List.not_mem_nil
  | cons c rest ih =>
      rw [pieces] at member
      split at member
      · rcases List.mem_cons.1 member with rfl | later
        · exact List.not_mem_nil
        · exact ih later
      · next different =>
          split at member
          · rw [List.mem_singleton] at member
            subst piece
            exact fun found => different (List.mem_singleton.1 found).symm
          · next first others cut =>
              rcases List.mem_cons.1 member with rfl | later
              · intro found
                rcases List.mem_cons.1 found with same | old
                · exact different same.symm
                · exact ih (cut ▸ List.mem_cons_self) old
              · exact ih (cut ▸ List.mem_cons_of_mem first later)

/-- Between the slashes of a text stand the names of the path that is read, and nothing
else but empty and `.` names. -/
theorem names_parse (text : Text) :
    (parse text).names.map PathName.text =
      (pieces text).filter fun name : Text => name ≠ "" && name ≠ "." := by
  have named : forall piece : Text, Symbol.char '/' ∉ piece ->
      (PathName.of? piece).map PathName.text =
        if piece ≠ "" && piece ≠ "." then some piece else none := by
    intro piece noSlash
    unfold PathName.of?
    by_cases proper : piece ≠ "" ∧ piece ≠ "."
    · rw [dif_pos ⟨proper.1, proper.2, noSlash⟩, if_pos (by simpa using proper)]
      rfl
    · rw [dif_neg fun all => proper ⟨all.1, all.2.1⟩, if_neg (by simpa using proper)]
      rfl
  rw [parse, List.map_filterMap, ← List.filterMap_eq_filter]
  exact List.filterMap_congr fun piece member => named piece (not_mem_of_mem_pieces member)

/-- A name is read as the path of that name alone. -/
theorem parse_text (name : PathName) : parse name.text = ⟨.here, [name]⟩ := by
  have uncut : forall text : Text, Symbol.char '/' ∉ text -> pieces text = [text] := by
    intro text noSlash
    induction text with
    | nil => rfl
    | cons c rest ih =>
        rw [List.mem_cons, not_or] at noSlash
        rw [pieces, if_neg (Ne.symm noSlash.1), ih noSlash.2]
  have start : startOf name.text = .here := by
    unfold startOf
    split
    · next same => exact absurd (same ▸ List.mem_cons_self) name.noSlash
    · next same => exact absurd (same ▸ List.mem_cons_self) name.noSlash
    · next same => exact absurd (same ▸ List.mem_cons_self) name.noSlash
    · rfl
  have whole : PathName.of? name.text = some name :=
    dif_pos ⟨name.nonempty, name.notHere, name.noSlash⟩
  rw [parse, start, uncut name.text name.noSlash]
  simp [whole]

theorem slashes_inj {left right : PathStart} : left.slashes = right.slashes ↔ left = right := by
  cases left <;> cases right <;> simp [PathStart.slashes]

/-- Paths with the same parts are the same. -/
theorem parts_injective : Function.Injective parts := by
  -- A root is told by its slashes, which no name has.
  have rooted : forall (start : PathStart) (names : List PathName) (others : List Text),
      start ≠ .here -> names.map PathName.text ≠ start.slashes :: others := by
    intro start names others outside same
    have member : start.slashes ∈ names.map PathName.text := same ▸ List.mem_cons_self
    rcases List.mem_map.1 member with ⟨name, _, named⟩
    refine name.noSlash ?_
    rw [named]
    cases start with
    | here => exact absurd rfl outside
    | root => decide
    | doubleRoot => decide
  rintro ⟨leftStart, leftNames⟩ ⟨rightStart, rightNames⟩ same
  unfold parts at same
  dsimp only at same
  by_cases leftHere : leftStart = .here
  · by_cases rightHere : rightStart = .here
    · rw [if_pos leftHere, if_pos rightHere] at same
      rw [leftHere, rightHere, PathName.text_injective.list_map same]
    · rw [if_pos leftHere, if_neg rightHere] at same
      exact absurd same (rooted rightStart leftNames _ rightHere)
  · by_cases rightHere : rightStart = .here
    · rw [if_neg leftHere, if_pos rightHere] at same
      exact absurd same.symm (rooted leftStart rightNames _ leftHere)
    · rw [if_neg leftHere, if_neg rightHere] at same
      rcases List.cons.inj same with ⟨slashes, names⟩
      rw [slashes_inj.mp slashes, PathName.text_injective.list_map names]

/-! ## Sorted paths -/

theorem pairwise_le_sorted (paths : List Path) :
    (sorted paths).Pairwise fun left right => le left right = true :=
  Sorting.sort_pairwise (fun left right : Path => namesLe_total left.parts right.parts)
    (fun _ _ _ lower upper => namesLe_trans lower upper) paths

/-- Paths may be left out before sorting or after it. -/
theorem filter_sorted (p : Path -> Bool) (paths : List Path) :
    (sorted paths).filter p = sorted (paths.filter p) :=
  Sorting.filter_sort (fun left right : Path => namesLe_total left.parts right.parts)
    (fun _ _ _ lower upper => namesLe_trans lower upper) p paths

/-- Paths, each once, are sorted into a strictly increasing list. -/
theorem pairwise_before_sorted {paths : List Path} (nodup : paths.Nodup) :
    (sorted paths).Pairwise Before := by
  have ordered := pairwise_le_sorted paths
  have apart : (sorted paths).Nodup := (Sorting.sort_perm le paths).nodup_iff.mpr nodup
  refine (ordered.and apart).imp ?_
  rintro left right ⟨lower, different⟩
  exact lex_before_iff.mpr ⟨lower, fun same => different (parts_injective same)⟩

/-- The order in which paths come does not matter once they are sorted. -/
theorem sorted_eq_of_perm {paths others : List Path} (perm : paths.Perm others) :
    sorted paths = sorted others := by
  have same : (sorted paths).Perm (sorted others) :=
    (Sorting.sort_perm le paths).trans (perm.trans (Sorting.sort_perm le others).symm)
  refine List.Perm.eq_of_pairwise ?_ (pairwise_le_sorted paths) (pairwise_le_sorted others) same
  intro left right _ _ lower upper
  exact parts_injective (namesLe_antisymm lower upper)

/-! ## Below a folder -/

/-- The path that leads on from a folder by further names. -/
def descend (folder : Path) (names : List PathName) : Path :=
  { folder with names := folder.names ++ names }

/-- A path lies below a folder if names lead on from there. -/
theorem isBelow_iff {path folder : Path} :
    path.isBelow folder = true ↔ ∃ names, names ≠ [] ∧ path = folder.descend names := by
  rcases path with ⟨start, names⟩
  simp only [isBelow, Bool.and_eq_true, decide_eq_true_eq, List.isPrefixOf_iff_prefix, descend,
    Path.mk.injEq]
  constructor
  · rintro ⟨⟨same, further, rfl⟩, longer⟩
    refine ⟨further, ?_, same, rfl⟩
    rintro rfl
    rw [List.append_nil] at longer
    exact Nat.lt_irrefl _ longer
  · rintro ⟨further, given, same, rfl⟩
    refine ⟨⟨same, further, rfl⟩, ?_⟩
    rw [List.length_append]
    exact Nat.lt_add_of_pos_right (List.length_pos_iff.mpr given)

/-- Seen from a folder, what lies below it is the names that lead on. -/
theorem relativeTo_descend (folder : Path) (names : List PathName) :
    (folder.descend names).relativeTo folder = ⟨.here, names⟩ := by
  simp [relativeTo, descend]

theorem isJson_iff {path : Path} :
    path.isJson = true ↔ ∃ stem : Text, stem ≠ [] ∧ path.name = stem ++ ".json" := by
  simp only [isJson, Bool.and_eq_true, List.isSuffixOf_iff_suffix, decide_eq_true_eq]
  constructor
  · rintro ⟨⟨stem, same⟩, longer⟩
    refine ⟨stem, ?_, same.symm⟩
    rintro rfl
    rw [← same] at longer
    exact Nat.lt_irrefl _ longer
  · rintro ⟨stem, given, same⟩
    refine ⟨⟨stem, same.symm⟩, ?_⟩
    rw [same, List.length_append]
    exact Nat.lt_add_of_pos_left (List.length_pos_iff.mpr given)

/-- The last of the names that lead on from a folder is that of the path. -/
theorem name_descend_concat (folder : Path) (passed : List PathName) (last : PathName) :
    (folder.descend (passed ++ [last])).name = last.text := by
  simp [name, descend]

/-- A name leads to a child of that name. -/
theorem name_child (name : PathName) (folder : Path) :
    (folder.child name.text).name = name.text := by
  rw [child, parse_text]
  exact name_descend_concat folder [] name

/-- Seen from a folder, a path below it has its last name. -/
theorem name_relativeTo {path folder : Path} (below : path.isBelow folder = true) :
    (path.relativeTo folder).name = path.name := by
  rcases isBelow_iff.mp below with ⟨names, given, rfl⟩
  rw [relativeTo_descend, name, name, descend, List.getLast?_append_of_ne_nil _ given]

/-- The JSON files below a folder: folders are passed, and a name of a JSON file
follows. -/
theorem isBelow_and_isJson_iff {path folder : Path} :
    path.isBelow folder = true ∧ path.isJson = true ↔
      ∃ (passed : List PathName) (last : PathName) (stem : Text), stem ≠ [] ∧
        last.text = stem ++ ".json" ∧ path = folder.descend (passed ++ [last]) := by
  rw [isBelow_iff, isJson_iff]
  constructor
  · rintro ⟨⟨names, given, rfl⟩, stem, something, named⟩
    rcases List.eq_nil_or_concat' names with none | ⟨passed, last, rfl⟩
    · exact absurd none given
    · rw [name_descend_concat] at named
      exact ⟨passed, last, stem, something, named, rfl⟩
  · rintro ⟨passed, last, stem, something, named, rfl⟩
    exact ⟨⟨_, by simp, rfl⟩, stem, something, (name_descend_concat folder passed last).trans named⟩

/-- Only the names passed on the way to a file are folders. -/
theorem hasFolder_relativeTo_iff {folder : Path} {passed : List PathName} {last : PathName}
    {name : Text} :
    ((folder.descend (passed ++ [last])).relativeTo folder).hasFolder name = true ↔
      name ∈ passed.map PathName.text := by
  rw [relativeTo_descend]
  simp [hasFolder, parts]

/-! ## Seen from a home folder -/

/-- A path that starts at no root. -/
def Relative (path : Path) : Prop :=
  path.start = .here

instance (path : Path) : Decidable path.Relative :=
  inferInstanceAs (Decidable (_ = _))

section Home

variable (home : Path) {path folder : Path} (relative : path.Relative)

include relative

/-- A relative path leads on from the home folder. -/
theorem join_eq_descend : home.join path = home.descend path.names :=
  if_pos relative

theorem parts_of_relative : path.parts = path.names.map PathName.text :=
  if_pos relative

variable (relativeFolder : folder.Relative)

include relativeFolder

theorem join_inj : home.join path = home.join folder ↔ path = folder := by
  rcases path with ⟨start, names⟩
  rcases folder with ⟨otherStart, others⟩
  cases relative
  cases relativeFolder
  simp [join]

/-- Paths below a home folder are ordered as they are seen from there. -/
theorem le_join : (home.join path).le (home.join folder) = path.le folder := by
  have parts_descend : forall names : List PathName,
      (home.descend names).parts = home.parts ++ names.map PathName.text := by
    intro names
    unfold parts descend
    rw [List.map_append]
    dsimp only
    split <;> rfl
  have namesLe_append : forall lower left right : List Text,
      namesLe (lower ++ left) (lower ++ right) = namesLe left right := by
    intro lower left right
    induction lower with
    | nil => rfl
    | cons first rest ih => rw [List.cons_append, List.cons_append, namesLe, if_pos rfl, ih]
  rw [le, le, join_eq_descend home relative, join_eq_descend home relativeFolder, parts_descend,
    parts_descend, namesLe_append, parts_of_relative relative, parts_of_relative relativeFolder]

/-- What lies below a folder does so wherever the home folder is. -/
theorem isBelow_join : (home.join path).isBelow (home.join folder) = path.isBelow folder := by
  have same : path.start = folder.start := relative.trans relativeFolder.symm
  rw [join_eq_descend home relative, join_eq_descend home relativeFolder, Bool.eq_iff_iff]
  simp only [isBelow, descend, same, List.isPrefixOf_iff_prefix, List.prefix_append_right_inj,
    List.length_append, Bool.and_eq_true, decide_eq_true_eq, Nat.add_lt_add_iff_left]

theorem relativeTo_join :
    (home.join path).relativeTo (home.join folder) = path.relativeTo folder := by
  rw [join_eq_descend home relative, join_eq_descend home relativeFolder, relativeTo, relativeTo,
    descend, descend, List.length_append, List.drop_append,
    List.drop_eq_nil_of_le (Nat.le_add_right _ _), Nat.add_sub_cancel_left, List.nil_append]

end Home

/-- The last name is that of the path from the home folder, if it has one. -/
theorem isJson_join (home : Path) {path : Path} (relative : path.Relative)
    (given : path.names ≠ []) : (home.join path).isJson = path.isJson := by
  have same : (home.join path).name = path.name := by
    rw [join_eq_descend home relative, name, name, descend, List.getLast?_append_of_ne_nil _ given]
  rw [isJson, isJson, same]

end Path
end EventSchema
