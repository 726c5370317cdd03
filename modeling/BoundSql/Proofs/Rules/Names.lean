import BoundSql.Proofs.Pattern.Occurrence
import BoundSql.Proofs.Statement.Inert
import BoundSql.Rules

/-!
# What accepted names and types are made of

Every rule for names accepts only names made of ASCII letters, digits, underscores and dots, at
every level (`isName_of_checkTable`, `isName_of_checkColumn`, `isName_of_checkAlias`). An accepted
column type is inert (`inert_of_columnType`).
-/

namespace BoundSql

namespace Identifier

theorem isPart_of_isStart {x : Char} (h : isStart x = true) : isPart x = true := by
  rw [isStart, Bool.or_eq_true] at h
  rw [isPart, Bool.or_eq_true, Char.isAlphanum, Bool.or_eq_true]
  exact h.imp_left Or.inl

theorem isPart_of_checkSegment {s : List Char} (h : checkSegment s = .ok ()) :
    ∀ x ∈ s, isPart x = true := by
  obtain ⟨c, rest, rfl, start, parts⟩ := checkSegment_eq_ok_iff.mp h
  exact List.forall_mem_cons.mpr ⟨isPart_of_isStart start, parts⟩

/-- A segment has no dot. -/
theorem splitOn_of_checkSegment {s : List Char} (h : checkSegment s = .ok ()) :
    Text.splitOn '.' s = [s] :=
  Text.splitOn_of_not_mem fun dot => absurd (isPart_of_checkSegment h '.' dot) (by decide)

/-- If the parts between dots are made of the characters of identifiers, the whole is a name. -/
theorem isName_of_splitOn {name : String}
    (h : ∀ part ∈ Text.splitOn '.' name.toList, ∀ x ∈ part, isPart x = true) :
    IsName name := by
  intro x hx
  by_cases dot : x = '.'
  · exact Or.inr dot
  · obtain ⟨part, hpart, hx⟩ := Text.exists_mem_splitOn_iff.mpr ⟨hx, dot⟩
    exact Or.inl (h part hpart x hx)

theorem isName_of_check {level : SecurityLevel} {name : String}
    (h : check level name.toList = .ok ()) : IsName name := by
  obtain ⟨-, -, segments, -⟩ := check_eq_ok_iff.mp h
  rw [checkSegments] at segments
  split at segments
  · exact isName_of_splitOn fun part hpart =>
      isPart_of_checkSegment (judgeAll_eq_ok_iff.mp segments part hpart)
  · exact fun x hx => Or.inl (isPart_of_checkSegment segments x hx)

theorem isName_of_checkQualified {level : SecurityLevel} {name : String}
    (h : checkQualified level name.toList = .ok ()) : IsName name := by
  obtain ⟨-, -, parts⟩ := checkQualified_eq_ok_iff.mp h
  refine isName_of_splitOn fun part hpart x hx => ?_
  have := parts part hpart
  rw [← String.toList_ofList (l := part)] at this hx
  rcases isName_of_check this x hx with h | rfl
  · exact h
  · rw [String.toList_ofList] at hx
    exact absurd hx (Text.not_mem_of_mem_splitOn hpart)

end Identifier

namespace Rules

variable {r : Rules} {name : String}

theorem require_validate_eq_ok_iff {level : SecurityLevel} :
    require (Identifier.validate name level) = .ok () ↔
      Identifier.check level name.toList = .ok () := by
  unfold Identifier.validate
  split <;> rename_i h <;> simp [h, require]

theorem checkTable_eq_ok_iff :
    r.checkTable name = .ok () ↔ Identifier.check r.level name.toList = .ok () :=
  require_validate_eq_ok_iff

theorem checkAlias_eq_ok_iff :
    r.checkAlias name = .ok () ↔ Identifier.check r.level.undotted name.toList = .ok () :=
  require_validate_eq_ok_iff

theorem checkColumn_eq_ok_iff :
    r.checkColumn name = .ok () ↔ Identifier.checkQualified r.level name.toList = .ok () := by
  unfold checkColumn Identifier.validateQualified
  split <;> rename_i h <;> simp [h, require]

theorem isName_of_checkTable (h : r.checkTable name = .ok ()) : IsName name :=
  Identifier.isName_of_check (checkTable_eq_ok_iff.mp h)

theorem isName_of_checkAlias (h : r.checkAlias name = .ok ()) : IsName name :=
  Identifier.isName_of_check (checkAlias_eq_ok_iff.mp h)

theorem isName_of_checkColumn (h : r.checkColumn name = .ok ()) : IsName name :=
  Identifier.isName_of_checkQualified (checkColumn_eq_ok_iff.mp h)

/-- One of the rules for names accepts the name. -/
inductive Admits (r : Rules) (name : String) : Prop
  | table (h : r.checkTable name = .ok ())
  | column (h : r.checkColumn name = .ok ())
  | given (h : r.checkAlias name = .ok ())

theorem Admits.isName (h : r.Admits name) : IsName name := by
  cases h with
  | table h => exact isName_of_checkTable h
  | column h => exact isName_of_checkColumn h
  | given h => exact isName_of_checkAlias h

theorem admits_of_checkColumns {names : List String} (h : r.checkColumns names = .ok ()) :
    ∀ name ∈ names, r.Admits name := fun name hn => .column (judgeAll_eq_ok_iff.mp h name hn)

/-! ## Column types -/

open Pattern

/-- The words of a column type. -/
def typeWords : Pattern :=
  let word := seq (one .asciiLetter) (many .identifierPart)
  seq word (star (seq (char ' ') word))

/-- The lengths of a column type, without the parentheses around them. -/
def typeLengths : Pattern := seq (run .digit) (opt (cat [blank, char ',', blank, run .digit]))

/-- An accepted column type is words and perhaps lengths in parentheses. -/
theorem exists_spells_of_columnType {s : List Char} (h : columnType.occursIn s = true) :
    ∃ words lengths, typeWords.Spells words ∧ s = words ++ lengths ∧
      (lengths = [] ∨ ∃ inner, typeLengths.Spells inner ∧ lengths = '(' :: inner ++ [')']) := by
  have stops := (((stops_stop.seq (opt (cat [char '(', run .digit,
    opt (cat [blank, char ',', blank, run .digit]), char ')']))).seq
    (star (seq (char ' ') (seq (one .asciiLetter) (many .identifierPart))))).seq
    (seq (one .asciiLetter) (many .identifierPart)))
  obtain ⟨word, _, hword, ⟨more, _, hmore, ⟨lengths, _, hlengths, rfl, rfl⟩, rfl⟩, rfl⟩ :=
    spells_of_occursIn stops h
  refine ⟨word ++ more, lengths, ⟨word, more, hword, hmore, rfl⟩, by simp, ?_⟩
  rcases hlengths with hlengths | rfl
  · obtain ⟨_, _, ⟨x, hx, rfl⟩, ⟨digits, _, hdigits, ⟨second, _, hsecond, ⟨y, hy, rfl⟩, rfl⟩, rfl⟩,
      rfl⟩ := hlengths
    rw [CharClass.has_only, beq_iff_eq] at hx hy
    subst hx hy
    exact Or.inr ⟨digits ++ second, ⟨digits, second, hdigits, hsecond, rfl⟩, by simp⟩
  · exact Or.inl rfl

/-- Characters that stand in no word and in no length. -/
def typeMarks : List Char := ['(', ')', '-'] ++ breakouts ++ PlaceholderStyle.tokenStarts

theorem not_mem_typeMarks_of_words {s : List Char} (h : typeWords.Spells s) :
    ∀ x ∈ s, x ∉ typeMarks :=
  forall_not_mem_of_spells (by decide) h

theorem not_mem_typeMarks_of_lengths {s : List Char} (h : typeLengths.Spells s) :
    ∀ x ∈ s, x ∉ typeMarks :=
  forall_not_mem_of_spells (by decide) h

theorem inert_of_not_mem_typeMarks {s : List Char} (h : ∀ x ∈ s, x ∉ typeMarks) : Inert s :=
  inert_of_forall fun x hx => by
    have := h x hx
    simp only [typeMarks, List.mem_append, List.mem_cons, not_or] at this
    exact ⟨⟨this.1.2, this.2⟩, this.1.1.2.2.1⟩

/-- **An accepted column type is inert.** -/
theorem inert_of_columnType {s : List Char} (h : columnType.occursIn s = true) : Inert s := by
  obtain ⟨words, lengths, hwords, rfl, rfl | ⟨inner, hinner, rfl⟩⟩ := exists_spells_of_columnType h
  · rw [List.append_nil]
    exact inert_of_not_mem_typeMarks (not_mem_typeMarks_of_words hwords)
  · have opening : Inert ['('] := inert_of_forall (Text.forall_mem_of_all (by decide))
    have closing : Inert [')'] := inert_of_forall (Text.forall_mem_of_all (by decide))
    have words := inert_of_not_mem_typeMarks (not_mem_typeMarks_of_words hwords)
    have inside := inert_of_not_mem_typeMarks (not_mem_typeMarks_of_lengths hinner)
    exact words.append ((opening.append inside).append closing)

end Rules

end BoundSql
