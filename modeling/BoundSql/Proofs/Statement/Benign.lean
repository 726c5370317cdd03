import BoundSql.Proofs.Statement.Inert
import BoundSql.Proofs.Text.WholeWords
import BoundSql.Text.Case

/-!
# Benign text

What a text must be free of for nothing in it to raise a warning: a character that ends a literal or
a statement or opens a comment, a number that something could be compared with, and the words a
warning looks for. Numbers are the one thing that what stands before can make harmless: a digit is
*anchored* within a word or behind something visible that is no operator. Benign texts in a row are
benign if no word runs across the border (`Benign.append`), and so is a benign text with a word
behind it (`Benign.word`), a numeral included.
-/

namespace BoundSql

/-! ## Characters -/

/-- The characters that a literal, a comment or the end of a statement cannot do without. -/
def suspects : List Char := ['\'', '-', '#', '/', ';']

/-- The character is ASCII and no suspect. -/
def Unsuspicious (x : Char) : Prop := x.toNat < 128 ∧ x ∉ suspects

instance (x : Char) : Decidable (Unsuspicious x) := inferInstanceAs (Decidable (_ ∧ _))

theorem unsuspicious_of_unmarked {x : Char} (h : Unmarked x) (hyphen : x ≠ '-')
    (ascii : x.toNat < 128) : Unsuspicious x := by
  refine ⟨ascii, fun hx => ?_⟩
  have sub : ∀ y ∈ suspects, y ∈ '-' :: breakouts := Text.forall_mem_of_all (by decide)
  rcases List.mem_cons.mp (sub x hx) with e | hx
  · exact hyphen e
  · exact h.1 hx

theorem toNat_lt_of_isPart {x : Char} (h : Identifier.isPart x = true) : x.toNat < 128 :=
  Text.toNat_lt_of_isAsciiWordChar h

theorem isWordChar_of_isPart {x : Char} (h : Identifier.isPart x = true) :
    Text.isWordChar x = true :=
  Text.isWordChar_of_isAsciiWordChar h

theorem isWhiteSpace_of_isPart {x : Char} (h : Identifier.isPart x = true) :
    Text.isWhiteSpace x = false :=
  Text.of_lt_of_table (P := fun x => Identifier.isPart x = true → Text.isWhiteSpace x = false)
    (toNat_lt_of_isPart h) (by decide) h

theorem unsuspicious_of_isPart {x : Char} (h : Identifier.isPart x = true) : Unsuspicious x :=
  unsuspicious_of_unmarked (unmarked_of_isPart h) (ne_hyphen_of_isPart h) (toNat_lt_of_isPart h)

/-! ## Anchored numbers -/

/-- The last character of a text, white space apart. -/
def lastVisible? (s : List Char) : Option Char := s.reverse.find? (!Text.isWhiteSpace ·)

/-- What is compared stands behind the character: it ends an operator, opens the list of an IN, or
is the last letter of a LIKE. -/
def Compares (x : Char) : Prop := x ∈ ['=', '<', '>', '('] ∨ Text.caseFold x = 'e'

instance (x : Char) : Decidable (Compares x) := inferInstanceAs (Decidable (_ ∨ _))

/-- Something visible comes last that nothing is compared behind. -/
def Counts (s : List Char) : Prop := ∃ x ∈ lastVisible? s, ¬Compares x

/-- A digit may follow: within a word, or to count something. -/
def Anchors (s : List Char) : Prop :=
  (∃ x ∈ s.getLast?, Identifier.isPart x = true) ∨ Counts s

/-- Every digit is within a word or counts something. -/
def Anchored (s : List Char) : Prop :=
  ∀ before x behind, s = before ++ x :: behind → x.isDigit = true → Anchors before

variable {s t w : List Char}

theorem lastVisible?_append (s t : List Char) :
    lastVisible? (s ++ t) = (lastVisible? t).or (lastVisible? s) := by
  rw [lastVisible?, List.reverse_append, List.find?_append]
  rfl

theorem lastVisible?_of_blank (h : ∀ x ∈ s, Text.isWhiteSpace x = true) : lastVisible? s = none :=
  List.find?_eq_none.mpr fun x hx => by simp [h x (List.mem_reverse.mp hx)]

theorem lastVisible?_of_getLast? {x : Char} (h : x ∈ s.getLast?)
    (visible : Text.isWhiteSpace x = false) : lastVisible? s = some x := by
  obtain ⟨before, rfl⟩ := List.getLast?_eq_some_iff.mp h
  rw [lastVisible?_append, lastVisible?, List.reverse_singleton, List.find?_cons, visible]
  rfl

theorem Counts.append_left (h : Counts t) (s : List Char) : Counts (s ++ t) := by
  obtain ⟨x, hx, apart⟩ := h
  refine ⟨x, ?_, apart⟩
  rw [lastVisible?_append, Option.mem_def.mp hx]
  rfl

theorem Anchors.append_left (h : Anchors t) (s : List Char) : Anchors (s ++ t) := by
  rcases h with ⟨x, hx, part⟩ | counts
  · refine Or.inl ⟨x, ?_, part⟩
    rw [List.getLast?_append, Option.mem_def.mp hx]
    rfl
  · exact Or.inr (counts.append_left s)

theorem anchored_of_forall (h : ∀ x ∈ s, x.isDigit = false) : Anchored s := by
  rintro before x behind rfl digit
  rw [h x (List.mem_append_right before List.mem_cons_self)] at digit
  exact absurd digit (by decide)

theorem not_anchors_nil : ¬Anchors [] := by
  rintro (⟨_, h, -⟩ | ⟨_, h, -⟩) <;> cases h

theorem Anchored.append (hs : Anchored s) (ht : Anchored t) : Anchored (s ++ t) := by
  intro before x behind e digit
  rcases List.append_eq_append_iff.mp e with ⟨middle, rfl, within⟩ | ⟨middle, within, border⟩
  · exact (ht middle x behind within digit).append_left s
  · cases middle with
    | nil => exact absurd (ht [] x behind border.symm digit) not_anchors_nil
    | cons y middle =>
      rw [List.cons_append, List.cons.injEq] at border
      rw [← border.1] at within
      exact hs before x middle within digit

/-- A digit within a word is anchored, and one that starts it is if what stands before anchors
it. -/
theorem Anchored.word (h : Anchored s) (parts : ∀ x ∈ w, Identifier.isPart x = true)
    (first : ∀ x ∈ w.head?, x.isDigit = true → Anchors s) : Anchored (s ++ w) := by
  intro before x behind e digit
  rcases List.append_eq_append_iff.mp e with ⟨middle, rfl, rfl⟩ | ⟨middle, rfl, border⟩
  · rcases List.eq_nil_or_concat' middle with rfl | ⟨middle, y, rfl⟩
    · rw [List.append_nil]
      exact first x rfl digit
    · refine Anchors.append_left (Or.inl ⟨y, by simp, parts y ?_⟩) s
      simp
  · cases middle with
    | nil =>
      rw [List.append_nil] at first
      exact first x (by rw [← List.nil_append w, ← border]; rfl) digit
    | cons y middle =>
      rw [List.cons_append, List.cons.injEq] at border
      exact h before x middle (by rw [border.1]) digit

/-! ## Benign texts -/

/-- Nothing in the text raises a warning, and it has none of the words. -/
structure Benign (taboo : List String) (s : List Char) : Prop where
  unsuspicious : ∀ x ∈ s, Unsuspicious x
  anchored : Anchored s
  avoids : ∀ w ∈ Text.wholeWords s, ∀ k ∈ taboo, w.map Text.caseFold ≠ k.toList

variable {taboo : List String}

/-- A text without digits is benign if a computation finds it so. -/
theorem benign_of_all
    (characters : s.all (fun x => decide (Unsuspicious x ∧ x.isDigit = false)) = true)
    (words : (Text.wholeWords s).all
      (fun w => taboo.all fun k => w.map Text.caseFold != k.toList) = true) : Benign taboo s where
  unsuspicious x hx := (Text.forall_mem_of_all characters x hx).1
  anchored := anchored_of_forall fun x hx => (Text.forall_mem_of_all characters x hx).2
  avoids w hw k hk := bne_iff_ne.mp (List.all_eq_true.mp (List.all_eq_true.mp words w hw) k hk)

theorem benign_nil : Benign taboo [] := benign_of_all rfl rfl

/-- **Benign texts in a row are benign** if no word runs from one into the other. -/
theorem Benign.append (hs : Benign taboo s) (ht : Benign taboo t) (apart : Text.Apart s t) :
    Benign taboo (s ++ t) where
  unsuspicious := List.forall_mem_append.mpr ⟨hs.unsuspicious, ht.unsuspicious⟩
  anchored := hs.anchored.append ht.anchored
  avoids := by
    rw [Text.wholeWords_append apart]
    exact List.forall_mem_append.mpr ⟨hs.avoids, ht.avoids⟩

/-- A word with a digit is no word without. -/
theorem map_caseFold_ne_of_isDigit {x : Char} (hx : x ∈ w) (digit : x.isDigit = true) {k : String}
    (letters : k.toList.all (!·.isDigit) = true) : w.map Text.caseFold ≠ k.toList := by
  intro e
  have hk : x ∈ k.toList := by
    rw [← e, ← Text.caseFold_of_isDigit digit]
    exact List.mem_map_of_mem hx
  have := List.all_eq_true.mp letters x hk
  rw [digit] at this
  exact absurd this (by decide)

/-- **A word behind a benign text** leaves it benign if it is none of the words and a number only
where one is anchored. -/
theorem Benign.word (h : Benign taboo s) (last : ∀ x ∈ s.getLast?, Text.isWordChar x = false)
    (nonempty : w ≠ []) (parts : ∀ x ∈ w, Identifier.isPart x = true)
    (first : ∀ x ∈ w.head?, x.isDigit = true → Anchors s)
    (avoids : ∀ k ∈ taboo, w.map Text.caseFold ≠ k.toList) : Benign taboo (s ++ w) where
  unsuspicious := List.forall_mem_append.mpr
    ⟨h.unsuspicious, fun x hx => unsuspicious_of_isPart (parts x hx)⟩
  anchored := h.anchored.word parts first
  avoids := by
    rw [Text.wholeWords_append (.inl last),
      Text.wholeWords_of_forall nonempty fun x hx => isWordChar_of_isPart (parts x hx)]
    exact List.forall_mem_append.mpr ⟨h.avoids, List.forall_mem_singleton.mpr avoids⟩

end BoundSql
