import Mathlib.Data.List.Basic
import BoundSql.Text.Split
import BoundSql.Text.WordChar

/-!
# Whole words

The whole words of a text are its longest runs of word characters: what is left when it is cut at
every other character (`wholeWords_append_cons`). Two texts are *apart* if no word runs on from one
into the other; then the words of the two in a row are the words of each (`wholeWords_append`). Two
whole words of one text stand apart or at the same place (`eq_or_mem_wholeWords`).
-/

namespace BoundSql.Text

/-- The whole words of a text. -/
def wholeWords (s : List Char) : List (List Char) :=
  (splitWhere (fun c => !isWordChar c) s).filter (!·.isEmpty)

/-- No word runs on from the one text into the other. -/
def Apart (s t : List Char) : Prop :=
  (∀ x ∈ s.getLast?, isWordChar x = false) ∨ ∀ x ∈ t.head?, isWordChar x = false

variable {s t : List Char}

@[simp] theorem wholeWords_nil : wholeWords [] = [] := rfl

/-- **A character of no word cuts a text in two.** -/
theorem wholeWords_append_cons {c : Char} (h : isWordChar c = false) (s t : List Char) :
    wholeWords (s ++ c :: t) = wholeWords s ++ wholeWords t := by
  rw [wholeWords, splitWhere_append_cons (by rw [h]; rfl), List.filter_append]
  rfl

/-- A run of word characters is one word. -/
theorem wholeWords_of_forall (hs : s ≠ []) (h : ∀ x ∈ s, isWordChar x = true) :
    wholeWords s = [s] := by
  rw [wholeWords, splitWhere_of_forall fun x hx => by rw [h x hx]; rfl]
  simpa using hs

/-- **No word runs across the border of texts that are apart.** -/
theorem wholeWords_append (h : Apart s t) : wholeWords (s ++ t) = wholeWords s ++ wholeWords t := by
  rcases h with last | first
  · rcases List.eq_nil_or_concat' s with rfl | ⟨s, c, rfl⟩
    · rfl
    · have cut : isWordChar c = false := last c (by simp)
      rw [List.append_assoc, List.singleton_append, wholeWords_append_cons cut,
        wholeWords_append_cons cut, wholeWords_nil, List.append_nil]
  · cases t with
    | nil => simp
    | cons c t =>
      have cut : isWordChar c = false := first c rfl
      rw [wholeWords_append_cons cut, ← List.nil_append (c :: t), wholeWords_append_cons cut,
        wholeWords_nil, List.nil_append]

/-- **A run of word characters is a whole word where others do not reach it.** -/
theorem mem_wholeWords {before w behind : List Char} (hw : w ≠ [])
    (word : ∀ x ∈ w, isWordChar x = true) (first : ∀ x ∈ before.getLast?, isWordChar x = false)
    (last : ∀ x ∈ behind.head?, isWordChar x = false) : w ∈ wholeWords (before ++ w ++ behind) := by
  rw [wholeWords_append (.inr last), wholeWords_append (.inl first), wholeWords_of_forall hw word]
  simp

/-- What ends outside of words starts a text that starts with a word only if it takes in the
word. -/
theorem eq_nil_or_exists_eq_append {w b m r : List Char} (word : ∀ x ∈ w, isWordChar x = true)
    (last : ∀ x ∈ m.getLast?, isWordChar x = false) (h : w ++ b = m ++ r) :
    m = [] ∨ ∃ n, m = w ++ n ∧ b = n ++ r := by
  rcases List.append_eq_append_iff.mp h with ⟨n, hm, hb⟩ | ⟨n, hw, -⟩
  · exact .inr ⟨n, hm, hb⟩
  · rcases List.eq_nil_or_concat' m with rfl | ⟨m, x, rfl⟩
    · exact .inl rfl
    · have out : isWordChar x = false := last x (by simp)
      rw [word x (by simp [hw])] at out
      cases out

/-- **Of two whole words of a text**, the second is at the same place as the first, or it is a whole
word of what is before or behind the first. -/
theorem eq_or_mem_wholeWords {a w b a' w' b' : List Char} (same : a ++ (w ++ b) = a' ++ (w' ++ b'))
    (word : ∀ x ∈ w, isWordChar x = true) (full : w' ≠ []) (word' : ∀ x ∈ w', isWordChar x = true)
    (first : ∀ x ∈ a.getLast?, isWordChar x = false)
    (first' : ∀ x ∈ a'.getLast?, isWordChar x = false)
    (last' : ∀ x ∈ b'.head?, isWordChar x = false) :
    a = a' ∨ w' ∈ wholeWords a ∨ w' ∈ wholeWords b := by
  rcases List.append_eq_append_iff.mp same with ⟨m, rfl, rest⟩ | ⟨m, rfl, rest⟩
  · have last : ∀ x ∈ m.getLast?, isWordChar x = false := fun x hx =>
      first' x (by rw [List.getLast?_append, Option.mem_def.mp hx]; rfl)
    rcases eq_nil_or_exists_eq_append word last rest with rfl | ⟨n, rfl, rfl⟩
    · exact .inl (List.append_nil a).symm
    · refine .inr (.inr ?_)
      rw [← List.append_assoc]
      refine mem_wholeWords full word' (fun x hx => last x ?_) last'
      rw [List.getLast?_append, Option.mem_def.mp hx]
      rfl
  · have last : ∀ x ∈ m.getLast?, isWordChar x = false := fun x hx =>
      first x (by rw [List.getLast?_append, Option.mem_def.mp hx]; rfl)
    rcases eq_nil_or_exists_eq_append word' last rest with rfl | ⟨n, rfl, rfl⟩
    · exact .inl (List.append_nil a')
    · refine .inr (.inl ?_)
      rw [← List.append_assoc]
      refine mem_wholeWords full word' first' fun x hx => last' x ?_
      rw [List.head?_append, Option.mem_def.mp hx]
      rfl

end BoundSql.Text
