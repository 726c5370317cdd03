import BoundSql.Dialect.Placeholder
import BoundSql.Proofs.Dialect.QuotedText
import BoundSql.Proofs.Text.Ascii

/-!
# Placeholders are found whole

The token of a position is found as one match where a delimiter or nothing follows it
(`head?_ends_tokenPattern`), and the pattern of tokens matches only at the four characters that
tokens start with (`ends_tokenPattern_of_not_mem`). The delimiters are the characters that
statements write behind names and placeholders.
-/

namespace BoundSql

/-- The characters that separate what is written in a statement. -/
def delimiters : List Char := [' ', ',', '(', ')', '.']

/-- Nothing follows, or a delimiter does. -/
def Delimited (t : List Char) : Prop := ∀ x ∈ t.head?, x ∈ delimiters

theorem delimited_cons {x : Char} (h : x ∈ delimiters) (t : List Char) : Delimited (x :: t) :=
  fun _ hx => Option.mem_some_iff.mp hx ▸ h

theorem not_isWordChar_of_delimiter {x : Char} (h : x ∈ delimiters) :
    Text.isWordChar x = false := by
  have all : ∀ y ∈ delimiters, Text.isWordChar y = false := Text.forall_mem_of_all (by decide)
  exact all x h

theorem not_isDecimalDigit_of_delimiter {x : Char} (h : x ∈ delimiters) :
    Text.isDecimalDigit x = false := by
  have all : ∀ y ∈ delimiters, Text.isDecimalDigit y = false := Text.forall_mem_of_all (by decide)
  exact all x h

namespace PlaceholderStyle

open Pattern

variable {pos : Nat} {prev : Option Char} {t : List Char}

/-- The characters that tokens start with. -/
def tokenStarts : List Char := ['$', '?', '@', ':']

/-- Tokens start with one of four characters. -/
theorem ends_tokenPattern_of_not_mem {x : Char} (h : x ∉ tokenStarts) (style : PlaceholderStyle) :
    style.tokenPattern.ends ⟨pos, prev, x :: t⟩ = [] := by
  simp only [tokenStarts, List.mem_cons, List.not_mem_nil, or_false, not_or] at h
  obtain ⟨dollar, question, at_, colon⟩ := h
  cases style with
  | numbered => exact ends_seq_char_of_ne dollar
  | questionMark => exact ends_char_of_ne question
  | atNamed => exact ends_seq_of_nil (ends_seq_char_of_ne at_)
  | colonNamed => exact ends_seq_of_nil (ends_seq_char_of_ne colon)

/-- The digits of a position: at least one, and all of them ASCII. -/
theorem exists_digits (n : Nat) : ∃ d ds, (toString n).toList = d :: ds ∧
    ∀ x ∈ d :: ds, x.isDigit = true := by
  have text : (toString n).toList = Nat.toDigits 10 n := by simp
  obtain ⟨d, ds, h⟩ := List.exists_cons_of_ne_nil (Nat.toDigits_ne_nil (b := 10) (n := n))
  refine ⟨d, ds, by rw [text, h], fun x hx => ?_⟩
  rw [← h] at hx
  exact Nat.isDigit_of_mem_toDigits (by decide) (by decide) hx

/-- A run of ASCII digits ends before a delimiter. -/
theorem head?_ends_digits {d : Char} {ds : List Char} (digits : ∀ x ∈ d :: ds, x.isDigit = true)
    (ht : Delimited t) :
    ((run .digit).ends ⟨pos, prev, d :: ds ++ t⟩).head? =
      some ⟨pos + (d :: ds).length, (d :: ds).getLast?.or prev, t⟩ :=
  head?_ends_run (fun x hx => Text.isDecimalDigit_of_isDigit (digits x hx))
    fun x hx => not_isDecimalDigit_of_delimiter (ht x hx)

/-- Behind a digit and before a delimiter a word ends. -/
theorem ends_boundary {d : Char} {ds : List Char} (digits : ∀ x ∈ d :: ds, x.isDigit = true)
    (ht : Delimited t) : boundary.ends ⟨pos, (d :: ds).getLast?.or prev, t⟩ =
      [⟨pos, (d :: ds).getLast?.or prev, t⟩] := by
  have before : ((d :: ds).getLast?.or prev).any Text.isWordChar = true := by
    rw [List.getLast?_eq_some_getLast (List.cons_ne_nil d ds)]
    exact Text.isWordChar_of_isDigit (digits _ (List.getLast_mem _))
  have behind : t.head?.any Text.isWordChar = false := by
    cases ht' : t.head? with
    | none => rfl
    | some x => exact not_isWordChar_of_delimiter (ht x ht')
  rw [ends, Cursor.atBoundary, before, behind]
  rfl

/-- A word and the digits of a position, standing as a word of their own. -/
theorem head?_ends_named (word : String) (n : Nat) (ht : Delimited t) :
    ∃ last, ((cat [literal word, run .digit, boundary]).ends
        ⟨pos, prev, word.toList ++ (toString n).toList ++ t⟩).head? =
      some ⟨pos + (word.toList ++ (toString n).toList).length, last, t⟩ := by
  obtain ⟨d, ds, hd, digits⟩ := exists_digits n
  have parts : cat [literal word, run .digit, boundary] =
      seq (literal word) (seq (run .digit) boundary) := rfl
  refine ⟨(d :: ds).getLast?.or (word.toList.getLast?.or prev), ?_⟩
  rw [hd, parts, List.append_assoc, literal,
    ends_seq_of_single (ends_literal word.toList pos prev _),
    head?_ends_seq_of_head? (head?_ends_digits digits ht) (by rw [ends_boundary digits ht]; rfl),
    List.length_append, Nat.add_assoc]

/-- **The token of a position is found whole** where nothing or a delimiter follows. -/
theorem head?_ends_tokenPattern (style : PlaceholderStyle) (n : Nat) (ht : Delimited t) :
    ∃ last, (style.tokenPattern.ends ⟨pos, prev, (style.token n).toList ++ t⟩).head? =
      some ⟨pos + (style.token n).toList.length, last, t⟩ := by
  cases style with
  | numbered =>
    obtain ⟨d, ds, hd, digits⟩ := exists_digits n
    have text : (numbered.token n).toList = '$' :: d :: ds := by
      rw [token, String.toList_append, hd]
      rfl
    refine ⟨(d :: ds).getLast?.or (some '$'), ?_⟩
    rw [text, tokenPattern, List.cons_append, ends_seq_char_self, head?_ends_digits digits ht]
    rw [Nat.add_assoc, Nat.add_comm 1]
    rfl
  | questionMark =>
    have text : (questionMark.token n).toList = ['?'] := by rw [token]; rfl
    refine ⟨some '?', ?_⟩
    rw [text, tokenPattern, List.singleton_append, ends_char_self]
    rfl
  | atNamed =>
    rw [token, String.toList_append]
    exact head?_ends_named "@param" n ht
  | colonNamed =>
    rw [token, String.toList_append]
    exact head?_ends_named ":param" n ht

/-- The character that the tokens of a style start with. -/
def start : PlaceholderStyle → Char
  | numbered => '$'
  | questionMark => '?'
  | atNamed => '@'
  | colonNamed => ':'

theorem start_mem (style : PlaceholderStyle) : style.start ∈ tokenStarts := by
  cases style <;> decide

/-- Behind its first character a token has the letters of a name and digits. -/
theorem exists_token_eq (style : PlaceholderStyle) (n : Nat) :
    ∃ r, (style.token n).toList = style.start :: r ∧ ∀ x ∈ r, x.isAlphanum = true := by
  obtain ⟨d, ds, hd, digits⟩ := exists_digits n
  have alphanum : ∀ x ∈ d :: ds, x.isAlphanum = true := by
    intro x hx
    rw [Char.isAlphanum, digits x hx, Bool.or_true]
  have letters : ∀ x ∈ "param".toList, x.isAlphanum = true := Text.forall_mem_of_all (by decide)
  have named : ∀ x ∈ "param".toList ++ d :: ds, x.isAlphanum = true := by
    intro x hx
    rcases List.mem_append.mp hx with hx | hx
    · exact letters x hx
    · exact alphanum x hx
  cases style with
  | numbered => exact ⟨d :: ds, by rw [token, String.toList_append, hd]; rfl, alphanum⟩
  | questionMark => exact ⟨[], by rw [token]; rfl, fun _ h => absurd h (by simp)⟩
  | atNamed => exact ⟨_, by rw [token, String.toList_append, hd]; rfl, named⟩
  | colonNamed => exact ⟨_, by rw [token, String.toList_append, hd]; rfl, named⟩

end PlaceholderStyle

end BoundSql
