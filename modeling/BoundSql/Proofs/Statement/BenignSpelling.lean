import BoundSql.Proofs.Statement.Calm
import BoundSql.Proofs.Statement.Spacing

/-!
# Calm pieces are spelled benign

At the strict level no part of an accepted name is a reserved word in any letter case, so a name
holds none of the words a warning looks for, bare or quoted (`benign_name`). A placeholder is a
number or a word that ends in one, and nothing is compared behind its first character
(`benign_token`). Pieces that are parted are therefore spelled benign if their fixed texts are
(`benign_spelling`).
-/

namespace BoundSql

/-! ## Parts of names -/

namespace Identifier

variable {part : List Char}

theorem asciiUpper_eq_of_caseFold {s t : List Char} (ascii : ∀ x ∈ s, x.toNat < 128)
    (e : s.map Text.caseFold = t) : Text.asciiUpper s = Text.asciiUpper t := by
  rw [← e, Text.asciiUpper, Text.asciiUpper, List.map_map]
  exact List.map_congr_left fun x hx => (Text.toUpper_caseFold (ascii x hx)).symm

theorem not_isDigit_of_isStart {x : Char} (h : isStart x = true) : x.isDigit = false :=
  Text.of_lt_of_table (P := fun x => isStart x = true → x.isDigit = false)
    (toNat_lt_of_isPart (isPart_of_isStart h)) (by decide) h

/-- **No part of a name is a reserved word in any letter case.** -/
theorem caseFold_ne_of_check (h : check .strict part = .ok ()) {k : String}
    (reserved : isReserved k.toList = true) : part.map Text.caseFold ≠ k.toList := by
  obtain ⟨-, -, segment, free⟩ := check_eq_ok_iff.mp h
  intro e
  have same := asciiUpper_eq_of_caseFold
    (fun x hx => toNat_lt_of_isPart (isPart_of_checkSegment segment x hx)) e
  have := free rfl
  rw [isReserved, same, ← isReserved, reserved] at this
  exact absurd this (by decide)

/-- The parts of a name that is accepted at the strict level. -/
theorem check_of_admits {r : Rules} (strict : r.level = .strict) {name : String}
    (h : r.Admits name) : ∀ part ∈ Text.splitOn '.' name.toList, check .strict part = .ok () := by
  have single : check .strict name.toList = .ok () →
      ∀ part ∈ Text.splitOn '.' name.toList, check .strict part = .ok () := by
    intro h
    obtain ⟨-, -, segment, -⟩ := check_eq_ok_iff.mp h
    rw [splitOn_of_checkSegment segment]
    exact List.forall_mem_singleton.mpr h
  cases h with
  | table h => exact single (strict ▸ Rules.checkTable_eq_ok_iff.mp h)
  | column h =>
    have := Rules.checkColumn_eq_ok_iff.mp h
    rw [strict] at this
    exact (checkQualified_eq_ok_iff.mp this).2.2
  | given h =>
    have := Rules.checkAlias_eq_ok_iff.mp h
    rw [strict] at this
    exact single this

end Identifier

variable {taboo : List String} {s : List Char}

/-- A part of a name behind benign text. -/
theorem Benign.part {part : List Char} (h : Benign taboo s)
    (last : ∀ x ∈ s.getLast?, Text.isWordChar x = false)
    (reserved : ∀ k ∈ taboo, Identifier.isReserved k.toList = true)
    (accepted : Identifier.check .strict part = .ok ()) : Benign taboo (s ++ part) := by
  obtain ⟨nonempty, -, segment, -⟩ := Identifier.check_eq_ok_iff.mp accepted
  refine h.word last nonempty (Identifier.isPart_of_checkSegment segment) ?_ fun k hk =>
    Identifier.caseFold_ne_of_check accepted (reserved k hk)
  obtain ⟨x, rest, rfl, start, -⟩ := Identifier.checkSegment_eq_ok_iff.mp segment
  intro y hy digit
  rw [List.head?_cons, Option.mem_some_iff] at hy
  subst hy
  exact absurd ((Identifier.not_isDigit_of_isStart start).symm.trans digit) (by decide)

/-- One character that is no word. -/
theorem benign_singleton {x : Char} (h : Unsuspicious x) (digit : x.isDigit = false)
    (word : Text.isWordChar x = false) : Benign taboo [x] := by
  refine benign_of_all (by simp [h, digit]) ?_
  rw [← List.nil_append [x], Text.wholeWords_append_cons word]
  rfl

theorem benign_quoteSegment (d : Dialect) {part : List Char}
    (reserved : ∀ k ∈ taboo, Identifier.isReserved k.toList = true)
    (accepted : Identifier.check .strict part = .ok ()) :
    Benign taboo (d.profile.quoteSegment part) := by
  obtain ⟨-, -, segment, -⟩ := Identifier.check_eq_ok_iff.mp accepted
  have opening : Text.isWordChar d.profile.openQuote = false := by cases d <;> decide
  have closing : Text.isWordChar d.profile.closeQuote = false := by cases d <;> decide
  have first : Benign taboo [d.profile.openQuote] :=
    benign_singleton (by cases d <;> decide) (by cases d <;> decide) opening
  have last : Benign taboo [d.profile.closeQuote] :=
    benign_singleton (by cases d <;> decide) (by cases d <;> decide) closing
  rw [Piece.quoteSegment_of_isPart d (Identifier.isPart_of_checkSegment segment)]
  refine (first.part ?_ reserved accepted).append last (.inr ?_)
  · simpa using opening
  · simpa using closing

/-! ## Names -/

/-- Benign texts with dots between them are benign. -/
theorem benign_dotted {texts : List (List Char)} (h : ∀ t ∈ texts, Benign taboo t) :
    Benign taboo (['.'].intercalate texts) := by
  induction texts with
  | nil => exact benign_nil
  | cons t texts ih =>
    have first := h t List.mem_cons_self
    have ih := ih fun t' ht => h t' (List.mem_cons_of_mem t ht)
    cases texts with
    | nil => rwa [List.intercalate_singleton]
    | cons t' texts =>
      have dot : Text.isWordChar '.' = false := by decide
      rw [List.intercalate_cons_cons]
      refine (first.append (benign_singleton (by decide) (by decide) dot) (.inr ?_)).append ih
        (.inl ?_)
      · simpa using dot
      · simpa using dot

/-- **An accepted name is benign**, bare or quoted. -/
theorem benign_name (d : Dialect) (quoted : Bool) {name : String}
    (reserved : ∀ k ∈ taboo, Identifier.isReserved k.toList = true)
    (accepted : ∀ part ∈ Text.splitOn '.' name.toList, Identifier.check .strict part = .ok ()) :
    Benign taboo (if quoted then d.profile.quoteIdentifier name else name).toList := by
  cases quoted with
  | false =>
    rw [if_neg Bool.false_ne_true, ← Text.intercalate_splitOn '.' name.toList]
    refine benign_dotted fun part hpart => ?_
    have := benign_nil.part (fun _ hx => absurd hx (by simp)) reserved (accepted part hpart)
    rwa [List.nil_append] at this
  | true =>
    rw [if_pos rfl, DialectProfile.quoteIdentifier, String.toList_ofList]
    exact benign_dotted (List.forall_mem_map.mpr fun part hpart =>
      benign_quoteSegment d reserved (accepted part hpart))

/-! ## Placeholders -/

/-- A word that ends in a numeral behind the first character of a token. -/
theorem benign_numbered {start : Char} (h : start ∈ PlaceholderStyle.tokenStarts)
    (letters : ∀ k ∈ taboo, k.toList.all (!·.isDigit) = true) {word : String}
    (parts : ∀ x ∈ word.toList, Identifier.isPart x = true) (n : Nat) :
    Benign taboo ([start] ++ (word.toList ++ (toString n).toList)) := by
  have starts : ∀ x ∈ PlaceholderStyle.tokenStarts, Unsuspicious x ∧ x.isDigit = false ∧
      Text.isWordChar x = false ∧ x ∈ lastVisible? [x] ∧ ¬Compares x :=
    Text.forall_mem_of_all (by decide)
  obtain ⟨unsuspicious, digit, nonword, visible, compares⟩ := starts start h
  obtain ⟨d, ds, hd, digits⟩ := PlaceholderStyle.exists_digits n
  have last : d ∈ word.toList ++ (toString n).toList := by
    rw [hd]
    exact List.mem_append_right _ List.mem_cons_self
  refine (benign_singleton unsuspicious digit nonword).word (by simpa using nonword)
    (List.ne_nil_of_mem last) ?_ (fun _ _ _ => Or.inr ⟨start, visible, compares⟩) fun k hk =>
      map_caseFold_ne_of_isDigit last (digits d List.mem_cons_self) (letters k hk)
  exact List.forall_mem_append.mpr ⟨parts, isPart_of_mem_toString_nat n⟩

/-- **Placeholders are benign.** -/
theorem benign_token (letters : ∀ k ∈ taboo, k.toList.all (!·.isDigit) = true)
    (style : PlaceholderStyle) (n : Nat) : Benign taboo (style.token n).toList := by
  have param : ∀ x ∈ "param".toList, Identifier.isPart x = true :=
    Text.forall_mem_of_all (by decide)
  cases style with
  | numbered =>
    have bare : ∀ x ∈ "".toList, Identifier.isPart x = true := Text.forall_mem_of_all (by decide)
    rw [PlaceholderStyle.token, String.toList_append]
    exact benign_numbered (by decide) letters bare n
  | questionMark =>
    rw [PlaceholderStyle.token]
    exact benign_singleton (x := '?') (by decide) (by decide) (by decide)
  | atNamed =>
    rw [PlaceholderStyle.token, String.toList_append]
    exact benign_numbered (by decide) letters param n
  | colonNamed =>
    rw [PlaceholderStyle.token, String.toList_append]
    exact benign_numbered (by decide) letters param n

/-! ## Pieces -/

namespace Piece

/-- A fixed text is benign. -/
def Avoids (taboo : List String) : Piece → Prop
  | text s => Benign taboo s.toList
  | _ => True

theorem Calm.avoids {r : Rules} {x : Piece} (h : x.Calm r) : x.Avoids alarms := by
  cases x with
  | text s => exact h.2
  | ident name | bind v => trivial

variable {r : Rules} {pieces : List Piece} {d : Dialect} {quoted : Bool}

/-- Where something is parted from the next piece, the next piece starts no word. -/
theorem apart_spelling {x : Piece} (parted : ∀ y ∈ pieces.head?, Parted x y) {t : List Char}
    (ends : x.isLoose = true ∨ ∀ z ∈ t.getLast?, Text.isWordChar z = false) (n : Nat) :
    Text.Apart t (Writer.spelling d.profile quoted n pieces).toList := by
  rcases ends with loose | closed
  · exact .inr fun z hz => not_isWordChar_of_delimiter
      (delimited_spelling (fun y hy => parted y hy loose) n z hz)
  · exact .inl closed

/-- **Calm pieces whose fixed texts are benign are spelled benign.** -/
theorem benign_spelling (strict : r.level = .strict) (calm : ∀ x ∈ pieces, x.Calm r)
    (avoids : ∀ x ∈ pieces, x.Avoids taboo) (parted : pieces.IsChain Parted)
    (reserved : ∀ k ∈ taboo, Identifier.isReserved k.toList = true)
    (letters : ∀ k ∈ taboo, k.toList.all (!·.isDigit) = true) (n : Nat) :
    Benign taboo (Writer.spelling d.profile quoted n pieces).toList := by
  induction pieces generalizing n with
  | nil => exact benign_nil
  | cons x pieces ih =>
    rw [List.isChain_cons] at parted
    obtain ⟨first, calm⟩ := List.forall_mem_cons.mp calm
    obtain ⟨fixed, avoids⟩ := List.forall_mem_cons.mp avoids
    have rest := ih calm avoids parted.2
    cases x with
    | text s =>
      rw [Writer.spelling, String.toList_append]
      refine Benign.append fixed (rest n) (apart_spelling parted.1 ?_ n)
      cases loose : (text s).isLoose with
      | true => exact .inl rfl
      | false =>
        refine .inr fun z hz => ?_
        rw [isLoose, Bool.or_eq_false_iff, Option.mem_def.mp hz] at loose
        exact loose.2
    | ident name =>
      rw [Writer.spelling, String.toList_append]
      exact (benign_name d quoted reserved (Identifier.check_of_admits strict first)).append
        (rest n) (apart_spelling parted.1 (.inl rfl) n)
    | bind v =>
      rw [Writer.spelling, String.toList_append]
      exact (benign_token letters _ _).append (rest (n + 1))
        (apart_spelling parted.1 (.inl rfl) (n + 1))

end Piece

end BoundSql
