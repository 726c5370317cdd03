import Mathlib.Data.List.Chain
import BoundSql.Proofs.Dialect.Tokens
import BoundSql.Validation.Identifier

/-!
# Inert text

Which characters can end quoted text, end a statement, open a comment or start a token, and which
texts are free of them. A text is *quiet* if nothing in it breaks out and it opens no comment, not
even together with what follows it; it is *inert* if moreover it starts no token. Both are closed
under putting texts one behind the other (`Quiet.append`, `Inert.append`), and numerals are inert
(`inert_toString_int`), negative ones with their hyphen included.
-/

namespace BoundSql

/-! ## Characters that matter to a search -/

/-- The characters that open or close quoted text, end a statement or take part in opening a
comment, the hyphen apart. -/
def breakouts : List Char := ['\'', '"', '\x60', '[', ']', ';', '#', '\\', '/']

/-- The character neither breaks out nor starts a token. -/
def Unmarked (x : Char) : Prop := x ∉ breakouts ∧ x ∉ PlaceholderStyle.tokenStarts

instance (x : Char) : Decidable (Unmarked x) := inferInstanceAs (Decidable (_ ∧ _))

theorem not_mem_openers {x : Char} (h : x ∉ breakouts) : x ∉ Quoted.openers := by
  intro hx
  have sub : ∀ y ∈ Quoted.openers, y ∈ breakouts := Text.forall_mem_of_all (by decide)
  exact h (sub x hx)

theorem unmarked_of_isPart {x : Char} (h : Identifier.isPart x = true) : Unmarked x := by
  have marked : ∀ y ∈ breakouts ++ PlaceholderStyle.tokenStarts, Identifier.isPart y = false :=
    Text.forall_mem_of_all (by decide)
  constructor
  · intro hx
    rw [marked x (List.mem_append_left _ hx)] at h
    exact absurd h (by decide)
  · intro hx
    rw [marked x (List.mem_append_right _ hx)] at h
    exact absurd h (by decide)

theorem isPart_of_isAlphanum {x : Char} (h : x.isAlphanum = true) : Identifier.isPart x = true := by
  rw [Identifier.isPart, h, Bool.true_or]

/-! ## Quiet and inert texts -/

/-- Nothing in the text breaks out, and it neither opens a comment nor ends with a hyphen. -/
structure Quiet (s : List Char) : Prop where
  unbroken : ∀ x ∈ s, x ∉ breakouts
  noComment : s.IsChain fun x y => ¬ (x = '-' ∧ y = '-')
  noHyphen : s.getLast? ≠ some '-'

/-- The text is quiet and starts no token. -/
structure Inert (s : List Char) : Prop extends Quiet s where
  noToken : ∀ x ∈ s, x ∉ PlaceholderStyle.tokenStarts

variable {s t : List Char}

theorem Inert.unmarked (h : Inert s) : ∀ x ∈ s, Unmarked x := fun x hx =>
  ⟨h.unbroken x hx, h.noToken x hx⟩

theorem quiet_of_forall (h : ∀ x ∈ s, x ∉ breakouts ∧ x ≠ '-') : Quiet s where
  unbroken x hx := (h x hx).1
  noComment := by
    induction s with
    | nil => exact .nil
    | cons x s ih =>
      refine List.isChain_cons.mpr ⟨fun y _ e => ?_, ih fun y hy => h y (List.mem_cons_of_mem x hy)⟩
      exact (h x List.mem_cons_self).2 e.1
  noHyphen hs := (h '-' (List.mem_of_getLast? hs)).2 rfl

/-- Unmarked characters other than hyphens make an inert text. -/
theorem inert_of_forall (h : ∀ x ∈ s, Unmarked x ∧ x ≠ '-') : Inert s where
  toQuiet := quiet_of_forall fun x hx => ⟨(h x hx).1.1, (h x hx).2⟩
  noToken x hx := (h x hx).1.2

theorem quiet_nil : Quiet [] := quiet_of_forall fun _ h => absurd h List.not_mem_nil

theorem Quiet.append (hs : Quiet s) (ht : Quiet t) : Quiet (s ++ t) where
  unbroken x hx := (List.mem_append.mp hx).elim (hs.unbroken x) (ht.unbroken x)
  noComment := by
    refine List.isChain_append.mpr ⟨hs.noComment, ht.noComment, fun x hx y _ e => ?_⟩
    rw [e.1] at hx
    exact hs.noHyphen hx
  noHyphen := by
    rw [List.getLast?_append]
    cases h : t.getLast? with
    | none => exact hs.noHyphen
    | some x =>
      rw [Option.some_or, ← h]
      exact ht.noHyphen

theorem Inert.append (hs : Inert s) (ht : Inert t) : Inert (s ++ t) where
  toQuiet := hs.toQuiet.append ht.toQuiet
  noToken x hx := (List.mem_append.mp hx).elim (hs.noToken x) (ht.noToken x)

/-- **A quiet text opens no comment of two hyphens.** -/
theorem Quiet.not_infix (h : Quiet s) : ¬ ['-', '-'] <:+: s := fun hs =>
  List.isChain_pair.mp ( List.IsChain.infix h.noComment hs) ⟨rfl, rfl⟩

/-! ## Names and numerals -/

/-- A name is made of the characters of identifiers and dots. -/
def IsName (name : String) : Prop := ∀ x ∈ name.toList, Identifier.isPart x = true ∨ x = '.'

theorem unmarked_of_isName {name : String} (h : IsName name) : ∀ x ∈ name.toList,
    Unmarked x := by
  intro x hx
  rcases h x hx with h | rfl
  · exact unmarked_of_isPart h
  · decide

theorem ne_hyphen_of_isPart {x : Char} (h : Identifier.isPart x = true) : x ≠ '-' := by
  intro e
  rw [e] at h
  exact absurd h (by decide)

theorem inert_of_isPart (h : ∀ x ∈ s, Identifier.isPart x = true) : Inert s :=
  inert_of_forall fun x hx => ⟨unmarked_of_isPart (h x hx), ne_hyphen_of_isPart (h x hx)⟩

theorem isPart_of_mem_toString_nat (n : Nat) :
    ∀ x ∈ (toString n).toList, Identifier.isPart x = true := by
  obtain ⟨d, ds, hd, digits⟩ := PlaceholderStyle.exists_digits n
  rw [hd]
  intro x hx
  refine isPart_of_isAlphanum ?_
  rw [Char.isAlphanum, digits x hx, Bool.or_true]

theorem inert_toString_nat (n : Nat) : Inert (toString n).toList :=
  inert_of_isPart (isPart_of_mem_toString_nat n)

theorem toList_toString_negSucc (n : Nat) :
    (toString (Int.negSucc n)).toList = '-' :: (toString (n + 1)).toList := by
  simp [toString, Int.repr]

theorem mem_toString_int (n : Int) :
    ∀ x ∈ (toString n).toList, x = '-' ∨ Identifier.isPart x = true := by
  cases n with
  | ofNat n => exact fun x hx => Or.inr (isPart_of_mem_toString_nat n x hx)
  | negSucc n =>
    rw [toList_toString_negSucc]
    exact List.forall_mem_cons.mpr
      ⟨Or.inl rfl, fun x hx => Or.inr (isPart_of_mem_toString_nat (n + 1) x hx)⟩

/-- **Numerals are inert**: a hyphen stands only in front of digits. -/
theorem inert_toString_int (n : Int) : Inert (toString n).toList := by
  cases n with
  | ofNat n => exact inert_toString_nat n
  | negSucc n =>
    obtain ⟨d, ds, hd, digits⟩ := PlaceholderStyle.exists_digits (n + 1)
    have rest := inert_toString_nat (n + 1)
    rw [toList_toString_negSucc]
    rw [hd] at rest ⊢
    have first : d ≠ '-' := by
      intro e
      have := digits d List.mem_cons_self
      rw [e] at this
      exact absurd this (by decide)
    refine ⟨⟨?_, ?_, ?_⟩, ?_⟩
    · exact List.forall_mem_cons.mpr ⟨by decide, rest.unbroken⟩
    · refine List.isChain_cons.mpr ⟨fun y hy e => ?_, rest.noComment⟩
      rw [List.head?_cons, Option.mem_some_iff] at hy
      exact first (hy.trans e.2)
    · rw [List.getLast?_cons_cons]
      exact rest.noHyphen
    · exact List.forall_mem_cons.mpr ⟨by decide, rest.noToken⟩

end BoundSql
