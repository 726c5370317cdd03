import BoundSql.Dialect.Quoting
import BoundSql.Proofs.Pattern.Cut

/-!
# Quoted text is found whole

`Quoted.Span close s` lists the texts that `Quoted.span` is about: a text between single or double
quotes in which that quote is written twice, one between backticks without any inside, one between
brackets without a closing one inside. `head?_ends_span` says that the pattern matches exactly such
a text, provided its closing quote does not follow again where quotes are doubled, and
`ends_span_of_not_mem` that it matches nowhere else than at an opening quote.
-/

namespace BoundSql.Quoted

open Pattern

variable {pos : Nat} {prev : Option Char} {q : Char} {s t : List Char}

/-- A quoted text, by its closing quote. -/
inductive Span : Char → List Char → Prop
  | single (s : List Char) : Span '\'' ('\'' :: Text.doubling '\'' s ++ ['\''])
  | double (s : List Char) : Span '"' ('"' :: Text.doubling '"' s ++ ['"'])
  | backtick (s : List Char) (h : '\x60' ∉ s) : Span '\x60' ('\x60' :: s ++ ['\x60'])
  | bracket (s : List Char) (h : ']' ∉ s) : Span ']' ('[' :: s ++ [']'])

/-- The quotes that are written twice inside of quoted text. -/
def doublable : List Char := ['\'', '"']

/-! ## Doubled quotes -/

/-- What stands between two quotes, one step of it: another character, or the quote twice. -/
def inner (q : Char) : Pattern := alt (one (.except (.only q))) (seq (char q) (char q))

theorem ends_inner_of_ne {x : Char} (h : x ≠ q) :
    (inner q).ends ⟨pos, prev, x :: t⟩ = [⟨pos + 1, some x, t⟩] := by
  have hx : (CharClass.except (.only q)).has x = true := by simpa using h
  rw [inner, ends, ends_one_cons, if_pos hx, ends_seq_char_of_ne h]
  rfl

theorem ends_inner_pair :
    (inner q).ends ⟨pos, prev, q :: q :: t⟩ = [⟨pos + 1 + 1, some q, t⟩] := by
  have hq : ¬ (CharClass.except (.only q)).has q = true := by simp
  rw [inner, ends, ends_one_cons, if_neg hq, ends_seq_char_self, ends_char_self]
  rfl

/-- A quote that stands alone is no step. -/
theorem ends_inner_alone (ht : t.head? ≠ some q) : (inner q).ends ⟨pos, prev, q :: t⟩ = [] := by
  have hq : ¬ (CharClass.except (.only q)).has q = true := by simp
  rw [inner, ends, ends_one_cons, if_neg hq, ends_seq_char_self]
  cases t with
  | nil => rfl
  | cons y t => rw [ends_char_of_ne fun e => ht (by rw [e, List.head?_cons])]; rfl

theorem doubling_cons_self (q : Char) (s : List Char) :
    Text.doubling q (q :: s) = q :: q :: Text.doubling q s := by
  rw [Text.doubling, List.flatMap_cons, if_pos rfl]
  rfl

theorem doubling_cons_of_ne {x : Char} (h : x ≠ q) (s : List Char) :
    Text.doubling q (x :: s) = x :: Text.doubling q s := by
  rw [Text.doubling, List.flatMap_cons, if_neg h]
  rfl

/-- Steps lead on from everywhere until there is none. -/
theorem exists_walk (q : Char) : ∀ (t : List Char) (pos : Nat) (prev : Option Char),
    ∃ ds, Walk (inner q).ends ⟨pos, prev, t⟩ ds ∧ ds.length ≤ t.length + 1
  | [], _, _ => ⟨_, .stop rfl, by simp⟩
  | [x], pos, prev => by
    by_cases hx : x = q
    · exact hx ▸ ⟨_, .stop (ends_inner_alone (by simp)), by simp⟩
    · exact ⟨_, .step (ends_inner_of_ne hx) (Nat.lt_succ_self pos) (.stop rfl), by simp⟩
  | x :: y :: t, pos, prev => by
    by_cases hx : x = q
    · by_cases hy : y = q
      · obtain ⟨ds, walk, length⟩ := exists_walk q t (pos + 1 + 1) (some q)
        rw [hx, hy]
        exact ⟨_, .step ends_inner_pair (by simp only; omega) walk, by simp; omega⟩
      · rw [hx]
        exact ⟨_, .stop (ends_inner_alone (by simpa using hy)), by simp⟩
    · obtain ⟨ds, walk, length⟩ := exists_walk q (y :: t) (pos + 1) (some x)
      exact ⟨_, .step (ends_inner_of_ne hx) (Nat.lt_succ_self pos) walk, by simpa using length⟩

/-- A text in quotes can end at the quotes behind the places that the steps through it lead to. -/
theorem ends_doubled_of_walk {ds : List Cursor}
    (walk : Walk (inner q).ends ⟨pos + 1, some q, t⟩ ds) (length : ds.length ≤ t.length + 1) :
    (doubled q).ends ⟨pos, prev, q :: t⟩ = ds.reverse.flatMap (char q).ends := by
  have star : (star (inner q)).ends ⟨pos + 1, some q, t⟩ = ds.reverse := ends_star walk length
  have parts : doubled q = seq (char q) (seq (Pattern.star (inner q)) (char q)) := rfl
  rw [parts, ends_seq_char_self, ends, star]

/-- The steps through a text with doubled quotes lead to what is behind it. -/
theorem walk_doubling (q : Char) (s t : List Char) (pos : Nat) (prev : Option Char) :
    ∃ before last, before.length ≤ (Text.doubling q s).length ∧
      ∀ ds, Walk (inner q).ends ⟨pos + (Text.doubling q s).length, last, t⟩ ds →
        Walk (inner q).ends ⟨pos, prev, Text.doubling q s ++ t⟩ (before ++ ds) := by
  induction s generalizing pos prev with
  | nil => exact ⟨[], prev, Nat.le_refl 0, fun ds walk => walk⟩
  | cons x s ih =>
    by_cases hx : x = q
    · obtain ⟨before, last, length, onwards⟩ := ih (pos + 1 + 1) (some q)
      rw [hx, doubling_cons_self]
      refine ⟨⟨pos, prev, q :: q :: (Text.doubling q s ++ t)⟩ :: before, last, by simp; omega,
        fun ds walk => ?_⟩
      refine .step ends_inner_pair (by simp only; omega) (onwards ds ?_)
      have place : pos + 1 + 1 + (Text.doubling q s).length =
          pos + (q :: q :: Text.doubling q s).length := by simp only [List.length_cons]; omega
      rwa [place]
    · obtain ⟨before, last, length, onwards⟩ := ih (pos + 1) (some x)
      rw [doubling_cons_of_ne hx]
      refine ⟨⟨pos, prev, x :: (Text.doubling q s ++ t)⟩ :: before, last, by simp; omega,
        fun ds walk => ?_⟩
      refine .step (ends_inner_of_ne hx) (Nat.lt_succ_self pos) (onwards ds ?_)
      rwa [Nat.add_right_comm]

theorem ends_doubled_of_ne {x : Char} (h : x ≠ q) : (doubled q).ends ⟨pos, prev, x :: t⟩ = [] :=
  ends_seq_char_of_ne h

theorem ends_doubled_of_head?_ne (ht : t.head? ≠ some q) :
    (doubled q).ends ⟨pos, prev, t⟩ = [] := by
  cases t with
  | nil => rfl
  | cons x t => exact ends_doubled_of_ne fun e => ht (congrArg some e)

/-- **Text with doubled quotes ends at its closing quote**, or, if that quote follows again, where
the text in quotes ends that starts there. -/
theorem head?_ends_doubled_append {behind : Nat}
    (place : behind = pos + (q :: Text.doubling q s ++ [q]).length) (t : List Char) :
    ((doubled q).ends ⟨pos, prev, q :: Text.doubling q s ++ [q] ++ t⟩).head? =
      ((doubled q).ends ⟨behind, some q, t⟩).head?.or (some ⟨behind, some q, t⟩) := by
  obtain ⟨before, last, length, onwards⟩ := walk_doubling q s (q :: t) (pos + 1) (some q)
  have here : behind = pos + 1 + (Text.doubling q s).length + 1 := by
    simp only [List.length_append, List.length_cons, List.length_nil] at place
    omega
  -- Behind the place of the closing quote the walk goes on over a second quote only.
  obtain ⟨ds, walk, short, onward⟩ : ∃ ds,
      Walk (inner q).ends ⟨pos + 1 + (Text.doubling q s).length, last, q :: t⟩
        (⟨pos + 1 + (Text.doubling q s).length, last, q :: t⟩ :: ds) ∧
      ds.length ≤ t.length ∧
      (doubled q).ends ⟨behind, some q, t⟩ = ds.reverse.flatMap (char q).ends := by
    by_cases ht : t.head? = some q
    · obtain ⟨t', rfl⟩ : ∃ t', t = q :: t' := List.head?_eq_some_iff.mp ht
      obtain ⟨ds, walk, short⟩ := exists_walk q t' (behind + 1) (some q)
      refine ⟨ds, .step ends_inner_pair (by simp only; omega) (here ▸ walk), short, ?_⟩
      exact ends_doubled_of_walk walk short
    · exact ⟨[], .stop (ends_inner_alone ht), Nat.zero_le _, ends_doubled_of_head?_ne ht⟩
  have text : q :: Text.doubling q s ++ [q] ++ t = q :: (Text.doubling q s ++ q :: t) := by simp
  rw [text, ends_doubled_of_walk (onwards _ walk) (by simp; omega), List.reverse_append,
    List.reverse_cons, List.append_assoc, List.flatMap_append, List.head?_append, ← onward,
    List.singleton_append, List.flatMap_cons, ends_char_self, ← here]
  rfl

/-- Text with doubled quotes ends at the first quote that stands alone. -/
theorem head?_ends_doubled (ht : t.head? ≠ some q) (s : List Char) :
    ((doubled q).ends ⟨pos, prev, q :: Text.doubling q s ++ [q] ++ t⟩).head? =
      some ⟨pos + (q :: Text.doubling q s ++ [q]).length, some q, t⟩ := by
  rw [head?_ends_doubled_append rfl, ends_doubled_of_head?_ne ht]
  rfl

/-! ## Plain quotes -/

/-- **Text between plain quotes ends at the first closing one.** -/
theorem head?_ends_plain {o c : Char} (hs : c ∉ s) :
    ((plain o c).ends ⟨pos, prev, o :: s ++ [c] ++ t⟩).head? =
      some ⟨pos + (o :: s ++ [c]).length, some c, t⟩ := by
  have parts : plain o c = seq (char o) (seq (many (.except (.only c))) (char c)) := rfl
  have text : o :: s ++ [c] ++ t = o :: (s ++ c :: t) := by simp
  have body : ∀ x ∈ s, (CharClass.except (.only c)).has x = true := by
    intro x hx
    have : x ≠ c := fun e => hs (e ▸ hx)
    simpa using this
  have behind : ∀ x ∈ (c :: t).head?, (CharClass.except (.only c)).has x = false := by simp
  rw [parts, text, ends_seq_char_self,
    head?_ends_seq_of_head? (head?_ends_many body behind) (by rw [ends_char_self]; rfl)]
  simp only [List.length_append, List.length_cons, List.length_nil]
  congr 2
  omega

/-! ## Quoted text of any kind -/

theorem span_eq : span = alt (doubled '\'') (alt (doubled '"') (alt (plain '\x60' '\x60')
    (plain '[' ']'))) := rfl

theorem ends_plain_of_ne {x o c : Char} (h : x ≠ o) : (plain o c).ends ⟨pos, prev, x :: t⟩ = [] :=
  ends_seq_char_of_ne h

/-- **Quoted text of any kind is found whole** when its closing quote does not follow again, or is
not doubled inside of it. -/
theorem head?_ends_span {close : Char} (h : Span close s)
    (ht : close ∈ doublable → t.head? ≠ some close) :
    (span.ends ⟨pos, prev, s ++ t⟩).head? = some ⟨pos + s.length, some close, t⟩ := by
  rw [span_eq]
  simp only [ends, List.head?_append]
  cases h with
  | single s =>
    rw [head?_ends_doubled (ht (by decide)) s]
    rfl
  | double s =>
    rw [head?_ends_doubled (ht (by decide)) s]
    rw [List.cons_append, List.cons_append, ends_doubled_of_ne (by decide)]
    rfl
  | backtick s h =>
    rw [head?_ends_plain h]
    rw [List.cons_append, List.cons_append, ends_doubled_of_ne (by decide),
      ends_doubled_of_ne (by decide)]
    rfl
  | bracket s h =>
    rw [head?_ends_plain h]
    rw [List.cons_append, List.cons_append, ends_doubled_of_ne (by decide),
      ends_doubled_of_ne (by decide), ends_plain_of_ne (by decide)]
    rfl

/-- Quoted text starts with an opening quote. -/
theorem ends_span_of_not_mem {x : Char} (h : x ∉ openers) : span.ends ⟨pos, prev, x :: t⟩ = [] := by
  simp only [openers, List.mem_cons, List.not_mem_nil, or_false, not_or] at h
  obtain ⟨single, double, backtick, bracket⟩ := h
  rw [span_eq]
  simp only [ends, ends_doubled_of_ne single, ends_doubled_of_ne double, ends_plain_of_ne backtick,
    ends_plain_of_ne bracket, List.append_nil]

/-- Quoted text has characters. -/
theorem exists_cons_of_span {close : Char} (h : Span close s) : ∃ x r, s = x :: r := by
  cases h <;> exact ⟨_, _, rfl⟩

theorem Span.startsQuoted {close : Char} (h : Span close s) : startsQuoted s = true := by
  cases h <;> rfl

end BoundSql.Quoted
