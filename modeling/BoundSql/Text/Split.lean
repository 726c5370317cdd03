import BoundSql.Text.WhiteSpace

/-!
# Splitting, trimming and joining

Texts are cut at separators into parts, at white space into words, and trimmed at either end.
Cutting loses nothing: the parts joined by the separator are the text again
(`intercalate_splitOn`), and no part holds the separator (`not_mem_of_mem_splitOn`).
-/

namespace BoundSql.Text

/-- The parts of a text between the characters that satisfy `p`; there is always at least one. -/
def splitWhere (p : Char → Bool) : List Char → List (List Char)
  | [] => [[]]
  | c :: rest =>
    if p c then [] :: splitWhere p rest
    else match splitWhere p rest with
      | [] => [[c]]
      | part :: parts => (c :: part) :: parts

/-- The parts of a text between the occurrences of `sep`. -/
def splitOn (sep : Char) (s : List Char) : List (List Char) := splitWhere (· == sep) s

/-- The non-empty runs between white space. -/
def words (s : List Char) : List (List Char) :=
  (splitWhere isWhiteSpace s).filter (!·.isEmpty)

/-- The text without the characters satisfying `p` at its end. -/
def dropTrailing (p : Char → Bool) (s : List Char) : List Char := (s.reverse.dropWhile p).reverse

/-- The text without white space at either end. -/
def trim (s : List Char) : List Char := dropTrailing isWhiteSpace (s.dropWhile isWhiteSpace)

/-- The text with every `q` written twice. -/
def doubling (q : Char) (s : List Char) : List Char :=
  s.flatMap fun c => if c = q then [q, q] else [c]

/-! ## Lemmas -/

theorem splitWhere_ne_nil (p : Char → Bool) (s : List Char) : splitWhere p s ≠ [] := by
  cases s with
  | nil => simp [splitWhere]
  | cons c rest =>
    simp only [splitWhere]
    split
    · simp
    · split <;> simp

/-- A separator cuts a text in two. -/
theorem splitWhere_append_cons {p : Char → Bool} {c : Char} (h : p c = true) (s t : List Char) :
    splitWhere p (s ++ c :: t) = splitWhere p s ++ splitWhere p t := by
  induction s with
  | nil => simp [splitWhere, h]
  | cons x s ih =>
    obtain ⟨part, parts, hs⟩ := List.exists_cons_of_ne_nil (splitWhere_ne_nil p s)
    rw [hs] at ih
    cases hx : p x <;> simp [splitWhere, hx, hs, ih]

/-- A text without separators is its only part. -/
theorem splitWhere_of_forall {p : Char → Bool} {s : List Char} (h : ∀ x ∈ s, p x = false) :
    splitWhere p s = [s] := by
  induction s with
  | nil => rfl
  | cons x s ih =>
    rw [splitWhere, h x List.mem_cons_self, ih fun y hy => h y (List.mem_cons_of_mem x hy)]
    rfl

theorem splitOn_ne_nil (sep : Char) (s : List Char) : splitOn sep s ≠ [] := splitWhere_ne_nil _ s

@[simp] theorem splitOn_nil (sep : Char) : splitOn sep [] = [[]] := rfl

theorem splitOn_cons_self (sep : Char) (rest : List Char) :
    splitOn sep (sep :: rest) = [] :: splitOn sep rest := by
  simp [splitOn, splitWhere]

theorem splitOn_cons_of_ne {sep c : Char} (h : c ≠ sep) (rest : List Char) :
    ∃ part parts, splitOn sep rest = part :: parts ∧
      splitOn sep (c :: rest) = (c :: part) :: parts := by
  obtain ⟨part, parts, hp⟩ := List.exists_cons_of_ne_nil (splitOn_ne_nil sep rest)
  refine ⟨part, parts, hp, ?_⟩
  simp only [splitOn] at hp ⊢
  simp [splitWhere, h, hp]

theorem splitOn_of_not_mem {sep : Char} {s : List Char} (h : sep ∉ s) : splitOn sep s = [s] :=
  splitWhere_of_forall fun _ hx => beq_eq_false_iff_ne.mpr fun e => h (e ▸ hx)

/-- **Nothing is lost by splitting.** -/
theorem intercalate_splitOn (sep : Char) (s : List Char) :
    [sep].intercalate (splitOn sep s) = s := by
  induction s with
  | nil => rfl
  | cons c rest ih =>
    by_cases h : c = sep
    · subst h
      rw [splitOn_cons_self]
      obtain ⟨part, parts, hp⟩ := List.exists_cons_of_ne_nil (splitOn_ne_nil c rest)
      rw [hp] at ih ⊢
      simpa [List.intercalate, List.intersperse] using ih
    · obtain ⟨part, parts, hp, hc⟩ := splitOn_cons_of_ne h rest
      rw [hc]
      rw [hp] at ih
      cases parts <;> simpa [List.intercalate, List.intersperse] using ih

/-- **Joined parts are found again by splitting.** -/
theorem splitOn_intercalate {sep : Char} {parts : List (List Char)} (some : parts ≠ [])
    (h : ∀ part ∈ parts, sep ∉ part) : splitOn sep ([sep].intercalate parts) = parts := by
  induction parts with
  | nil => exact absurd rfl some
  | cons part parts ih =>
    obtain ⟨first, later⟩ := List.forall_mem_cons.mp h
    cases parts with
    | nil => rw [List.intercalate_singleton, splitOn_of_not_mem first]
    | cons part' parts =>
      rw [List.intercalate_cons_cons, List.append_assoc, List.singleton_append, splitOn,
        splitWhere_append_cons (p := (· == sep)) (beq_self_eq_true sep), ← splitOn, ← splitOn,
        splitOn_of_not_mem first, ih (List.cons_ne_nil part' parts) later]
      rfl

theorem not_mem_of_mem_splitOn {sep : Char} {s part : List Char} (h : part ∈ splitOn sep s) :
    sep ∉ part := by
  induction s generalizing part with
  | nil =>
    rw [splitOn_nil, List.mem_singleton] at h
    simp [h]
  | cons c rest ih =>
    by_cases hc : c = sep
    · subst hc
      rw [splitOn_cons_self] at h
      rcases List.mem_cons.mp h with rfl | h
      · simp
      · exact ih h
    · obtain ⟨first, parts, hp, hs⟩ := splitOn_cons_of_ne hc rest
      rw [hs] at h
      rw [hp] at ih
      rcases List.mem_cons.mp h with rfl | h
      · simp only [List.mem_cons, not_or]
        exact ⟨fun e => hc e.symm, ih (List.mem_cons_self ..)⟩
      · exact ih (List.mem_cons_of_mem _ h)

/-- The parts hold all characters but the separator. -/
theorem exists_mem_splitOn_iff {sep x : Char} {s : List Char} :
    (∃ part ∈ splitOn sep s, x ∈ part) ↔ x ∈ s ∧ x ≠ sep := by
  induction s with
  | nil => simp
  | cons c rest ih =>
    by_cases hc : c = sep
    · subst hc
      rw [splitOn_cons_self]
      simp only [List.mem_cons, exists_eq_or_imp, List.not_mem_nil, false_or, ih]
      constructor
      · exact fun ⟨hx, hne⟩ => ⟨Or.inr hx, hne⟩
      · exact fun ⟨hx, hne⟩ => ⟨hx.resolve_left hne, hne⟩
    · obtain ⟨first, parts, hp, hs⟩ := splitOn_cons_of_ne hc rest
      rw [hp] at ih
      rw [hs]
      simp only [List.mem_cons, exists_eq_or_imp] at ih ⊢
      rw [or_assoc, ih]
      constructor
      · rintro (rfl | ⟨hx, hne⟩)
        · exact ⟨Or.inl rfl, hc⟩
        · exact ⟨Or.inr hx, hne⟩
      · rintro ⟨rfl | hx, hne⟩
        · exact Or.inl rfl
        · exact Or.inr ⟨hx, hne⟩

/-- Without the character nothing is written twice. -/
theorem doubling_of_not_mem {q : Char} {s : List Char} (h : q ∉ s) : doubling q s = s := by
  induction s with
  | nil => rfl
  | cons x s ih =>
    rw [List.mem_cons, not_or] at h
    rw [doubling, List.flatMap_cons, if_neg (Ne.symm h.1)]
    exact congrArg (x :: ·) (ih h.2)

/-- Doubling brings no other character in. -/
theorem mem_of_mem_doubling {q x : Char} {s : List Char} (h : x ∈ doubling q s) : x ∈ s := by
  obtain ⟨y, hy, hx⟩ := List.mem_flatMap.mp h
  have same : x = y := by
    split at hx
    · rename_i e
      rw [e]
      simpa using hx
    · exact List.mem_singleton.mp hx
  exact same ▸ hy

theorem dropTrailing_append {p : Char → Bool} {after : List Char} (h : ∀ x ∈ after, p x = true)
    (s : List Char) : dropTrailing p (s ++ after) = dropTrailing p s := by
  rw [dropTrailing, List.reverse_append,
    List.dropWhile_append_of_pos fun x hx => h x (List.mem_reverse.mp hx), ← dropTrailing]

/-- Trimming takes white space away from both ends of a text that has none inside. -/
theorem trim_append {before body after : List Char} (left : ∀ x ∈ before, isWhiteSpace x = true)
    (visible : ∀ x ∈ body, isWhiteSpace x = false) (right : ∀ x ∈ after, isWhiteSpace x = true) :
    trim (before ++ body ++ after) = body := by
  have keeps : ∀ s : List Char, (∀ x ∈ s, isWhiteSpace x = false) →
      s.dropWhile isWhiteSpace = s := by
    intro s hs
    cases s with
    | nil => rfl
    | cons c s => exact List.dropWhile_cons_of_neg (by simp [hs c List.mem_cons_self])
  have inner : dropTrailing isWhiteSpace body = body := by
    rw [dropTrailing, keeps _ fun x hx => visible x (List.mem_reverse.mp hx), List.reverse_reverse]
  rw [trim, List.append_assoc, List.dropWhile_append_of_pos left]
  cases body with
  | nil =>
    have gone : (after ++ []).dropWhile isWhiteSpace = [] := List.dropWhile_append_of_pos right
    rw [List.append_nil] at gone
    rw [List.nil_append, gone]
    rfl
  | cons c body =>
    have first : ¬isWhiteSpace c = true := by simp [visible c List.mem_cons_self]
    rw [List.cons_append, List.dropWhile_cons_of_neg first, ← List.cons_append,
      dropTrailing_append right, inner]

/-- What is computed of all members of a list holds of them. The quantifier alone would be decided
over all characters. -/
theorem forall_mem_of_all {p : Char → Prop} [DecidablePred p] {s : List Char}
    (h : s.all (fun x => decide (p x)) = true) : ∀ x ∈ s, p x := fun x hx =>
  of_decide_eq_true (List.all_eq_true.mp h x hx)

/-- Joined parts are as long as the parts in a row and the separators between them. -/
theorem length_intercalate {α : Type} (sep : List α) (parts : List (List α)) :
    (sep.intercalate parts).length = parts.flatten.length + (parts.length - 1) * sep.length := by
  induction parts with
  | nil => simp
  | cons part parts ih =>
    cases parts with
    | nil => simp
    | cons part' parts =>
      rw [List.intercalate_cons_cons, List.length_append, List.length_append, ih]
      simp only [List.flatten_cons, List.length_append, List.length_cons, Nat.add_sub_cancel,
        Nat.succ_mul]
      omega

/-- Behind the first one, parts are joined with a separator in front of each. -/
theorem intercalate_cons {α : Type} (sep : List α) (part : List α) (parts : List (List α)) :
    sep.intercalate (part :: parts) = part ++ (parts.map (sep ++ ·)).flatten := by
  induction parts generalizing part with
  | nil => simp
  | cons part' parts ih =>
    rw [List.intercalate_cons_cons, ih, List.map_cons, List.flatten_cons, List.append_assoc,
      List.append_assoc]

/-- What is joined with a separator is the separator or in a part. -/
theorem mem_intercalate {α : Type} {x sep : α} {parts : List (List α)}
    (h : x ∈ [sep].intercalate parts) : x = sep ∨ ∃ part ∈ parts, x ∈ part := by
  induction parts with
  | nil => exact absurd h List.not_mem_nil
  | cons part parts ih =>
    cases parts with
    | nil =>
      rw [List.intercalate_singleton] at h
      exact Or.inr ⟨part, List.mem_cons_self, h⟩
    | cons part' parts =>
      rw [List.intercalate_cons_cons, List.append_assoc] at h
      rcases List.mem_append.mp h with h | h
      · exact Or.inr ⟨part, List.mem_cons_self, h⟩
      · rcases List.mem_cons.mp h with h | h
        · exact Or.inl h
        · rcases ih h with h | ⟨part'', hp, hx⟩
          · exact Or.inl h
          · exact Or.inr ⟨part'', List.mem_cons_of_mem part hp, hx⟩

end BoundSql.Text
