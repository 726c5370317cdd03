import BoundSql.Proofs.Redaction.Numbers

/-!
# Redacted secrets

An assignment of a secret is what opens it, a key with an equals sign and white space around that
(`Opens`), and a value, which goes on up to a delimiter. The pattern for secrets leaves no choice:
where an assignment opens and no word runs on, the preferred match ends where the value does
(`head?_ends_secret`), and there are no other matches (`exists_of_head?_ends_secret`). What replaces
an assignment opens the next one with the mark for a value (`concealed_append`).
-/

namespace BoundSql

open Text

namespace Pattern

variable {c d : Cursor} {pos : Nat} {prev : Option Char} {s t text : List Char} {word : String}
  {words : List String}

/-! ## Keywords -/

/-- **A keyword has one end.** -/
theorem ends_keyword (hs : s.map caseFold = word.toList) (pos : Nat) (prev : Option Char)
    (t : List Char) :
    (keyword word).ends ⟨pos, prev, s ++ t⟩ = [⟨pos + s.length, s.getLast?.or prev, t⟩] := by
  rw [keyword, ← hs]
  clear hs
  induction s generalizing pos prev with
  | nil => rfl
  | cons x s ih =>
    rw [List.map_cons, List.map_cons, ends_cat_cons, List.cons_append, ends_one_cons,
      if_pos (by simp [CharClass.has_letter]), List.flatMap_singleton, ih, behind_cons pos prev]

/-- Keywords that the text does not start with have no ends. -/
theorem ends_keywords_eq_nil
    (h : ∀ w ∈ word :: words, ¬ w.toList <+: text.map caseFold) :
    (keywords (word :: words)).ends ⟨pos, prev, text⟩ = [] := by
  refine List.eq_nil_iff_forall_not_mem.mpr fun d hd => ?_
  obtain ⟨s, spells, rest, -⟩ := exists_spells_of_mem_ends hd
  obtain ⟨w, hw, folds⟩ := spells_keywords.mp spells
  exact h w hw ⟨d.rest.map caseFold, by rw [← folds, ← List.map_append, ← rest]⟩

/-- **Of several keywords the one that the text starts with has one end**, if none is the start of
another. -/
theorem ends_keywords {w : String} (hs : s.map caseFold = w.toList) (hw : w ∈ word :: words)
    (apart : (word :: words).Pairwise fun v w => ¬ v.toList <+: w.toList ∧ ¬ w.toList <+: v.toList)
    (pos : Nat) (prev : Option Char) (t : List Char) :
    (keywords (word :: words)).ends ⟨pos, prev, s ++ t⟩ =
      [⟨pos + s.length, s.getLast?.or prev, t⟩] := by
  have other {v : String} (h : ¬ v.toList <+: w.toList ∧ ¬ w.toList <+: v.toList) :
      ¬ v.toList <+: (s ++ t).map caseFold := by
    rw [List.map_append, hs]
    intro starts
    exact (List.prefix_or_prefix_of_prefix starts (List.prefix_append _ _)).elim h.1 h.2
  induction words generalizing word with
  | nil =>
    rw [List.mem_singleton] at hw
    exact ends_keyword (hw ▸ hs) pos prev t
  | cons word' words ih =>
    obtain ⟨first, later⟩ := List.pairwise_cons.mp apart
    have split : (keywords (word :: word' :: words)).ends ⟨pos, prev, s ++ t⟩ =
        (keywords [word]).ends ⟨pos, prev, s ++ t⟩ ++
          (keywords (word' :: words)).ends ⟨pos, prev, s ++ t⟩ := rfl
    rw [split]
    rcases List.mem_cons.mp hw with rfl | hw
    · rw [ends_keywords_eq_nil fun v hv => other ⟨(first v hv).2, (first v hv).1⟩,
        List.append_nil]
      exact ends_keyword hs pos prev t
    · rw [ends_keywords_eq_nil (List.forall_mem_singleton.mpr (other (first w hw))),
        List.nil_append, ih hw later]

end Pattern

namespace Redaction

open Pattern

variable {c d : Cursor} {pos : Nat} {prev : Option Char} {a b k o s t u v w : List Char} {x : Char}

/-! ## Keys -/

theorem caseFold_isLower_of_secretKey (h : secretKey.Spells k) :
    ∀ x ∈ k, (caseFold x).isLower = true := by
  obtain ⟨w, hw, folds⟩ := spells_keywords.mp h
  have letters : ∀ w ∈ ["password", "passwd", "pwd"], w.toList.all Char.isLower = true := by decide
  exact fun x hx => List.all_eq_true.mp (letters w hw) _ (folds ▸ List.mem_map_of_mem hx)

theorem isWordChar_of_secretKey (h : secretKey.Spells k) : ∀ x ∈ k, isWordChar x = true :=
  fun x hx => isWordChar_of_caseFold (caseFold_isLower_of_secretKey h x hx)

theorem not_isDecimalDigit_of_secretKey (h : secretKey.Spells k) :
    ∀ x ∈ k, isDecimalDigit x = false := by
  intro x hx
  rcases eq_or_isAlpha_of_caseFold (caseFold_isLower_of_secretKey h x hx) with rfl | rfl | alpha
  · decide +kernel
  · decide +kernel
  · exact of_lt_of_table (P := fun x => x.isAlpha = true → isDecimalDigit x = false)
      (toNat_lt_of_isAlpha alpha) (by decide) alpha

theorem not_numberPart_of_secretKey (h : secretKey.Spells k) :
    ∀ x ∈ k, numberPart.has x = false := by
  intro x hx
  have word : isWordChar x = true := isWordChar_of_secretKey h x hx
  have nonword : ∀ y ∈ [' ', '-'], isWordChar y = false := forall_mem_of_all (by decide)
  refine Bool.or_eq_false_iff.mpr ⟨not_isDecimalDigit_of_secretKey h x hx, ?_⟩
  refine Bool.eq_false_iff.mpr fun separator => ?_
  rw [nonword x (List.contains_iff_mem.mp separator)] at word
  cases word

theorem ne_nil_of_secretKey (h : secretKey.Spells k) : k ≠ [] := by
  rintro rfl
  obtain ⟨w, hw, folds⟩ := spells_keywords.mp h
  have full : ∀ w ∈ ["password", "passwd", "pwd"], w.toList ≠ [] := by decide
  exact full w hw folds.symm

theorem ends_secretKey (h : secretKey.Spells k) (pos : Nat) (prev : Option Char) (t : List Char) :
    secretKey.ends ⟨pos, prev, k ++ t⟩ = [⟨pos + k.length, k.getLast?.or prev, t⟩] := by
  obtain ⟨w, hw, folds⟩ := spells_keywords.mp h
  exact ends_keywords folds hw (by decide) pos prev t

/-! ## Assignments -/

/-- `o` opens an assignment to `k`: the key, an equals sign, and white space around that. -/
def Opens (k o : List Char) : Prop :=
  secretKey.Spells k ∧ ∃ u v, (∀ x ∈ u, isWhiteSpace x = true) ∧ (∀ x ∈ v, isWhiteSpace x = true) ∧
    o = k ++ (u ++ '=' :: v)

/-- A value is not empty and has no delimiters. -/
def Valued (v : List Char) : Prop := v ≠ [] ∧ ∀ x ∈ v, delimiter.has x = false

/-- The text ends or goes on with a delimiter. -/
def Fenced (t : List Char) : Prop := ∀ x ∈ t.head?, delimiter.has x = true

theorem not_isWordChar_of_delimiter (h : delimiter.has x = true) : isWordChar x = false := by
  rcases Bool.or_eq_true_iff.mp h with space | mark
  · exact not_isWordChar_of_isWhiteSpace space
  · have marks : ∀ y ∈ ['&', ';', ','], isWordChar y = false := forall_mem_of_all (by decide)
    exact marks x (List.contains_iff_mem.mp mark)

theorem not_delimiter_of_isWordChar (h : isWordChar x = true) : delimiter.has x = false := by
  rw [← Bool.not_eq_true]
  intro delimits
  rw [not_isWordChar_of_delimiter delimits] at h
  cases h

theorem Fenced.bare (h : Fenced t) : Bare t.head? := fun x hx =>
  not_isWordChar_of_delimiter (h x hx)

/-- A text that goes on with no delimiter starts with a value. -/
theorem exists_valued (h : ∃ x ∈ t.head?, delimiter.has x = false) :
    ∃ u v, t = u ++ v ∧ Valued u ∧ Fenced v := by
  obtain ⟨x, head, hx⟩ := h
  refine ⟨t.takeWhile (!delimiter.has ·), t.dropWhile (!delimiter.has ·),
    List.takeWhile_append_dropWhile.symm, ⟨?_, fun y hy => ?_⟩, fun y hy => ?_⟩
  · obtain ⟨t, rfl⟩ := List.head?_eq_some_iff.mp head
    simp [hx]
  · simpa using List.all_eq_true.mp List.all_takeWhile y hy
  · have := List.head?_dropWhile_not (!delimiter.has ·) t
    rw [Option.mem_def.mp hy] at this
    simpa using this

namespace Opens

theorem of_key (h : secretKey.Spells k) : Opens k (k ++ ['=']) := ⟨h, [], [], by simp⟩

theorem exists_head? (h : Opens k o) (t : List Char) :
    ∃ x ∈ (o ++ t).head?, isWordChar x = true := by
  obtain ⟨key, u, v, -, -, rfl⟩ := h
  obtain ⟨x, k, rfl⟩ := List.exists_cons_of_ne_nil (ne_nil_of_secretKey key)
  exact ⟨x, rfl, isWordChar_of_secretKey key x List.mem_cons_self⟩

/-- **The word characters of what opens an assignment are in a row at the start.** -/
theorem exists_getLast? (h : Opens k (a ++ x :: b)) (ha : a ≠ []) (hx : isWordChar x = true) :
    ∃ y ∈ a.getLast?, isWordChar y = true := by
  obtain ⟨key, u, v, hu, hv, split⟩ := h
  rcases List.append_eq_append_iff.mp split with ⟨k', rfl, -⟩ | ⟨a', rfl, rest⟩
  · have last : a.getLast ha ∈ a := List.getLast_mem ha
    exact ⟨_, List.getLast?_eq_some_getLast ha,
      isWordChar_of_secretKey key _ (List.mem_append_left k' last)⟩
  · have member : x ∈ u ++ '=' :: v := rest ▸ List.mem_append_right a' List.mem_cons_self
    have nonword : isWordChar x = false := by
      rcases List.mem_append.mp member with member | member
      · exact not_isWordChar_of_isWhiteSpace (hu x member)
      · rcases List.mem_cons.mp member with rfl | member
        · decide
        · exact not_isWordChar_of_isWhiteSpace (hv x member)
    exact absurd hx (Bool.eq_false_iff.mp nonword)

end Opens

/-- **A concealed assignment is its key, an equals sign and the mark.** -/
theorem concealed_append (h : Opens k o) (v : List Char) :
    concealed (o ++ v) = k ++ '=' :: secretMark.toList := by
  obtain ⟨key, u, w, hu, -, rfl⟩ := h
  have letters : ∀ x ∈ k, (!isWhiteSpace x && x != '=') = true := by
    intro x hx
    have word : isWordChar x = true := isWordChar_of_secretKey key x hx
    have space : isWhiteSpace x = false :=
      (Bool.or_eq_false_iff.mp (not_delimiter_of_isWordChar word)).1
    have other : x ≠ '=' := by
      rintro rfl
      exact absurd word (by decide)
    simp [space, other]
  -- Behind the key there is white space or the equals sign.
  have behind : ((u ++ '=' :: w) ++ v).takeWhile (fun c => !isWhiteSpace c && c != '=') = [] := by
    cases u with
    | nil => simp
    | cons x u => simp [hu x List.mem_cons_self]
  rw [concealed, List.append_assoc, List.takeWhile_append_of_pos letters, behind, List.append_nil]

/-- What stands behind the key of an assignment. -/
def assigned : Pattern := seq blank (seq (char '=') (seq blank (run (.except delimiter))))

theorem secret_eq : secret = seq boundary (seq secretKey assigned) := rfl

theorem head?_ends_assigned (hu : ∀ x ∈ u, isWhiteSpace x = true)
    (hw : ∀ x ∈ w, isWhiteSpace x = true) (hv : Valued v) (behind : Fenced t) (pos : Nat)
    (prev : Option Char) :
    (assigned.ends ⟨pos, prev, u ++ '=' :: (w ++ (v ++ t))⟩).head? =
      some ⟨pos + (u ++ '=' :: (w ++ v)).length, (u ++ '=' :: (w ++ v)).getLast?.or prev, t⟩ := by
  obtain ⟨nonempty, plain⟩ := hv
  obtain ⟨y, v, rfl⟩ := List.exists_cons_of_ne_nil nonempty
  have space : CharClass.space.has y = false :=
    (Bool.or_eq_false_iff.mp (plain y List.mem_cons_self)).1
  have value (pos : Nat) (prev : Option Char) :
      ((run (.except delimiter)).ends ⟨pos, prev, y :: v ++ t⟩).head? =
        some ⟨pos + (y :: v).length, (y :: v).getLast?.or prev, t⟩ :=
    head?_ends_run (fun x hx => by rw [CharClass.has_except, plain x hx]; rfl)
      fun x hx => by rw [CharClass.has_except, behind x hx]; rfl
  -- White space is passed over as far as it goes, before the value and before the sign.
  have unsigned (pos : Nat) (prev : Option Char) :
      ((seq blank (run (.except delimiter))).ends ⟨pos, prev, w ++ (y :: v ++ t)⟩).head? =
        some ⟨pos + (w ++ y :: v).length, (w ++ y :: v).getLast?.or prev, t⟩ := by
    rw [← behind_append]
    exact head?_ends_seq_of_head? (head?_ends_many hw fun x hx => Option.some.inj hx ▸ space)
      (value _ _)
  rw [assigned, ← behind_append, ← behind_cons]
  refine head?_ends_seq_of_head? (head?_ends_many hu fun x hx => Option.some.inj hx ▸ rfl) ?_
  rw [ends_seq_char_self]
  exact unsigned _ _

/-- **The preferred match of an assignment ends where its value does.** -/
theorem head?_ends_secret (ho : Opens k o) (hv : Valued v) (pos : Nat) (before : Bare prev)
    (behind : Fenced t) :
    (secret.ends ⟨pos, prev, o ++ (v ++ t)⟩).head? =
      some ⟨pos + (o ++ v).length, (o ++ v).getLast?.or prev, t⟩ := by
  have opens : (⟨pos, prev, o ++ (v ++ t)⟩ : Cursor).atBoundary = true := by
    obtain ⟨x, hx, word⟩ := ho.exists_head? (v ++ t)
    exact atBoundary_of_head? hx word before
  have boundary : boundary.ends ⟨pos, prev, o ++ (v ++ t)⟩ = [⟨pos, prev, o ++ (v ++ t)⟩] :=
    if_pos opens
  rw [secret_eq, ends_seq_of_single boundary]
  obtain ⟨key, u, w, hu, hw, rfl⟩ := ho
  simp only [List.append_assoc, List.cons_append]
  rw [ends_seq_of_single (ends_secretKey key _ _ _), head?_ends_assigned hu hw hv behind,
    behind_append]

theorem exists_opens_of_spells (h : secret.Spells s) :
    ∃ k o v, Opens k o ∧ Valued v ∧ s = o ++ v := by
  obtain ⟨_, _, rfl, ⟨k, _, key, ⟨u, _, hu, ⟨_, _, ⟨x, hx, rfl⟩, ⟨w, v, hw, hv, rfl⟩, rfl⟩, rfl⟩,
    rfl⟩, rfl⟩ := h
  rw [CharClass.has_only, beq_iff_eq] at hx
  refine ⟨k, k ++ (u ++ '=' :: w), v, ⟨key, u, w, hu, hw, rfl⟩, ?_, by simp [hx]⟩
  obtain ⟨_, v, ⟨y, hy, rfl⟩, hv, rfl⟩ := hv
  rw [CharClass.has_except, Bool.not_eq_true'] at hy
  refine ⟨List.cons_ne_nil y v, List.forall_mem_cons.mpr ⟨hy, fun x hx => ?_⟩⟩
  simpa using hv x hx

theorem not_spells_secret_nil : ¬ secret.Spells [] := by
  intro h
  obtain ⟨k, o, v, ho, hv, split⟩ := exists_opens_of_spells h
  exact hv.1 (List.append_eq_nil_iff.mp split.symm).2

/-- Where an assignment is matched, no word runs on. -/
theorem bare_of_mem_ends_secret (h : d ∈ secret.ends c) : Bare c.prev := by
  obtain ⟨s, spells, rest, -⟩ := exists_spells_of_mem_ends h
  obtain ⟨k, o, v, ho, -, rfl⟩ := exists_opens_of_spells spells
  obtain ⟨e, he, -⟩ := mem_ends_seq.mp h
  obtain ⟨rfl, boundary⟩ := mem_ends_boundary.mp he
  obtain ⟨x, hx, word⟩ := ho.exists_head? (v ++ d.rest)
  rw [← List.append_assoc, ← rest] at hx
  exact not_isWordChar_prev boundary hx word

/-- An assignment opens, and something goes on with no delimiter: there is a match. -/
theorem ends_secret_ne_nil (ho : Opens k o) (ht : ∃ x ∈ t.head?, delimiter.has x = false)
    (pos : Nat) (before : Bare prev) : secret.ends ⟨pos, prev, o ++ t⟩ ≠ [] := by
  obtain ⟨v, t, rfl, hv, behind⟩ := exists_valued ht
  intro none
  have first := head?_ends_secret ho hv pos before behind
  rw [none] at first
  cases first

/-- **The preferred match is an assignment with all of its value.** -/
theorem exists_of_head?_ends_secret (h : (secret.ends c).head? = some d) :
    Bare c.prev ∧ Fenced d.rest ∧ ∃ k o v, Opens k o ∧ Valued v ∧ c.rest = o ++ (v ++ d.rest) := by
  have member : d ∈ secret.ends c := List.mem_of_head? h
  have before : Bare c.prev := bare_of_mem_ends_secret member
  obtain ⟨s, spells, rest, -⟩ := exists_spells_of_mem_ends member
  obtain ⟨k, o, v, ho, ⟨nonempty, plain⟩, rfl⟩ := exists_opens_of_spells spells
  obtain ⟨v', t, value, hv, behind⟩ : ∃ v' t, v ++ d.rest = v' ++ t ∧ Valued v' ∧ Fenced t := by
    obtain ⟨y, v, rfl⟩ := List.exists_cons_of_ne_nil nonempty
    exact exists_valued ⟨y, rfl, plain y List.mem_cons_self⟩
  have first := head?_ends_secret ho hv c.pos before behind
  rw [← value, ← List.append_assoc, ← rest] at first
  have same : d.rest = t := by
    rw [h, Option.some.injEq] at first
    rw [first]
  exact ⟨before, same ▸ behind, k, o, v', ho, hv, by rw [rest, List.append_assoc, value, same]⟩

theorem masks_secret : Masks secret concealed where
  full := not_spells_secret_nil
  bare c d h := by
    obtain ⟨before, behind, -⟩ := exists_of_head?_ends_secret h
    exact ⟨before, behind.bare⟩
  head s h := by
    obtain ⟨k, o, v, ho, -, rfl⟩ := exists_opens_of_spells h
    rw [concealed_append ho]
    obtain ⟨key, -⟩ := ho
    obtain ⟨x, k, rfl⟩ := List.exists_cons_of_ne_nil (ne_nil_of_secretKey key)
    exact ⟨x, rfl, not_numberPart_of_secretKey key x List.mem_cons_self⟩
  digitless s h := by
    obtain ⟨k, o, v, ho, -, rfl⟩ := exists_opens_of_spells h
    rw [concealed_append ho]
    exact List.forall_mem_append.mpr
      ⟨not_isDecimalDigit_of_secretKey ho.1, forall_mem_of_all (by decide)⟩

end Redaction

end BoundSql
