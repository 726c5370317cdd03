import BoundSql.Proofs.Pattern.Occurrence

/-!
# The same match elsewhere

Of a text a pattern sees what it reads, the character before that and the one behind it. So it has
the same matches at a later place and with more text behind, if a character that it cannot read
stands in between (`ends_moved`); and if it asks nothing about the place, it matches wherever a text
stands that it spells (`mem_ends_of_spells`). As a whole word it matches where words end on both
sides (`spells_of_mem_ends_wholeWord`, `mem_ends_wholeWord_of_spells`), and so do parts in a row
that stand as a word of their own (`ends_standing`).
-/

namespace BoundSql

/-- No word runs on over the border to a text that ends or starts there. -/
def Text.Bare (o : Option Char) : Prop := ∀ x ∈ o, isWordChar x = false

/-- The place `n` characters further on, in a text that goes on with `t`. -/
def Cursor.moved (n : Nat) (t : List Char) (c : Cursor) : Cursor :=
  ⟨c.pos + n, c.prev, c.rest ++ t⟩

namespace Pattern

open Text

variable {p q : Pattern} {c d : Cursor} {pos n : Nat} {prev : Option Char} {s t : List Char}
  {x : Char}

theorem pos_add_length_of_mem_along {k : CharClass} {rest : List Char}
    (h : d ∈ Cursor.along k pos prev rest) : d.pos + d.rest.length = pos + rest.length := by
  induction rest generalizing pos prev with
  | nil => rw [List.mem_singleton.mp h]
  | cons x rest ih =>
    rw [Cursor.along] at h
    rcases List.mem_cons.mp h with rfl | h
    · rfl
    · split at h
      · rw [ih h, List.length_cons, Nat.add_assoc, Nat.add_comm 1]
      · exact absurd h List.not_mem_nil

/-- Matches go on over as many characters as places. -/
theorem pos_add_length_of_mem_ends (h : d ∈ p.ends c) :
    d.pos + d.rest.length = c.pos + c.rest.length := by
  induction p generalizing c d with
  | empty => rw [List.mem_singleton.mp h]
  | one k =>
    obtain ⟨pos, prev, rest⟩ := c
    cases rest with
    | nil => exact absurd h List.not_mem_nil
    | cons x rest =>
      rw [ends_one_cons] at h
      split at h
      · rw [List.mem_singleton.mp h, List.length_cons, Nat.add_assoc, Nat.add_comm 1]
      · exact absurd h List.not_mem_nil
  | many k => exact pos_add_length_of_mem_along (List.mem_reverse.mp h)
  | few k => exact pos_add_length_of_mem_along h
  | start | stop | boundary => rw [eq_of_mem_ite h]
  | seq p q ihp ihq =>
    obtain ⟨e, he, hd⟩ := mem_ends_seq.mp h
    rw [ihq hd, ihp he]
  | alt p q ihp ihq => exact (List.mem_append.mp h).elim ihp ihq
  | opt p ih =>
    rcases List.mem_append.mp h with h | h
    · exact ih h
    · rw [List.mem_singleton.mp h]
  | plus p ih =>
    have steps : Relation.TransGen (Steps p.ends) c d := transGen_of_mem_repeated h
    clear h
    induction steps with
    | single step => exact ih step
    | tail _ step before => rw [ih step, before]

/-! ## Further on and with more behind -/

/-- The character is in no class of the pattern. -/
def Avoids (p : Pattern) (x : Char) : Prop := ∀ k ∈ p.classes, k.has x = false

theorem Avoids.not_mem (h : p.Avoids x) (spells : p.Spells s) : x ∉ s := by
  have other : ∀ y ∈ s, y ≠ x := by
    refine forall_of_spells (fun k hk y hy same => ?_) spells
    rw [same, h k hk] at hy
    cases hy
  exact fun hx => other x hx rfl

/-- A character the pattern avoids is behind each of its matches. -/
theorem Avoids.mem_rest (h : p.Avoids x) (hx : x ∈ c.rest) (hd : d ∈ p.ends c) : x ∈ d.rest := by
  obtain ⟨s, spells, rest, -⟩ := exists_spells_of_mem_ends hd
  rw [rest, List.mem_append] at hx
  exact hx.resolve_left (h.not_mem spells)

/-- What is behind `s` is out of sight: there is nothing, or a character in between that the pattern
cannot read. -/
def Shields (p : Pattern) (s t : List Char) : Prop := t = [] ∨ ∃ x ∈ s, p.Avoids x

theorem Shields.mono (classes : q.classes ⊆ p.classes) (h : p.Shields s t) : q.Shields s t :=
  h.imp_right fun ⟨x, hx, avoids⟩ => ⟨x, hx, fun k hk => avoids k (classes hk)⟩

/-- What is out of sight is behind the next character. -/
theorem Shields.head?_append (h : p.Shields s t) : (s ++ t).head? = s.head? := by
  rcases h with rfl | ⟨x, hx, -⟩
  · rw [List.append_nil]
  · cases s with
    | nil => exact absurd hx List.not_mem_nil
    | cons y s => rfl

/-- The pattern repeats single characters only. -/
def loopless : Pattern → Bool
  | seq p q | alt p q => loopless p && loopless q
  | opt p => loopless p
  | plus _ => false
  | _ => true

theorem along_moved {k : CharClass} {rest : List Char} (n : Nat) (h : (many k).Shields rest t)
    (pos : Nat) (prev : Option Char) :
    Cursor.along k (pos + n) prev (rest ++ t) =
      (Cursor.along k pos prev rest).map (Cursor.moved n t) := by
  induction rest generalizing pos prev with
  | nil =>
    rcases h with rfl | ⟨x, hx, -⟩
    · rfl
    · exact absurd hx List.not_mem_nil
  | cons y rest ih =>
    rw [List.cons_append, Cursor.along, Cursor.along, List.map_cons]
    congr 1
    by_cases hy : k.has y = true
    · have behind : (many k).Shields rest t := by
        refine h.imp_right ?_
        rintro ⟨x, hx, avoids⟩
        refine ⟨x, (List.mem_cons.mp hx).resolve_left ?_, avoids⟩
        rintro rfl
        exact absurd hy (by rw [avoids k (List.mem_singleton.mpr rfl)]; decide)
      rw [if_pos hy, if_pos hy, ← ih behind, Nat.add_right_comm]
    · rw [if_neg hy, if_neg hy, List.map_nil]

/-- **The matches further on, and with more behind that is out of sight, are the same.** -/
theorem ends_moved (simple : p.loopless = true) (n : Nat) (h : p.Shields c.rest t) :
    p.ends (c.moved n t) = (p.ends c).map (Cursor.moved n t) := by
  induction p generalizing c with
  | empty => rfl
  | one k =>
    obtain ⟨pos, prev, rest⟩ := c
    cases rest with
    | nil =>
      rcases h with rfl | ⟨x, hx, -⟩
      · rfl
      · exact absurd hx List.not_mem_nil
    | cons x rest =>
      rw [Cursor.moved, List.cons_append, ends_one_cons, ends_one_cons, Nat.add_right_comm]
      split <;> rfl
  | many k =>
    rw [ends, ends, List.map_reverse]
    exact congrArg _ (along_moved n h c.pos c.prev)
  | few k => exact along_moved n h c.pos c.prev
  | start =>
    rw [ends, ends, apply_ite (List.map _)]
    rfl
  | stop =>
    have same : (c.rest ++ t).isEmpty = c.rest.isEmpty := by
      rw [Bool.eq_iff_iff, List.isEmpty_iff, List.isEmpty_iff, ← List.head?_eq_none_iff,
        ← List.head?_eq_none_iff, h.head?_append]
    rw [ends, ends, apply_ite (List.map _), Cursor.moved, same]
    rfl
  | boundary =>
    have same : (c.moved n t).atBoundary = c.atBoundary := by
      rw [Cursor.atBoundary, Cursor.atBoundary, Cursor.moved, h.head?_append]
    rw [ends, ends, apply_ite (List.map _), same]
    rfl
  | seq p q ihp ihq =>
    obtain ⟨simplep, simpleq⟩ := Bool.and_eq_true_iff.mp simple
    have hp : p.Shields c.rest t := h.mono (List.subset_append_left ..)
    have hq : ∀ d ∈ p.ends c, q.Shields d.rest t := by
      refine fun d hd => h.imp_right ?_
      rintro ⟨x, hx, avoids⟩
      have avoidsp : p.Avoids x := fun k hk => avoids k (List.mem_append_left _ hk)
      exact ⟨x, avoidsp.mem_rest hx hd, fun k hk => avoids k (List.mem_append_right _ hk)⟩
    rw [ends, ends, ihp simplep hp, List.flatMap_map, List.map_flatMap]
    exact List.flatMap_congr fun d hd => ihq simpleq (hq d hd)
  | alt p q ihp ihq =>
    obtain ⟨simplep, simpleq⟩ := Bool.and_eq_true_iff.mp simple
    rw [ends, ends, List.map_append, ihp simplep (h.mono (List.subset_append_left ..)),
      ihq simpleq (h.mono (List.subset_append_right ..))]
  | opt p ih =>
    rw [ends, ends, List.map_append, ih simple h]
    rfl
  | plus p => cases simple

/-! ## Wherever a text stands -/

/-- The pattern repeats single characters only and asks nothing about the place. -/
def placeless : Pattern → Bool
  | seq p q | alt p q => placeless p && placeless q
  | opt p => placeless p
  | start | stop | boundary | plus _ => false
  | _ => true

theorem mem_along {k : CharClass} (hs : ∀ x ∈ s, k.has x = true) (pos : Nat) (prev : Option Char)
    (t : List Char) :
    ⟨pos + s.length, s.getLast?.or prev, t⟩ ∈ Cursor.along k pos prev (s ++ t) := by
  induction s generalizing pos prev with
  | nil =>
    cases t with
    | nil => exact List.mem_singleton.mpr rfl
    | cons y t => exact List.mem_cons_self
  | cons x s ih =>
    rw [List.cons_append, Cursor.along, if_pos (hs x List.mem_cons_self), ← behind_cons pos prev]
    exact List.mem_cons_of_mem _ (ih (fun y hy => hs y (List.mem_cons_of_mem x hy)) (pos + 1) _)

/-- **A pattern that asks nothing about the place matches wherever a text that it spells
stands.** -/
theorem mem_ends_of_spells (h : p.placeless = true) (spells : p.Spells s) (pos : Nat)
    (prev : Option Char) (t : List Char) :
    ⟨pos + s.length, s.getLast?.or prev, t⟩ ∈ p.ends ⟨pos, prev, s ++ t⟩ := by
  induction p generalizing s pos prev t with
  | empty =>
    rw [show s = [] from spells]
    exact List.mem_singleton.mpr rfl
  | one k =>
    obtain ⟨x, hx, rfl⟩ := spells
    rw [List.singleton_append, ends_one_cons, if_pos hx]
    exact List.mem_singleton.mpr rfl
  | many k => exact List.mem_reverse.mpr (mem_along spells pos prev t)
  | few k => exact mem_along spells pos prev t
  | start | stop | boundary | plus => cases h
  | seq p q ihp ihq =>
    obtain ⟨hp, hq⟩ := Bool.and_eq_true_iff.mp h
    obtain ⟨a, b, ha, hb, rfl⟩ := spells
    refine mem_ends_seq.mpr ⟨_, List.append_assoc a b t ▸ ihp hp ha pos prev (b ++ t), ?_⟩
    rw [List.length_append, ← Nat.add_assoc, List.getLast?_append, Option.or_assoc]
    exact ihq hq hb _ _ t
  | alt p q ihp ihq =>
    obtain ⟨hp, hq⟩ := Bool.and_eq_true_iff.mp h
    exact List.mem_append.mpr (spells.imp (ihp hp · pos prev t) (ihq hq · pos prev t))
  | opt p ih =>
    rcases spells with spells | rfl
    · exact List.mem_append_left _ (ih h spells pos prev t)
    · exact List.mem_append_right _ (List.mem_singleton.mpr rfl)

/-! ## Whole words -/

/-- In front of a word character there is a boundary where no word runs on. -/
theorem atBoundary_of_head? (hx : x ∈ c.rest.head?) (word : isWordChar x = true)
    (bare : Bare c.prev) : c.atBoundary = true := by
  rw [Cursor.atBoundary, hx]
  cases prev : c.prev with
  | none => simpa using word
  | some y => simp [word, bare y prev]

/-- Behind a word character there is a boundary where no word runs on. -/
theorem atBoundary_of_prev (hx : x ∈ c.prev) (word : isWordChar x = true)
    (bare : Bare c.rest.head?) : c.atBoundary = true := by
  rw [Cursor.atBoundary, hx]
  cases next : c.rest.head? with
  | none => simpa using word
  | some y => simp [word, bare y next]

/-- All that the pattern spells starts and ends with a word character. -/
def Wordy (p : Pattern) : Prop :=
  ∀ s, p.Spells s → (∃ x ∈ s.head?, isWordChar x = true) ∧ ∃ x ∈ s.getLast?, isWordChar x = true

/-- **A whole word that is matched has no word characters around it.** -/
theorem spells_of_mem_ends_wholeWord (wordy : p.Wordy) (h : d ∈ (wholeWord p).ends c) :
    ∃ s, p.Spells s ∧ Reads c s d ∧ Bare c.prev ∧ Bare d.rest.head? := by
  obtain ⟨opens, match_, closes⟩ := mem_ends_wholeWord.mp h
  obtain ⟨s, spells, reads⟩ := exists_spells_of_mem_ends match_
  obtain ⟨⟨x, hx, wordx⟩, ⟨z, hz, wordz⟩⟩ := wordy s spells
  refine ⟨s, spells, reads, not_isWordChar_prev opens ?_ wordx,
    not_isWordChar_head? closes ?_ wordz⟩
  · rw [reads.1, List.head?_append, hx]
    rfl
  · rw [reads.2, hz]
    rfl

/-- **A whole word is matched where there are no word characters around it.** -/
theorem mem_ends_wholeWord_of_spells (h : p.placeless = true) (wordy : p.Wordy)
    (spells : p.Spells s) (pos : Nat) (before : Bare prev) (behind : Bare t.head?) :
    ⟨pos + s.length, s.getLast?.or prev, t⟩ ∈ (wholeWord p).ends ⟨pos, prev, s ++ t⟩ := by
  obtain ⟨⟨x, hx, wordx⟩, ⟨z, hz, wordz⟩⟩ := wordy s spells
  refine mem_ends_wholeWord.mpr ⟨atBoundary_of_head? ?_ wordx before,
    mem_ends_of_spells h spells pos prev t, atBoundary_of_prev ?_ wordz behind⟩
  · rw [List.head?_append, hx]
    rfl
  · rw [hz]
    rfl

/-! ## Parts that stand as a word of their own -/

/-- The parts one after the other, as a word of their own. -/
def standing (ps : List Pattern) : Pattern := cat (boundary :: (ps ++ [boundary]))

theorem ends_cat_concat (ps : List Pattern) (p : Pattern) (c : Cursor) :
    (cat (ps ++ [p])).ends c = ((cat ps).ends c).flatMap p.ends := by
  induction ps generalizing c with
  | nil => exact (List.flatMap_singleton ..).symm
  | cons q ps ih =>
    rw [List.cons_append, ends_cat_cons, ends_cat_cons, List.flatMap_assoc]
    exact List.flatMap_congr fun d _ => ih d

theorem ends_standing (ps : List Pattern) (c : Cursor) :
    (standing ps).ends c = (wholeWord (cat ps)).ends c := by
  rw [standing, ends_cat_cons, wholeWord, ends_cat_cons]
  refine List.flatMap_congr fun d _ => ?_
  rw [ends_cat_concat, ends_cat_cons]
  rfl

theorem spells_standing {ps : List Pattern} : (standing ps).Spells s ↔ (cat ps).Spells s := by
  have concat : ∀ s, (cat (ps ++ [boundary])).Spells s ↔ (cat ps).Spells s := by
    induction ps with
    | nil => exact fun s => Iff.rfl
    | cons p ps ih =>
      intro s
      rw [List.cons_append, spells_cat_cons, spells_cat_cons]
      simp only [ih]
  rw [standing, spells_cat_cons]
  constructor
  · rintro ⟨_, _, rfl, hb, rfl⟩
    exact (concat _).mp hb
  · exact fun h => ⟨[], s, rfl, (concat s).mpr h, rfl⟩

end Pattern

end BoundSql
