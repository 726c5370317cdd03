import BoundSql.Proofs.Pattern.Repeated

/-!
# Matches in a larger text

A text stands in a larger one as it stands alone if no word runs on over its borders: then each of
its places is at a word boundary exactly if it was before. A pattern that does not ask for the start
or the stop of the text keeps its matches there (`mem_ends_surrounded`), and so it occurs in the
larger text if it occurs in the smaller (`occursIn_surrounded`). With a text behind that it cannot
read on into it has no other matches either (`ends_fenced`).
-/

namespace BoundSql

/-- The place in a text that stands between `a` and `b`. -/
def Cursor.surrounded (a b : List Char) (c : Cursor) : Cursor :=
  ⟨c.pos + a.length, c.prev.or a.getLast?, c.rest ++ b⟩

namespace Pattern

open Text

variable {p : Pattern} {c d : Cursor} {a b text : List Char}

/-- The pattern does not ask whether the text starts or stops at a place. -/
def unanchored : Pattern → Bool
  | start | stop => false
  | seq p q | alt p q => unanchored p && unanchored q
  | opt p | plus p => unanchored p
  | _ => true

theorem ahead_of_mem_onwards {pos : Nat} {prev : Option Char}
    (h : c ∈ Cursor.onwards pos prev text) : Cursor.Ahead ⟨pos, prev, text⟩ c := by
  induction text generalizing pos prev with
  | nil =>
    rw [Cursor.onwards, List.mem_singleton] at h
    exact h ▸ .refl c
  | cons x text ih =>
    rw [Cursor.onwards] at h
    rcases List.mem_cons.mp h with rfl | h
    · exact .refl _
    · have first : Cursor.Ahead ⟨pos, prev, x :: text⟩ ⟨pos + 1, some x, text⟩ := ⟨[x], rfl, rfl⟩
      exact first.trans (ih h)

/-- **The places of a text are those behind its beginnings.** -/
theorem mem_places_iff :
    c ∈ Cursor.places text ↔
      ∃ before, text = before ++ c.rest ∧ c = ⟨before.length, before.getLast?, c.rest⟩ := by
  constructor
  · intro place
    obtain ⟨before, rest, here⟩ := ahead_of_mem_onwards place
    rw [Nat.zero_add, Option.or_none] at here
    exact ⟨before, rest, here⟩
  · rintro ⟨before, rest, here⟩
    rw [rest, here, Cursor.places]
    have := mem_onwards before c.rest 0 none
    rwa [Nat.zero_add, Option.or_none] at this

/-- No word runs on over the borders, so the places at word boundaries are the same. -/
theorem atBoundary_surrounded (ha : Bare a.getLast?) (hb : Bare b.head?) (c : Cursor) :
    (c.surrounded a b).atBoundary = c.atBoundary := by
  have bare {o : Option Char} (h : Bare o) : o.any isWordChar = false := by
    cases o with
    | none => rfl
    | some x => exact h x rfl
  have before : (c.prev.or a.getLast?).any isWordChar = c.prev.any isWordChar := by
    cases c.prev with
    | none => exact bare ha
    | some x => rfl
  have behind : (c.rest ++ b).head?.any isWordChar = c.rest.head?.any isWordChar := by
    cases c.rest with
    | nil => exact bare hb
    | cons x rest => rfl
  rw [Cursor.atBoundary, Cursor.atBoundary, Cursor.surrounded, before, behind]

/-- A match that asks nothing about the place is the same one anywhere. -/
theorem mem_ends_surrounded_of_placeless (h : p.placeless = true) (hd : d ∈ p.ends c)
    (a b : List Char) : d.surrounded a b ∈ p.ends (c.surrounded a b) := by
  obtain ⟨s, spells, rest, place⟩ := exists_eq_of_mem_ends hd
  have found := mem_ends_of_spells h spells (c.pos + a.length) (c.prev.or a.getLast?) (d.rest ++ b)
  rwa [← List.append_assoc, ← rest, ← Option.or_assoc, Nat.add_right_comm,
    show c.pos + s.length = d.pos by rw [place],
    show s.getLast?.or c.prev = d.prev by rw [place]] at found

/-- **In a larger text a pattern keeps its matches.** -/
theorem mem_ends_surrounded (h : p.unanchored = true) (ha : Bare a.getLast?) (hb : Bare b.head?)
    (hd : d ∈ p.ends c) : d.surrounded a b ∈ p.ends (c.surrounded a b) := by
  induction p generalizing c d with
  | empty | one | many | few => exact mem_ends_surrounded_of_placeless rfl hd a b
  | start | stop => cases h
  | boundary =>
    obtain ⟨rfl, here⟩ := mem_ends_boundary.mp hd
    exact mem_ends_boundary.mpr ⟨rfl, (atBoundary_surrounded ha hb d).trans here⟩
  | seq p q ihp ihq =>
    obtain ⟨hp, hq⟩ := Bool.and_eq_true_iff.mp h
    obtain ⟨e, he, hd⟩ := mem_ends_seq.mp hd
    exact mem_ends_seq.mpr ⟨_, ihp hp he, ihq hq hd⟩
  | alt p q ihp ihq =>
    obtain ⟨hp, hq⟩ := Bool.and_eq_true_iff.mp h
    exact List.mem_append.mpr ((List.mem_append.mp hd).imp (ihp hp) (ihq hq))
  | opt p ih =>
    rcases List.mem_append.mp hd with hd | hd
    · exact List.mem_append_left _ (ih h hd)
    · rw [List.mem_singleton.mp hd]
      exact List.mem_append_right _ (List.mem_singleton.mpr rfl)
  | plus p ih =>
    rw [mem_ends_plus] at hd ⊢
    exact hd.lift _ fun c d ⟨step, later⟩ => ⟨ih h step, Nat.add_lt_add_right later a.length⟩

/-! ## With more behind -/

/-- The pattern cannot read on into the text, and no word runs on into it. -/
def Fences (p : Pattern) (t : List Char) : Prop :=
  ∀ x ∈ t.head?, p.Avoids x ∧ isWordChar x = false

theorem Fences.mono {q : Pattern} (classes : q.classes ⊆ p.classes) (h : p.Fences b) :
    q.Fences b := fun x hx => ⟨fun k hk => (h x hx).1 k (classes hk), (h x hx).2⟩

theorem Fences.bare (h : p.Fences b) : Bare b.head? := fun x hx => (h x hx).2

theorem along_fenced {k : CharClass} {rest : List Char} (h : (many k).Fences b) (n pos : Nat)
    (prev : Option Char) :
    Cursor.along k (pos + n) prev (rest ++ b) =
      (Cursor.along k pos prev rest).map (Cursor.moved n b) := by
  induction rest generalizing pos prev with
  | nil =>
    cases b with
    | nil => rfl
    | cons x b =>
      have out : k.has x = false := (h x rfl).1 k (List.mem_singleton.mpr rfl)
      rw [List.nil_append, Cursor.along, Cursor.along, if_neg (by rw [out]; decide)]
      rfl
  | cons y rest ih =>
    rw [List.cons_append, Cursor.along, Cursor.along, List.map_cons]
    congr 1
    split
    · rw [← ih, Nat.add_right_comm]
    · rfl

/-- **A text behind that the pattern cannot read on into changes no match**, wherever the place
is. -/
theorem ends_fenced (simple : p.loopless = true) (h : p.unanchored = true) (fenced : p.Fences b)
    (n : Nat) (c : Cursor) : p.ends (c.moved n b) = (p.ends c).map (Cursor.moved n b) := by
  induction p generalizing c with
  | empty => rfl
  | one k =>
    obtain ⟨pos, prev, rest⟩ := c
    cases rest with
    | nil =>
      cases b with
      | nil => rfl
      | cons x b =>
        have out : k.has x = false := (fenced x rfl).1 k (List.mem_singleton.mpr rfl)
        rw [Cursor.moved, List.nil_append, ends_one_cons, out]
        rfl
    | cons x rest =>
      rw [Cursor.moved, List.cons_append, ends_one_cons, ends_one_cons, Nat.add_right_comm]
      split <;> rfl
  | many k =>
    rw [ends, ends, List.map_reverse]
    exact congrArg _ (along_fenced fenced n c.pos c.prev)
  | few k => exact along_fenced fenced n c.pos c.prev
  | start | stop => cases h
  | boundary =>
    have same : (c.moved n b).atBoundary = c.atBoundary := by
      have := atBoundary_surrounded (a := []) (fun _ hx => by cases hx) fenced.bare c
      rwa [Cursor.surrounded, List.getLast?_nil, Option.or_none] at this
    rw [ends, ends, apply_ite (List.map _), same]
    rfl
  | seq p q ihp ihq =>
    obtain ⟨simplep, simpleq⟩ := Bool.and_eq_true_iff.mp simple
    obtain ⟨hp, hq⟩ := Bool.and_eq_true_iff.mp h
    rw [ends, ends, ihp simplep hp (fenced.mono (List.subset_append_left ..)), List.flatMap_map,
      List.map_flatMap]
    exact List.flatMap_congr fun d _ => ihq simpleq hq (fenced.mono (List.subset_append_right ..)) d
  | alt p q ihp ihq =>
    obtain ⟨simplep, simpleq⟩ := Bool.and_eq_true_iff.mp simple
    obtain ⟨hp, hq⟩ := Bool.and_eq_true_iff.mp h
    rw [ends, ends, List.map_append, ihp simplep hp (fenced.mono (List.subset_append_left ..)),
      ihq simpleq hq (fenced.mono (List.subset_append_right ..))]
  | opt p ih =>
    rw [ends, ends, List.map_append, ih simple h fenced]
    rfl
  | plus p => cases simple

/-! ## Occurrences -/

/-- **What occurs in a text occurs in a larger one**, if no word runs on over its borders. -/
theorem occursIn_surrounded (h : p.unanchored = true) (ha : Bare a.getLast?) (hb : Bare b.head?)
    (occurs : p.occursIn text = true) : p.occursIn (a ++ text ++ b) = true := by
  obtain ⟨c, place, found⟩ := List.any_eq_true.mp occurs
  rw [Bool.not_eq_true', List.isEmpty_eq_false_iff_exists_mem] at found
  obtain ⟨d, hd⟩ := found
  obtain ⟨before, rest, hc⟩ := mem_places_iff.mp place
  have inside : (c.surrounded a b) ∈ Cursor.places (a ++ text ++ b) := by
    refine mem_places_iff.mpr ⟨a ++ before, ?_, ?_⟩
    · rw [rest, Cursor.surrounded, List.append_assoc, List.append_assoc, List.append_assoc]
    · rw [hc, Cursor.surrounded, List.length_append, List.getLast?_append, Nat.add_comm]
  refine List.any_eq_true.mpr ⟨_, inside, ?_⟩
  rw [Bool.not_eq_true', List.isEmpty_eq_false_iff_exists_mem]
  exact ⟨_, mem_ends_surrounded h ha hb hd⟩

end Pattern

end BoundSql
