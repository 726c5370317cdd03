import BoundSql.Proofs.Pattern.Repeated

/-!
# Repetition under a change of places

Of a place a repetition looks at its position and at the length of the text that is left, and it
remembers a place by a mark. A change of places that goes with all of this is a *relabelling*
(`Relabels`). If it takes the steps of one repetition to those of another, it takes the places the
one lists to those the other lists, in the same order (`repeated_relabelled`).

The first use is a text that stands further on. Its places are moved by one number, so all its
matches are (`ends_shifted`): a pattern does not see the position of a text. If it does not ask for
the character in front either, the segments of the text are the same wherever it stands
(`Unprompted.segmentsFrom_eq`).
-/

namespace BoundSql

namespace Pattern

variable {g : Cursor → Cursor} {mark : Nat → Nat} {next next' : Cursor → List Cursor}
  {p : Pattern}

/-- The change of places keeps what a repetition looks at, when marks change by `mark`. -/
structure Relabels (g : Cursor → Cursor) (mark : Nat → Nat) : Prop where
  length : ∀ c, (g c).rest.length = c.rest.length
  later : ∀ c d, (g c).pos < (g d).pos ↔ c.pos < d.pos
  unmarked : mark 0 = 0
  marked : ∀ n c, (mark n).testBit (g c).pos = n.testBit c.pos
  marking : ∀ n c, mark (n ||| 1 <<< c.pos) = mark n ||| 1 <<< (g c).pos

/-- The visited places after the change. -/
def Visited.relabelled (g : Cursor → Cursor) (mark : Nat → Nat) (seen : Visited) : Visited :=
  { marks := mark seen.marks, places := seen.places.map g }

/-- The change takes the steps of one repetition to those of another. -/
def Carries (g : Cursor → Cursor) (next next' : Cursor → List Cursor) : Prop :=
  ∀ c, next' (g c) = (next c).map g

theorem foldl_relabelled {v v' : Visited → Cursor → Visited}
    (h : ∀ seen d, v' (seen.relabelled g mark) (g d) = (v seen d).relabelled g mark)
    (ds : List Cursor) (seen : Visited) :
    (ds.map g).foldl v' (seen.relabelled g mark) = (ds.foldl v seen).relabelled g mark := by
  rw [List.foldl_map]
  exact List.foldl_hom (Visited.relabelled g mark) fun seen d => h seen d

theorem visit_relabelled (h : Relabels g mark) (carries : Carries g next next') (fuel : Nat)
    (seen : Visited) (c : Cursor) :
    visit next' fuel (seen.relabelled g mark) (g c) =
      (visit next fuel seen c).relabelled g mark := by
  induction fuel generalizing seen c with
  | zero => rfl
  | succ fuel ih =>
    rw [visit, visit, carries, foldl_relabelled ih, apply_ite (Visited.relabelled g mark)]
    simp only [Visited.relabelled, h.marked, h.marking, List.map_cons]

theorem later_relabelled (h : Relabels g mark) (carries : Carries g next next') :
    Carries g (later next) (later next') := by
  intro c
  rw [later, later, carries, List.filter_map]
  simp only [Function.comp_def, h.later]

/-- **A relabelling takes the places that a repetition lists to those that the other lists.** -/
theorem repeated_relabelled (h : Relabels g mark) (carries : Carries g next next') :
    Carries g (repeated next) (repeated next') := by
  intro c
  have nothing : ({} : Visited) = Visited.relabelled g mark {} := by
    rw [Visited.relabelled, h.unmarked]
    rfl
  change ((later next' (g c)).foldl (visit (later next') (g c).rest.length) {}).places.reverse = _
  rw [later_relabelled h carries, h.length, nothing,
    foldl_relabelled (visit_relabelled h (later_relabelled h carries) _), Visited.relabelled,
    ← List.map_reverse]
  rfl

/-! ## A text further on -/

theorem relabels_moved (n : Nat) : Relabels (Cursor.moved n []) (· <<< n) where
  length c := by rw [Cursor.moved, List.append_nil]
  later c d := Nat.add_lt_add_iff_right
  unmarked := Nat.zero_shiftLeft n
  marked m c := by
    rw [Nat.testBit_shiftLeft, Cursor.moved, Nat.add_sub_cancel,
      decide_eq_true (Nat.le_add_left n c.pos), Bool.true_and]
  marking m c := by
    rw [Nat.shiftLeft_or_distrib, ← Nat.shiftLeft_add]
    rfl

/-- **The position of a text does not matter to its matches.** -/
theorem ends_shifted (p : Pattern) (n : Nat) : Carries (Cursor.moved n []) p.ends p.ends := by
  induction p with
  | empty | one | many | few | start | stop | boundary =>
    exact fun c => ends_moved rfl n (.inl rfl)
  | seq p q ihp ihq =>
    intro c
    rw [ends, ends, ihp, List.flatMap_map, List.map_flatMap]
    exact List.flatMap_congr fun d _ => ihq d
  | alt p q ihp ihq =>
    intro c
    rw [ends, ends, ihp, ihq, List.map_append]
  | opt p ih =>
    intro c
    rw [ends, ends, ih, List.map_append]
    rfl
  | plus p ih => exact repeated_relabelled (relabels_moved n) ih

/-- The pattern does not ask for the character in front. -/
def Unprompted (p : Pattern) : Prop :=
  ∀ pos prev prev' s, p.ends ⟨pos, prev, s⟩ = p.ends ⟨pos, prev', s⟩

theorem Unprompted.matchLength?_eq (h : p.Unprompted) (pos : Nat) (prev : Option Char)
    (s : List Char) : p.matchLength? ⟨pos, prev, s⟩ = p.matchLength? (.start s) := by
  have moved : p.ends ⟨pos, prev, s⟩ = (p.ends (.start s)).map (Cursor.moved pos []) := by
    rw [← ends_shifted p pos, Cursor.start, Cursor.moved, Nat.zero_add, List.append_nil]
    exact h pos prev none s
  have length : (fun d : Cursor => d.pos - pos) ∘ Cursor.moved pos [] = fun d => d.pos - 0 := by
    funext d
    exact Nat.add_sub_cancel d.pos pos
  rw [matchLength?, matchLength?, moved, List.head?_map, Option.map_map, length]
  rfl

/-- **The segments of a text are the same wherever it stands**, if the pattern does not ask for the
character in front. -/
theorem Unprompted.segmentsFrom_eq (h : p.Unprompted) (pos : Nat) (prev : Option Char) (skip : Nat)
    (s : List Char) : p.segmentsFrom pos prev skip s = p.segmentsFrom 0 none skip s := by
  induction s generalizing pos prev skip with
  | nil => rw [segmentsFrom_nil, segmentsFrom_nil]
  | cons x s ih =>
    cases skip with
    | succ skip => rw [segmentsFrom, segmentsFrom, ih (pos + 1), ih (0 + 1)]
    | zero =>
      rw [segmentsFrom, segmentsFrom, h.matchLength?_eq pos prev, h.matchLength?_eq 0 none]
      split
      · rw [ih (pos + 1), ih (0 + 1)]
      · rw [ih (pos + 1), ih (0 + 1)]

/-- At the end of a text stands a text with the segments it has alone. -/
theorem Unprompted.cuts (h : p.Unprompted) (s : List Char) : p.Cuts s (p.segments s) [] := by
  intro pos prev
  rw [List.append_nil, segmentsFrom_nil, List.append_nil]
  exact h.segmentsFrom_eq pos prev 0 s

end Pattern

end BoundSql
