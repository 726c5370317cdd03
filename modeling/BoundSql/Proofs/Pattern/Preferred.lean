import BoundSql.Pattern.Search

/-!
# The preferred match

`Pattern.ends` lists the ends of a match in order of preference, and a search looks at the first one
only. This file computes that first end where the text leaves no choice:

* `head?_ends_seq`: the first end of a sequence is found by trying the ends of its first part.
* `ends_literal`: literal text has one end, behind the text.
* `getLast?_along`: a greedy run over a class ends where the class does.
* `ends_star`: a repetition whose steps never branch (`Walk`) has the places of the walk as its
  ends, the last one first.
-/

namespace BoundSql

namespace Pattern

variable {p q : Pattern} {c d : Cursor} {pos : Nat} {prev : Option Char} {s t : List Char}

/-! ## Sequences and literal text -/

theorem getLast?_or_cons (prev : Option Char) (x : Char) (s : List Char) :
    s.getLast?.or (some x) = (x :: s).getLast?.or prev := by
  rw [List.getLast?_cons]
  cases s.getLast? <;> rfl

/-- The place behind a character and a text is the place behind the two together. -/
theorem behind_cons (pos : Nat) (prev : Option Char) (x : Char) (s t : List Char) :
    (⟨pos + 1 + s.length, s.getLast?.or (some x), t⟩ : Cursor) =
      ⟨pos + (x :: s).length, (x :: s).getLast?.or prev, t⟩ := by
  rw [List.length_cons, Nat.add_assoc, Nat.add_comm 1, getLast?_or_cons prev]

theorem head?_ends_seq (p q : Pattern) (c : Cursor) :
    ((seq p q).ends c).head? = (p.ends c).findSome? fun d => (q.ends d).head? :=
  List.head?_flatMap

/-- If the first part has a single end, the sequence goes on from there. -/
theorem ends_seq_of_single (h : p.ends c = [d]) : (seq p q).ends c = q.ends d := by
  simp only [ends, h, List.flatMap_cons, List.flatMap_nil, List.append_nil]

/-- If the first part has no end, neither has the sequence. -/
theorem ends_seq_of_nil (h : p.ends c = []) : (seq p q).ends c = [] := by
  simp only [ends, h, List.flatMap_nil]

/-- The first end of a sequence, if the second part matches behind the preferred end of the
first. -/
theorem head?_ends_seq_of_head? {e : Cursor} (hd : (p.ends c).head? = some d)
    (he : (q.ends d).head? = some e) : ((seq p q).ends c).head? = some e := by
  rw [head?_ends_seq]
  cases h : p.ends c with
  | nil => rw [h] at hd; exact absurd hd (by simp)
  | cons d' ds =>
    rw [h, List.head?_cons, Option.some.injEq] at hd
    rw [hd, List.findSome?_cons, he]

theorem ends_one_cons (k : CharClass) (x : Char) :
    (one k).ends ⟨pos, prev, x :: t⟩ = if k.has x then [⟨pos + 1, some x, t⟩] else [] := rfl

theorem ends_char_self (x : Char) :
    (char x).ends ⟨pos, prev, x :: t⟩ = [⟨pos + 1, some x, t⟩] := by
  rw [char, ends_one_cons, if_pos (by simp)]

theorem ends_char_of_ne {x y : Char} (h : x ≠ y) : (char y).ends ⟨pos, prev, x :: t⟩ = [] := by
  rw [char, ends_one_cons, if_neg (by simpa using h)]

/-- A character that is not there ends a sequence. -/
theorem ends_seq_char_of_ne {x y : Char} (h : x ≠ y) :
    (seq (char y) q).ends ⟨pos, prev, x :: t⟩ = [] :=
  ends_seq_of_nil (ends_char_of_ne h)

theorem ends_seq_char_self (x : Char) :
    (seq (char x) q).ends ⟨pos, prev, x :: t⟩ = q.ends ⟨pos + 1, some x, t⟩ :=
  ends_seq_of_single (ends_char_self x)

theorem ends_cat_cons (p : Pattern) (ps : List Pattern) :
    (cat (p :: ps)).ends c = (p.ends c).flatMap (cat ps).ends := by
  cases ps with
  | nil => simp only [cat, ends, List.flatMap_singleton']
  | cons q ps => simp only [cat, ends]

/-- **Literal text has one end.** -/
theorem ends_literal (s : List Char) (pos : Nat) (prev : Option Char) (t : List Char) :
    (cat (s.map char)).ends ⟨pos, prev, s ++ t⟩ =
      [⟨pos + s.length, s.getLast?.or prev, t⟩] := by
  induction s generalizing pos prev with
  | nil => rfl
  | cons x s ih =>
    rw [List.map_cons, ends_cat_cons, List.cons_append, ends_char_self, List.flatMap_singleton, ih,
      behind_cons pos prev]

/-! ## Runs over a class -/

/-- The way over a class ends where the class does. -/
theorem getLast?_along {k : CharClass} (hs : ∀ x ∈ s, k.has x = true)
    (ht : ∀ x ∈ t.head?, k.has x = false) (pos : Nat) (prev : Option Char) :
    (Cursor.along k pos prev (s ++ t)).getLast? =
      some ⟨pos + s.length, s.getLast?.or prev, t⟩ := by
  induction s generalizing pos prev with
  | nil =>
    cases t with
    | nil => rfl
    | cons y t =>
      have hy : k.has y = false := ht y rfl
      simp [Cursor.along, hy]
  | cons x s ih =>
    have hx : k.has x = true := hs x List.mem_cons_self
    rw [List.cons_append, Cursor.along, if_pos hx, List.getLast?_cons,
      ih fun y hy => hs y (List.mem_cons_of_mem x hy), Option.getD_some, behind_cons pos prev]

/-- **A greedy run over a class takes all of it.** -/
theorem head?_ends_many {k : CharClass} (hs : ∀ x ∈ s, k.has x = true)
    (ht : ∀ x ∈ t.head?, k.has x = false) :
    ((many k).ends ⟨pos, prev, s ++ t⟩).head? =
      some ⟨pos + s.length, s.getLast?.or prev, t⟩ := by
  rw [ends, List.head?_reverse]
  exact getLast?_along hs ht pos prev

theorem head?_ends_run {k : CharClass} {x : Char} (hs : ∀ y ∈ x :: s, k.has y = true)
    (ht : ∀ y ∈ t.head?, k.has y = false) :
    ((run k).ends ⟨pos, prev, x :: s ++ t⟩).head? =
      some ⟨pos + (x :: s).length, (x :: s).getLast?.or prev, t⟩ := by
  have hx : (one k).ends ⟨pos, prev, x :: (s ++ t)⟩ = [⟨pos + 1, some x, s ++ t⟩] := by
    rw [ends_one_cons, if_pos (hs x List.mem_cons_self)]
  rw [run, List.cons_append, ends_seq_of_single hx,
    head?_ends_many (fun y hy => hs y (List.mem_cons_of_mem x hy)) ht, behind_cons pos prev]

/-! ## Repetitions that never branch -/

/-- The places from `c` on when each has one next place, further on, until there is none. -/
inductive Walk (next : Cursor → List Cursor) : Cursor → List Cursor → Prop
  | stop {c : Cursor} (h : next c = []) : Walk next c [c]
  | step {c d : Cursor} {ds : List Cursor} (h : next c = [d]) (later : c.pos < d.pos)
      (rest : Walk next d ds) : Walk next c (c :: ds)

/-- A repetition looks at later places only; a walk has no others. -/
theorem Walk.onwards {next : Cursor → List Cursor} {ds : List Cursor} (h : Walk next c ds) :
    Walk (fun d => (next d).filter (d.pos < ·.pos)) c ds := by
  induction h with
  | stop h => exact .stop (by simp [h])
  | step h later _ ih => exact .step (by simp [h, later]) later ih

/-- Nothing is marked on the way down a walk, so visiting it lists its places. -/
theorem places_visit {next : Cursor → List Cursor} {ds : List Cursor} (h : Walk next c ds)
    (fuel : Nat) (enough : ds.length ≤ fuel) : (visit next fuel {} c).places = ds := by
  induction h generalizing fuel with
  | stop h =>
    obtain ⟨n, rfl⟩ : ∃ n, fuel = n + 1 := ⟨fuel - 1, by simp at enough; omega⟩
    simp [visit, h]
  | step h later _ ih =>
    obtain ⟨n, rfl⟩ : ∃ n, fuel = n + 1 := ⟨fuel - 1, by simp at enough; omega⟩
    have := ih n (by simpa using enough)
    simp [visit, h, this]

/-- **The ends of a repetition that never branches**, the last place of the walk first. -/
theorem ends_star {ds : List Cursor} (h : Walk p.ends c ds)
    (enough : ds.length ≤ c.rest.length + 1) : (star p).ends c = ds.reverse := by
  rw [star, ends, ends, repeated]
  cases h.onwards with
  | stop h' => simp [h']
  | step h' later rest =>
    have := places_visit rest c.rest.length (by simpa using enough)
    simp [h', this]

end Pattern

end BoundSql
