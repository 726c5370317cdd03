import BoundSql.Proofs.Pattern.Preferred

/-!
# Cutting a text part by part

A search cuts a text into segments from left to right, and a match may depend on what follows it.
`Cuts p s segs rest` says that `p` cuts `s` into `segs` when `rest` follows, wherever that is; cuts
of neighbouring parts combine (`Cuts.append`), and the cut of a whole text gives its segments
(`Cuts.segments_eq`).
-/

namespace BoundSql

namespace Pattern

/-- The pattern cuts `s` into `segs` when `rest` follows. -/
def Cuts (p : Pattern) (s : List Char) (segs : List Segment) (rest : List Char) : Prop :=
  ∀ pos prev, p.segmentsFrom pos prev 0 (s ++ rest) =
    segs ++ p.segmentsFrom (pos + s.length) (s.getLast?.or prev) 0 rest

variable {p : Pattern} {s t rest : List Char} {segs segs' : List Segment}

theorem segmentsFrom_nil (pos : Nat) (prev : Option Char) (skip : Nat) :
    p.segmentsFrom pos prev skip [] = [] := by
  rw [segmentsFrom]

/-- What a match covers is passed over. -/
theorem segmentsFrom_skip (s rest : List Char) (pos : Nat) (prev : Option Char) :
    p.segmentsFrom pos prev s.length (s ++ rest) =
      p.segmentsFrom (pos + s.length) (s.getLast?.or prev) 0 rest := by
  induction s generalizing pos prev with
  | nil => rfl
  | cons x s ih =>
    rw [List.length_cons, List.cons_append, segmentsFrom, ih, Nat.add_assoc, Nat.add_comm 1,
      getLast?_or_cons prev]

/-- Where nothing matches, a character is cut off alone. -/
theorem segmentsFrom_of_ends_nil {pos : Nat} {prev : Option Char} {x : Char}
    (h : p.ends ⟨pos, prev, x :: t⟩ = []) :
    p.segmentsFrom pos prev 0 (x :: t) = .plain x :: p.segmentsFrom (pos + 1) (some x) 0 t := by
  rw [segmentsFrom, matchLength?, h]
  rfl

/-- The preferred match is cut off as one. -/
theorem segmentsFrom_of_head?_ends {pos : Nat} {prev last : Option Char} (full : s ≠ [])
    (h : (p.ends ⟨pos, prev, s ++ t⟩).head? = some ⟨pos + s.length, last, t⟩) :
    p.segmentsFrom pos prev 0 (s ++ t) =
      .hit s :: p.segmentsFrom (pos + s.length) (s.getLast?.or prev) 0 t := by
  obtain ⟨x, s, rfl⟩ := List.exists_cons_of_ne_nil full
  have length : p.matchLength? ⟨pos, prev, x :: s ++ t⟩ = some (s.length + 1) := by
    rw [matchLength?, h, Option.map_some, List.length_cons]
    simp only [Nat.add_sub_cancel_left]
  rw [List.cons_append, segmentsFrom, ← List.cons_append, length]
  simp only
  rw [segmentsFrom_skip, List.take_left' (by rw [List.length_cons]), List.length_cons,
    Nat.add_assoc, Nat.add_comm 1, getLast?_or_cons prev]

namespace Cuts

theorem nil (rest : List Char) : p.Cuts [] [] rest := fun _ _ => rfl

/-- **Cuts of neighbouring parts combine.** -/
theorem append (hs : p.Cuts s segs (t ++ rest)) (ht : p.Cuts t segs' rest) :
    p.Cuts (s ++ t) (segs ++ segs') rest := by
  intro pos prev
  rw [List.append_assoc, hs, ht, List.append_assoc, List.length_append, Nat.add_assoc,
    List.getLast?_append, Option.or_assoc]

/-- **The cut of a whole text gives its segments.** -/
theorem segments_eq (h : p.Cuts s segs []) : p.segments s = segs := by
  have := h 0 none
  rwa [List.append_nil, segmentsFrom_nil, List.append_nil] at this

/-- A character at which nothing matches is cut off alone. -/
theorem plain {x : Char} (h : ∀ pos prev, p.ends ⟨pos, prev, x :: rest⟩ = []) :
    p.Cuts [x] [.plain x] rest := by
  intro pos prev
  exact segmentsFrom_of_ends_nil (h pos prev)

/-- Characters at which nothing matches are cut off one by one. -/
theorem map_plain (h : ∀ x ∈ s, ∀ pos prev rest, p.ends ⟨pos, prev, x :: rest⟩ = []) :
    p.Cuts s (s.map .plain) rest := by
  induction s with
  | nil => exact nil rest
  | cons x s ih =>
    rw [List.map_cons, ← List.singleton_append, ← List.singleton_append (l := s.map _)]
    exact append (plain fun pos prev => h x List.mem_cons_self pos prev _)
      (ih fun y hy => h y (List.mem_cons_of_mem x hy))

/-- A match that covers a text cuts it off as one. -/
theorem hit {x : Char} (h : ∀ pos prev, ∃ last,
      (p.ends ⟨pos, prev, x :: s ++ rest⟩).head? = some ⟨pos + (x :: s).length, last, rest⟩) :
    p.Cuts (x :: s) [.hit (x :: s)] rest := by
  intro pos prev
  obtain ⟨last, hl⟩ := h pos prev
  exact segmentsFrom_of_head?_ends (List.cons_ne_nil x s) hl

end Cuts

end Pattern

end BoundSql
