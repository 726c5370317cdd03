import Mathlib.Logic.Relation
import BoundSql.Pattern.Search

/-!
# What a match spells

`Pattern.Spells p s` says what a text has to look like to be matched by `p`, wherever it stands: the
places that a pattern asks about (start, stop and word boundaries) spell nothing. Main statement:
what lies between the two ends of a match is spelled by the pattern (`exists_spells_of_mem_ends`).
What holds in all classes of a pattern holds in all that it spells (`forall_of_spells`).
-/

namespace BoundSql

namespace Pattern

/-- The texts a pattern can match, apart from what it asks about the place. -/
def Spells : Pattern → List Char → Prop
  | empty, s | start, s | stop, s | boundary, s => s = []
  | one k, s => ∃ x, k.has x = true ∧ s = [x]
  | many k, s | few k, s => ∀ x ∈ s, k.has x = true
  | seq p q, s => ∃ a b, Spells p a ∧ Spells q b ∧ s = a ++ b
  | alt p q, s => Spells p s ∨ Spells q s
  | opt p, s => Spells p s ∨ s = []
  | plus p, s => ∃ parts : List (List Char), (∀ a ∈ parts, Spells p a) ∧ s = parts.flatten

variable {p : Pattern} {c d : Cursor}

/-! ## Repetition -/

/-- One step of a repetition. -/
def Steps (next : Cursor → List Cursor) (c d : Cursor) : Prop := d ∈ next c

theorem mem_foldl_visit {next : Cursor → List Cursor} {fuel : Nat} {e : Cursor}
    (ih : ∀ seen c, e ∈ (visit next fuel seen c).places →
      e ∈ seen.places ∨ Relation.ReflTransGen (Steps next) c e)
    (l : List Cursor) (seen : Visited) (h : e ∈ (l.foldl (visit next fuel) seen).places) :
    e ∈ seen.places ∨ ∃ d ∈ l, Relation.ReflTransGen (Steps next) d e := by
  induction l generalizing seen with
  | nil => exact Or.inl h
  | cons d l ihl =>
    rcases ihl _ h with h | ⟨d', hd', path⟩
    · rcases ih seen d h with h | path
      · exact Or.inl h
      · exact Or.inr ⟨d, List.mem_cons_self, path⟩
    · exact Or.inr ⟨d', List.mem_cons_of_mem d hd', path⟩

/-- What is visited from a place is reached from it. -/
theorem mem_visit {next : Cursor → List Cursor} {e : Cursor} (fuel : Nat) (seen : Visited)
    (c : Cursor) (h : e ∈ (visit next fuel seen c).places) :
    e ∈ seen.places ∨ Relation.ReflTransGen (Steps next) c e := by
  induction fuel generalizing seen c with
  | zero => exact Or.inl h
  | succ fuel ih =>
    rw [visit] at h
    split at h
    · exact Or.inl h
    · rcases List.mem_cons.mp h with rfl | h
      · exact Or.inr .refl
      · rcases mem_foldl_visit ih _ _ h with h | ⟨d, hd, path⟩
        · exact Or.inl h
        · exact Or.inr (.head hd path)

/-- **A repetition ends where one or more steps lead.** -/
theorem transGen_of_mem_repeated {next : Cursor → List Cursor} {e : Cursor}
    (h : e ∈ repeated next c) : Relation.TransGen (Steps next) c e := by
  have weaken : ∀ a b, Steps (fun d => (next d).filter (d.pos < ·.pos)) a b → Steps next a b :=
    fun a b hab => (List.mem_filter.mp hab).1
  rw [repeated, List.mem_reverse] at h
  rcases mem_foldl_visit (mem_visit c.rest.length) _ _ h with h | ⟨d, hd, path⟩
  · exact absurd h (by simp)
  · exact .head' (weaken c d hd) (Relation.ReflTransGen.mono weaken _ _ path)

/-! ## Matches -/

/-- Reading `s` leads from one place to the other. -/
def Reads (c : Cursor) (s : List Char) (d : Cursor) : Prop :=
  c.rest = s ++ d.rest ∧ d.prev = s.getLast?.or c.prev

theorem Reads.nil (c : Cursor) : Reads c [] c := ⟨rfl, rfl⟩

theorem Reads.cons {pos : Nat} {prev : Option Char} {x : Char} {rest s : List Char}
    (h : Reads ⟨pos + 1, some x, rest⟩ s d) : Reads ⟨pos, prev, x :: rest⟩ (x :: s) d := by
  refine ⟨congrArg (x :: ·) h.1, h.2.trans ?_⟩
  rw [List.getLast?_cons]
  cases s.getLast? <;> rfl

theorem Reads.append {s t : List Char} {e : Cursor} (h : Reads c s d) (h' : Reads d t e) :
    Reads c (s ++ t) e := by
  refine ⟨by rw [h.1, h'.1, List.append_assoc], ?_⟩
  rw [h'.2, h.2, List.getLast?_append, Option.or_assoc]

theorem exists_reads_of_mem_along {k : CharClass} {pos : Nat} {prev : Option Char}
    {rest : List Char} (h : d ∈ Cursor.along k pos prev rest) :
    ∃ s, (∀ x ∈ s, k.has x = true) ∧ Reads ⟨pos, prev, rest⟩ s d := by
  induction rest generalizing pos prev with
  | nil =>
    rw [Cursor.along, List.mem_singleton] at h
    exact ⟨[], fun _ hx => absurd hx List.not_mem_nil, h ▸ .nil _⟩
  | cons x rest ih =>
    rw [Cursor.along] at h
    rcases List.mem_cons.mp h with rfl | h
    · exact ⟨[], fun _ hx => absurd hx List.not_mem_nil, .nil _⟩
    · by_cases hk : k.has x = true
      · rw [if_pos hk] at h
        obtain ⟨s, hs, reads⟩ := ih h
        exact ⟨x :: s, List.forall_mem_cons.mpr ⟨hk, hs⟩, reads.cons⟩
      · rw [if_neg hk] at h
        exact absurd h List.not_mem_nil

/-- A question about the place leaves it alone. -/
theorem eq_of_mem_ite {b : Bool} (h : d ∈ if b then [c] else []) : d = c := by
  split at h
  · exact List.mem_singleton.mp h
  · exact absurd h List.not_mem_nil

/-- What steps of a pattern spell, one after the other. -/
theorem exists_parts_of_transGen (ih : ∀ {c d}, d ∈ p.ends c → ∃ s, p.Spells s ∧ Reads c s d)
    (h : Relation.TransGen (Steps p.ends) c d) :
    ∃ parts : List (List Char),
      parts ≠ [] ∧ (∀ a ∈ parts, p.Spells a) ∧ Reads c parts.flatten d := by
  induction h with
  | single hab =>
    obtain ⟨s, hs, hc⟩ := ih hab
    exact ⟨[s], List.cons_ne_nil s [], List.forall_mem_singleton.mpr hs, by simpa using hc⟩
  | tail _ hbc ihc =>
    obtain ⟨parts, -, hparts, hc⟩ := ihc
    obtain ⟨s, hs, hb⟩ := ih hbc
    refine ⟨parts ++ [s], List.append_ne_nil_of_right_ne_nil parts (List.cons_ne_nil s []),
      List.forall_mem_append.mpr ⟨hparts, List.forall_mem_singleton.mpr hs⟩, ?_⟩
    rw [List.flatten_append, List.flatten_singleton]
    exact hc.append hb

/-- **What lies between the ends of a match is spelled by the pattern.** -/
theorem exists_spells_of_mem_ends (h : d ∈ p.ends c) : ∃ s, p.Spells s ∧ Reads c s d := by
  induction p generalizing c d with
  | empty =>
    rw [ends, List.mem_singleton] at h
    exact ⟨[], rfl, h ▸ .nil _⟩
  | one k =>
    obtain ⟨pos, prev, rest⟩ := c
    cases rest with
    | nil => exact absurd h List.not_mem_nil
    | cons x rest =>
      rw [ends, Cursor.step] at h
      by_cases hk : k.has x = true
      · rw [if_pos hk, List.mem_singleton] at h
        exact ⟨[x], ⟨x, hk, rfl⟩, h ▸ (Reads.nil _).cons⟩
      · rw [if_neg hk] at h
        exact absurd h List.not_mem_nil
  | many k =>
    rw [ends, List.mem_reverse] at h
    exact exists_reads_of_mem_along h
  | few k => exact exists_reads_of_mem_along h
  | start => exact ⟨[], rfl, eq_of_mem_ite h ▸ .nil _⟩
  | stop => exact ⟨[], rfl, eq_of_mem_ite h ▸ .nil _⟩
  | boundary => exact ⟨[], rfl, eq_of_mem_ite h ▸ .nil _⟩
  | seq p q ihp ihq =>
    rw [ends] at h
    obtain ⟨e, he, hd⟩ := List.mem_flatMap.mp h
    obtain ⟨a, ha, hc⟩ := ihp he
    obtain ⟨b, hb, he⟩ := ihq hd
    exact ⟨a ++ b, ⟨a, b, ha, hb, rfl⟩, hc.append he⟩
  | alt p q ihp ihq =>
    rw [ends] at h
    rcases List.mem_append.mp h with h | h
    · obtain ⟨s, hs, hc⟩ := ihp h
      exact ⟨s, Or.inl hs, hc⟩
    · obtain ⟨s, hs, hc⟩ := ihq h
      exact ⟨s, Or.inr hs, hc⟩
  | opt p ih =>
    rw [ends] at h
    rcases List.mem_append.mp h with h | h
    · obtain ⟨s, hs, hc⟩ := ih h
      exact ⟨s, Or.inl hs, hc⟩
    · exact ⟨[], Or.inr rfl, List.mem_singleton.mp h ▸ .nil _⟩
  | plus p ih =>
    rw [ends] at h
    obtain ⟨parts, -, hparts, hc⟩ := exists_parts_of_transGen ih (transGen_of_mem_repeated h)
    exact ⟨parts.flatten, ⟨parts, hparts, rfl⟩, hc⟩

/-- A repetition spells its pattern at least once. -/
theorem exists_parts_of_mem_ends_plus (h : d ∈ (plus p).ends c) :
    ∃ parts : List (List Char),
      parts ≠ [] ∧ (∀ a ∈ parts, p.Spells a) ∧ Reads c parts.flatten d :=
  exists_parts_of_transGen exists_spells_of_mem_ends (transGen_of_mem_repeated h)

/-! ## Characters -/

/-- The classes a pattern names. -/
def classes : Pattern → List CharClass
  | empty | start | stop | boundary => []
  | one k | many k | few k => [k]
  | seq p q | alt p q => classes p ++ classes q
  | opt p | plus p => classes p

/-- **What holds in every class of a pattern holds in all it spells.** -/
theorem forall_of_spells {Q : Char → Prop} {s : List Char}
    (hQ : ∀ k ∈ p.classes, ∀ x, k.has x = true → Q x) (h : p.Spells s) : ∀ x ∈ s, Q x := by
  induction p generalizing s with
  | empty | start | stop | boundary =>
    rw [show s = [] from h]
    exact fun _ hx => absurd hx List.not_mem_nil
  | one k =>
    obtain ⟨y, hy, rfl⟩ := h
    exact List.forall_mem_singleton.mpr (hQ k (List.mem_singleton.mpr rfl) y hy)
  | many k | few k => exact fun x hx => hQ k (List.mem_singleton.mpr rfl) x (h x hx)
  | seq p q ihp ihq =>
    obtain ⟨a, b, ha, hb, rfl⟩ := h
    exact List.forall_mem_append.mpr
      ⟨ihp (fun k hk => hQ k (List.mem_append_left _ hk)) ha,
        ihq (fun k hk => hQ k (List.mem_append_right _ hk)) hb⟩
  | alt p q ihp ihq =>
    rcases h with h | h
    · exact ihp (fun k hk => hQ k (List.mem_append_left _ hk)) h
    · exact ihq (fun k hk => hQ k (List.mem_append_right _ hk)) h
  | opt p ih =>
    rcases h with h | rfl
    · exact ih hQ h
    · exact fun _ hx => absurd hx List.not_mem_nil
  | plus p ih =>
    obtain ⟨parts, hparts, rfl⟩ := h
    intro x hx
    obtain ⟨a, ha, hx⟩ := List.mem_flatten.mp hx
    exact ih hQ (hparts a ha) x hx

/-- What no class of a pattern holds is in no text it spells. -/
theorem forall_not_mem_of_spells {bad s : List Char}
    (none : (p.classes.all fun k => bad.all fun x => !k.has x) = true) (h : p.Spells s) :
    ∀ x ∈ s, x ∉ bad := by
  refine forall_of_spells (fun k hk x hx hm => ?_) h
  have out := List.all_eq_true.mp (List.all_eq_true.mp none k hk) x hm
  rw [hx] at out
  exact absurd out (by decide)

end Pattern

end BoundSql
