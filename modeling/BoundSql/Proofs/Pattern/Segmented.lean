import BoundSql.Proofs.Pattern.Cut
import BoundSql.Proofs.Pattern.Elsewhere

/-!
# What a search makes of a text

`Segmented p c segs` says without reference to the search what its segments are from a place on: at
a character outside of every match no match starts, and each match is the preferred one at its
place. A search for a pattern that spells no empty text gives such segments
(`segmented_segmentsFrom`), and there are no others (`Segmented.segmentsFrom_eq`). Segments of parts
join where the pattern cannot read on (`Segmented.append`), and segments of a whole are those of its
parts where no match stands on both (`Segmented.split`).

What replaces the matches is told from what stood between them by its characters: see
`plain_or_hit_of_rewritten`, `exists_plain_of_rewritten`.
-/

namespace BoundSql

namespace Pattern

open Text

variable {p : Pattern} {c d : Cursor} {pos : Nat} {prev : Option Char} {s t a b : List Char}
  {x : Char} {segs segs' : List Segment}

/-- The segments from a place on. -/
inductive Segmented (p : Pattern) : Cursor → List Segment → Prop
  /-- At the end of the text there are none. -/
  | nil (pos : Nat) (prev : Option Char) : Segmented p ⟨pos, prev, []⟩ []
  /-- Where no match starts, the next character is one. -/
  | plain {pos : Nat} {prev : Option Char} {x : Char} {t : List Char} {segs : List Segment}
      (none : p.ends ⟨pos, prev, x :: t⟩ = []) (rest : Segmented p ⟨pos + 1, some x, t⟩ segs) :
      Segmented p ⟨pos, prev, x :: t⟩ (.plain x :: segs)
  /-- Where a match starts, the preferred one is. -/
  | hit {pos : Nat} {prev : Option Char} {s t : List Char} {segs : List Segment} (full : s ≠ [])
      (first : (p.ends ⟨pos, prev, s ++ t⟩).head? =
        some ⟨pos + s.length, s.getLast?.or prev, t⟩)
      (rest : Segmented p ⟨pos + s.length, s.getLast?.or prev, t⟩ segs) :
      Segmented p ⟨pos, prev, s ++ t⟩ (.hit s :: segs)

/-- The place behind two texts is the place behind the two together. -/
theorem behind_append (pos : Nat) (prev : Option Char) (s t u : List Char) :
    (⟨pos + s.length + t.length, t.getLast?.or (s.getLast?.or prev), u⟩ : Cursor) =
      ⟨pos + (s ++ t).length, (s ++ t).getLast?.or prev, u⟩ := by
  rw [List.length_append, Nat.add_assoc, List.getLast?_append, Option.or_assoc]

/-! ## The search -/

/-- The place where a match ends, by what the match spells. -/
theorem exists_eq_of_mem_ends (h : d ∈ p.ends c) :
    ∃ s, p.Spells s ∧ c.rest = s ++ d.rest ∧
      d = ⟨c.pos + s.length, s.getLast?.or c.prev, d.rest⟩ := by
  obtain ⟨s, spells, rest, last⟩ := exists_spells_of_mem_ends h
  have places : d.pos + d.rest.length = c.pos + c.rest.length := pos_add_length_of_mem_ends h
  have pos : d.pos = c.pos + s.length := by
    rw [rest, List.length_append] at places
    omega
  refine ⟨s, spells, rest, ?_⟩
  rw [← pos, ← last]

/-- **There are no other segments than those of the search.** -/
theorem Segmented.segmentsFrom_eq (h : p.Segmented c segs) :
    p.segmentsFrom c.pos c.prev 0 c.rest = segs := by
  induction h with
  | nil pos prev => exact segmentsFrom_nil pos prev 0
  | plain none _ ih => rw [segmentsFrom_of_ends_nil none, ih]
  | hit full first _ ih => rw [segmentsFrom_of_head?_ends full first, ih]

/-- **A search for a pattern that spells no empty text gives the segments.** -/
theorem segmented_segmentsFrom (full : ¬ p.Spells []) (pos : Nat) (prev : Option Char)
    (text : List Char) : p.Segmented ⟨pos, prev, text⟩ (p.segmentsFrom pos prev 0 text) := by
  induction h : text.length using Nat.strongRecOn generalizing pos prev text with
  | ind n ih =>
  cases text with
  | nil =>
    rw [segmentsFrom_nil]
    exact .nil pos prev
  | cons x t =>
    cases first : p.ends ⟨pos, prev, x :: t⟩ with
    | nil =>
      rw [segmentsFrom_of_ends_nil first]
      exact .plain first (ih t.length (by simp [← h]) _ _ t rfl)
    | cons d ds =>
      -- The preferred match spells some `s`, and the search goes on behind it.
      obtain ⟨s, spells, rest, place⟩ :=
        exists_eq_of_mem_ends (first ▸ List.mem_cons_self : d ∈ p.ends ⟨pos, prev, x :: t⟩)
      have nonempty : s ≠ [] := by
        rintro rfl
        exact full spells
      have shorter : d.rest.length < n := by
        have := congrArg List.length rest
        have := List.length_pos_iff.mpr nonempty
        simp only [List.length_append] at *
        omega
      have preferred : (p.ends ⟨pos, prev, s ++ d.rest⟩).head? =
          some ⟨pos + s.length, s.getLast?.or prev, d.rest⟩ := by
        rw [← place, ← rest, first, List.head?_cons]
      rw [show x :: t = s ++ d.rest from rest, segmentsFrom_of_head?_ends nonempty preferred]
      exact .hit nonempty preferred (ih _ shorter _ _ d.rest rfl)

theorem segmented_segments (full : ¬ p.Spells []) (text : List Char) :
    p.Segmented (.start text) (p.segments text) :=
  segmented_segmentsFrom full 0 none text

namespace Segmented

theorem spell_eq (h : p.Segmented c segs) : segs.flatMap Segment.text = c.rest := by
  rw [← h.segmentsFrom_eq, spell_segmentsFrom, List.drop_zero]

/-- Where the first segment is outside of every match, no match starts. -/
theorem of_plain_cons (h : p.Segmented c (.plain x :: segs)) :
    p.ends c = [] ∧ ∃ t, c.rest = x :: t ∧ p.Segmented ⟨c.pos + 1, some x, t⟩ segs := by
  cases h with
  | plain none rest => exact ⟨none, _, rfl, rest⟩

/-- Where the first segment is a match, it is the preferred one. -/
theorem of_hit_cons (h : p.Segmented c (.hit s :: segs)) :
    s ≠ [] ∧ ∃ t, c.rest = s ++ t ∧
      (p.ends c).head? = some ⟨c.pos + s.length, s.getLast?.or c.prev, t⟩ ∧
      p.Segmented ⟨c.pos + s.length, s.getLast?.or c.prev, t⟩ segs := by
  cases h with
  | hit full first rest => exact ⟨full, _, rfl, first, rest⟩

/-- The segments behind others. -/
theorem drop (h : p.Segmented c (segs ++ segs')) :
    p.Segmented ⟨c.pos + (segs.flatMap Segment.text).length,
      (segs.flatMap Segment.text).getLast?.or c.prev, segs'.flatMap Segment.text⟩ segs' := by
  induction segs generalizing c with
  | nil =>
    rw [List.nil_append] at h
    rw [h.spell_eq]
    exact h
  | cons seg segs ih =>
    cases seg with
    | plain x =>
      obtain ⟨-, t, -, rest⟩ := of_plain_cons h
      rw [List.flatMap_cons, Segment.text, List.singleton_append, ← behind_cons]
      exact ih rest
    | hit s =>
      obtain ⟨-, t, -, -, rest⟩ := of_hit_cons h
      rw [List.flatMap_cons, Segment.text, ← behind_append]
      exact ih rest

/-- A match is spelled by the pattern. -/
theorem spells_of_mem (h : p.Segmented c segs) (hs : .hit s ∈ segs) : p.Spells s := by
  obtain ⟨before, behind, rfl⟩ := List.append_of_mem hs
  obtain ⟨-, t, rest, first, -⟩ := of_hit_cons h.drop
  obtain ⟨s', spells, rest', -⟩ := exists_spells_of_mem_ends (List.mem_of_head? first)
  rw [rest] at rest'
  rwa [List.append_cancel_right rest']

/-! ## Parts of a text -/

/-- **Segments of a text join those of what follows it** if the text ends with a character that the
pattern cannot read, or nothing follows. Its place does not matter. -/
theorem append (simple : p.loopless = true) (n : Nat) (h : p.Segmented c segs)
    (shield : t = [] ∨ ∀ x ∈ c.rest.getLast?, p.Avoids x)
    (h' : p.Segmented ⟨c.pos + n + c.rest.length, c.rest.getLast?.or c.prev, t⟩ segs') :
    p.Segmented (c.moved n t) (segs ++ segs') := by
  have moved {c : Cursor} (open_ : c.rest ≠ [])
      (shield : t = [] ∨ ∀ x ∈ c.rest.getLast?, p.Avoids x) :
      p.ends (c.moved n t) = (p.ends c).map (Cursor.moved n t) :=
    ends_moved simple n (shield.imp_right fun avoids =>
      ⟨_, List.getLast_mem open_, avoids _ (List.getLast?_eq_some_getLast open_)⟩)
  induction h with
  | nil pos prev => exact h'
  | @plain pos prev x s segs none rest ih =>
    have none' : p.ends ⟨pos + n, prev, x :: (s ++ t)⟩ = [] := by
      have := moved (c := ⟨pos, prev, x :: s⟩) (List.cons_ne_nil x s) shield
      rwa [none, List.map_nil] at this
    have last : t = [] ∨ ∀ y ∈ s.getLast?, p.Avoids y := shield.imp_right fun avoids y hy => by
      refine avoids y (?_ : y ∈ (x :: s).getLast?)
      rw [List.getLast?_cons, Option.mem_def.mp hy]
      rfl
    have behind : p.Segmented ⟨pos + 1 + n + s.length, s.getLast?.or (some x), t⟩ segs' := by
      rw [Nat.add_right_comm pos 1 n, behind_cons]
      exact h'
    refine .plain none' ?_
    rw [Nat.add_right_comm]
    exact ih last behind
  | @hit pos prev s u segs full first rest ih =>
    have first' : (p.ends ⟨pos + n, prev, s ++ (u ++ t)⟩).head? =
        some ⟨pos + n + s.length, s.getLast?.or prev, u ++ t⟩ := by
      have := moved (c := ⟨pos, prev, s ++ u⟩) (List.append_ne_nil_of_left_ne_nil full u) shield
      rw [Cursor.moved, List.append_assoc] at this
      rw [this, List.head?_map, first, Option.map_some, Cursor.moved, Nat.add_right_comm]
    have last : t = [] ∨ ∀ y ∈ u.getLast?, p.Avoids y := shield.imp_right fun avoids y hy => by
      refine avoids y (?_ : y ∈ (s ++ u).getLast?)
      rw [List.getLast?_append, Option.mem_def.mp hy]
      rfl
    have behind : p.Segmented
        ⟨pos + s.length + n + u.length, u.getLast?.or (s.getLast?.or prev), t⟩ segs' := by
      rw [Nat.add_right_comm pos s.length n, behind_append]
      exact h'
    rw [Cursor.moved, List.append_assoc]
    refine .hit full first' ?_
    rw [Nat.add_right_comm]
    exact ih last behind

/-- **Segments of a whole are those of its parts** if no match stands on both of them. -/
theorem split (h : p.Segmented ⟨pos, prev, a ++ b⟩ segs)
    (apart : ∀ u v, u <:+ a → v <+: b → u ≠ [] → v ≠ [] → ¬ p.Spells (u ++ v)) :
    ∃ before behind, segs = before ++ behind ∧ before.flatMap Segment.text = a ∧
      p.Segmented ⟨pos + a.length, a.getLast?.or prev, b⟩ behind := by
  induction segs generalizing pos prev a with
  | nil =>
    obtain ⟨rfl, rfl⟩ := List.append_eq_nil_iff.mp h.spell_eq.symm
    exact ⟨[], [], rfl, rfl, h⟩
  | cons seg segs ih =>
    rcases eq_or_ne a [] with rfl | ha
    · exact ⟨[], seg :: segs, rfl, rfl, h⟩
    -- The first segment is a part of `a`.
    obtain ⟨a', rfl, rest⟩ : ∃ a', a = seg.text ++ a' ∧
        p.Segmented ⟨pos + seg.text.length, seg.text.getLast?.or prev, a' ++ b⟩ segs := by
      cases seg with
      | plain x =>
        obtain ⟨-, t, split, rest⟩ := of_plain_cons h
        obtain ⟨y, a, rfl⟩ := List.exists_cons_of_ne_nil ha
        obtain ⟨rfl, rfl⟩ := List.cons.inj split
        exact ⟨a, rfl, rest⟩
      | hit s =>
        obtain ⟨full, t, split, -, rest⟩ := of_hit_cons h
        rcases List.append_eq_append_iff.mp split with ⟨v, rfl, hv⟩ | ⟨a', rfl, rfl⟩
        · rcases eq_or_ne v [] with rfl | nonempty
          · rw [List.nil_append] at hv
            rw [List.append_nil] at rest
            exact ⟨[], by simp [Segment.text], by simpa [Segment.text, hv] using rest⟩
          · exact absurd (h.spells_of_mem List.mem_cons_self)
              (apart a v List.suffix_rfl ⟨t, hv.symm⟩ ha nonempty)
        · exact ⟨a', rfl, rest⟩
    obtain ⟨before, behind, rfl, spell, last⟩ := ih rest fun u v hu =>
      apart u v (hu.trans (List.suffix_append ..))
    refine ⟨seg :: before, behind, rfl, by rw [List.flatMap_cons, spell], ?_⟩
    rwa [← behind_append]

/-- Where all characters are out of the pattern's reach, they are the segments. -/
theorem eq_map_plain (h : p.Segmented c segs) (avoids : ∀ x ∈ c.rest, p.Avoids x) :
    segs = c.rest.map .plain := by
  induction h with
  | nil => rfl
  | plain _ _ ih =>
    rw [List.map_cons, ← ih fun y hy => avoids y (List.mem_cons_of_mem _ hy)]
  | @hit pos prev s t segs full first rest ih =>
    have spells : p.Spells s := (hit full first rest).spells_of_mem List.mem_cons_self
    obtain ⟨x, s, rfl⟩ := List.exists_cons_of_ne_nil full
    exact absurd List.mem_cons_self ((avoids x List.mem_cons_self).not_mem spells)

end Segmented

/-- The segments of a text do not depend on the position. -/
theorem segmentsFrom_add (simple : p.loopless = true) (full : ¬ p.Spells []) (pos n : Nat)
    (prev : Option Char) (s : List Char) :
    p.segmentsFrom (pos + n) prev 0 s = p.segmentsFrom pos prev 0 s := by
  have moved := (segmented_segmentsFrom full pos prev s).append simple n (.inl rfl) (.nil _ _)
  rw [List.append_nil] at moved
  have := moved.segmentsFrom_eq
  rwa [Cursor.moved, List.append_nil] at this

/-- **Where no match starts at the first character, the segments of what follows do not depend on
what stands before.** -/
theorem segmentsFrom_eq_of_ends_nil (simple : p.loopless = true) (full : ¬ p.Spells [])
    (none : s ≠ [] → ∀ pos prev, p.ends ⟨pos, prev, s⟩ = []) (pos pos' : Nat)
    (prev prev' : Option Char) :
    p.segmentsFrom pos prev 0 s = p.segmentsFrom pos' prev' 0 s := by
  cases s with
  | nil => rw [segmentsFrom_nil, segmentsFrom_nil]
  | cons x t =>
    have none := none (List.cons_ne_nil x t)
    rw [segmentsFrom_of_ends_nil (none pos prev), segmentsFrom_of_ends_nil (none pos' prev'),
      ← Nat.zero_add (pos + 1), ← Nat.zero_add (pos' + 1), segmentsFrom_add simple full,
      segmentsFrom_add simple full]

/-! ## Replaced matches -/

@[simp] theorem spell_map_plain (s : List Char) :
    (s.map Segment.plain).flatMap Segment.text = s := by
  rw [List.flatMap_map]
  exact List.flatMap_singleton' s

@[simp] theorem rewritten_map_plain (f : List Char → List Char) (s : List Char) :
    (s.map Segment.plain).flatMap (·.rewritten f) = s := by
  rw [List.flatMap_map]
  exact List.flatMap_singleton' s

/-- Nothing is replaced where nothing matches. -/
theorem replaceAll_of_not_occursIn {f : List Char → List Char} {text : List Char}
    (full : ¬ p.Spells []) (h : p.occursIn text = false) : p.replaceAll f text = text := by
  have segmented : p.Segmented (.start text) (p.segments text) := segmented_segments full text
  have same : ∀ seg ∈ p.segments text, seg.rewritten f = seg.text := by
    intro seg hseg
    cases seg with
    | plain x => rfl
    | hit s =>
      obtain ⟨before, behind, split⟩ := List.append_of_mem hseg
      obtain ⟨-, t, -, first, -⟩ := (split ▸ segmented).drop.of_hit_cons
      rw [← spell_segments p text, split, List.flatMap_append] at h
      refine absurd (occursIn_of_mem_ends fun none => ?_) (Bool.eq_false_iff.mp h)
      rw [Cursor.start, Nat.zero_add, Option.or_none, none] at first
      cases first
  rw [replaceAll, List.flatMap_congr same, spell_segments]

variable {f : List Char → List Char}

/-- What the segments come to starts with `a`: either all of `a` is outside of matches, or the first
match is replaced within it. -/
theorem plain_or_hit_of_rewritten (h : segs.flatMap (·.rewritten f) = a ++ b) :
    (∃ behind, segs = a.map .plain ++ behind ∧ behind.flatMap (·.rewritten f) = b) ∨
    ∃ u v s behind, a = u ++ v ∧ v ≠ [] ∧ segs = u.map .plain ++ .hit s :: behind ∧
      f s ++ behind.flatMap (·.rewritten f) = v ++ b := by
  induction a generalizing segs with
  | nil => exact .inl ⟨segs, rfl, h⟩
  | cons x a ih =>
    cases segs with
    | nil => cases h
    | cons seg segs =>
      rw [List.flatMap_cons] at h
      cases seg with
      | hit s => exact .inr ⟨[], x :: a, s, segs, rfl, List.cons_ne_nil x a, rfl, h⟩
      | plain y =>
        rw [Segment.rewritten, List.singleton_append, List.cons_append, List.cons.injEq] at h
        obtain ⟨rfl, h⟩ := h
        rcases ih h with ⟨behind, rfl, rest⟩ | ⟨u, v, s, behind, rfl, hv, rfl, rest⟩
        · exact .inl ⟨behind, rfl, rest⟩
        · exact .inr ⟨y :: u, v, s, behind, rfl, hv, rfl, rest⟩

/-- A character that no match is replaced by was outside of the matches. -/
theorem exists_plain_of_rewritten (none : ∀ s, .hit s ∈ segs → x ∉ f s)
    (h : segs.flatMap (·.rewritten f) = a ++ x :: b) :
    ∃ before behind, segs = before ++ .plain x :: behind ∧
      before.flatMap (·.rewritten f) = a ∧ behind.flatMap (·.rewritten f) = b := by
  induction segs generalizing a with
  | nil => exact absurd h.symm (by simp)
  | cons seg segs ih =>
    have none' : ∀ s, .hit s ∈ segs → x ∉ f s := fun s hs => none s (List.mem_cons_of_mem seg hs)
    rw [List.flatMap_cons] at h
    cases seg with
    | plain y =>
      rw [Segment.rewritten, List.singleton_append] at h
      cases a with
      | nil =>
        rw [List.nil_append, List.cons.injEq] at h
        obtain ⟨rfl, h⟩ := h
        exact ⟨[], segs, rfl, rfl, h⟩
      | cons z a =>
        rw [List.cons_append, List.cons.injEq] at h
        obtain ⟨rfl, h⟩ := h
        obtain ⟨before, behind, rfl, ha, hb⟩ := ih none' h
        exact ⟨.plain y :: before, behind, rfl, congrArg (y :: ·) ha, hb⟩
    | hit s =>
      rw [Segment.rewritten] at h
      rcases List.append_eq_append_iff.mp h with ⟨a', rfl, tail⟩ | ⟨b', hs, tail⟩
      · obtain ⟨before, behind, rfl, ha, hb⟩ := ih none' tail
        exact ⟨.hit s :: before, behind, rfl, congrArg (f s ++ ·) ha, hb⟩
      · cases b' with
        | nil =>
          obtain ⟨before, behind, rfl, ha, hb⟩ := ih (a := []) none' tail.symm
          refine ⟨.hit s :: before, behind, rfl, ?_, hb⟩
          rw [List.flatMap_cons, ha, Segment.rewritten, hs, List.append_nil, List.append_nil]
        | cons y b' =>
          obtain ⟨rfl, -⟩ := List.cons.inj tail
          exact absurd (hs ▸ List.mem_append_right a List.mem_cons_self) (none s List.mem_cons_self)

end Pattern

end BoundSql
