import BoundSql.Proofs.Pattern.Segmented

/-!
# Repetition

A repetition visits each place of a text once, and lists a place only behind all that its steps lead
to. So whatever leads on from a listed place is listed at any time (`Explored.closed`), and the
places of one text are told apart by their position, which is all that a visit is remembered by
(`Cursor.Ahead.eq_of_pos`). Main statement: the ends of a repetition are exactly the places that one
or more steps lead to, each of them forward (`mem_ends_plus`). Hence it matches wherever texts that
its pattern spells stand in a row (`mem_ends_plus_of_spells`), and a pattern put together of such
parts occurs in a text that consists of what they spell (`Begins.occursIn`).
-/

namespace BoundSql

/-! ## The places of one text -/

namespace Cursor

/-- The place `d` is the one behind some characters that follow `c`. -/
def Ahead (c d : Cursor) : Prop :=
  ∃ s, c.rest = s ++ d.rest ∧ d = ⟨c.pos + s.length, s.getLast?.or c.prev, d.rest⟩

variable {c d e : Cursor}

theorem Ahead.refl (c : Cursor) : c.Ahead c := ⟨[], rfl, rfl⟩

theorem Ahead.trans (h : c.Ahead d) (h' : d.Ahead e) : c.Ahead e := by
  obtain ⟨s, rest, hd⟩ := h
  obtain ⟨t, rest', he⟩ := h'
  refine ⟨s ++ t, by rw [rest, rest', List.append_assoc], ?_⟩
  rw [he, ← Pattern.behind_append, hd]

theorem Ahead.pos_add_length (h : c.Ahead d) :
    d.pos + d.rest.length = c.pos + c.rest.length := by
  obtain ⟨s, rest, hd⟩ := h
  rw [rest, hd, List.length_append, Nat.add_assoc]

/-- **The position tells the places of a text apart.** -/
theorem Ahead.eq_of_pos (h : c.Ahead d) (h' : c.Ahead e) (pos : d.pos = e.pos) : d = e := by
  obtain ⟨s, rest, hd⟩ := h
  obtain ⟨t, rest', he⟩ := h'
  have length : s.length = t.length := by
    rw [hd, he] at pos
    exact Nat.add_left_cancel pos
  obtain ⟨rfl, behind⟩ := List.append_inj (rest.symm.trans rest') length
  rw [hd, he, behind]

end Cursor

namespace Pattern

variable {p : Pattern} {c d e : Cursor} {next : Cursor → List Cursor} {seen seen' : Visited}
  {ds : List Cursor}

theorem ahead_of_mem_ends (h : d ∈ p.ends c) : c.Ahead d := by
  obtain ⟨s, -, rest, place⟩ := exists_eq_of_mem_ends h
  exact ⟨s, rest, place⟩

/-! ## Visiting -/

/-- From `c` on, steps stay in the text and go forward. -/
def Forward (next : Cursor → List Cursor) (c : Cursor) : Prop :=
  ∀ d, c.Ahead d → ∀ e ∈ next d, c.Ahead e ∧ d.pos < e.pos

/-- What holds of the places visited so far, all from `c` on. -/
structure Explored (next : Cursor → List Cursor) (c : Cursor) (seen : Visited) : Prop where
  ahead : ∀ d ∈ seen.places, c.Ahead d
  /-- The marks are the positions of the places. -/
  marked : ∀ n, seen.marks.testBit n = true ↔ ∃ d ∈ seen.places, d.pos = n
  /-- Where steps lead from a visited place was visited before it. -/
  closed : ∀ d ∈ seen.places, ∀ e ∈ next d, e ∈ seen.places

theorem explored_nothing (next : Cursor → List Cursor) (c : Cursor) : Explored next c {} where
  ahead _ hd := absurd hd List.not_mem_nil
  marked n := by simp
  closed _ hd := absurd hd List.not_mem_nil

/-- A place whose position is marked was visited. -/
theorem Explored.mem_of_marked (h : Explored next c seen) (ahead : c.Ahead d)
    (marked : seen.marks.testBit d.pos = true) : d ∈ seen.places := by
  obtain ⟨e, he, pos⟩ := (h.marked d.pos).mp marked
  exact (h.ahead e he).eq_of_pos ahead pos ▸ he

/-- A place joins the visited ones after all that its steps lead to. -/
theorem Explored.cons (h : Explored next c seen) (ahead : c.Ahead d)
    (before : ∀ e ∈ next d, e ∈ seen.places) :
    Explored next c { marks := seen.marks ||| 1 <<< d.pos, places := d :: seen.places } where
  ahead := List.forall_mem_cons.mpr ⟨ahead, h.ahead⟩
  marked n := by
    have bit : (1 <<< d.pos).testBit n = true ↔ d.pos = n := by
      rw [Nat.one_shiftLeft, Nat.testBit_two_pow, decide_eq_true_iff]
    simp only [Nat.testBit_or, Bool.or_eq_true, bit, h.marked, List.mem_cons, exists_eq_or_imp,
      or_comm]
  closed := by
    refine List.forall_mem_cons.mpr ⟨fun e he => ?_, fun d' hd' e he => ?_⟩
    · exact List.mem_cons_of_mem d (before e he)
    · exact List.mem_cons_of_mem d (h.closed d' hd' e he)

/-- What visiting the places `ds` makes of the places visited before. -/
structure Finds (next : Cursor → List Cursor) (c : Cursor) (seen : Visited) (ds : List Cursor)
    (seen' : Visited) : Prop where
  explored : Explored next c seen'
  kept : seen.places ⊆ seen'.places
  found : ds ⊆ seen'.places

theorem finds_foldl {f : Visited → Cursor → Visited}
    (step : ∀ seen, Explored next c seen → ∀ d ∈ ds, Finds next c seen [d] (f seen d))
    (h : Explored next c seen) : Finds next c seen ds (ds.foldl f seen) := by
  induction ds generalizing seen with
  | nil => exact ⟨h, fun _ he => he, List.nil_subset _⟩
  | cons d ds ih =>
    have first : Finds next c seen [d] (f seen d) := step seen h d List.mem_cons_self
    have others : Finds next c (f seen d) ds (ds.foldl f (f seen d)) :=
      ih (fun seen h e he => step seen h e (List.mem_cons_of_mem d he)) first.explored
    refine ⟨others.explored, fun e he => others.kept (first.kept he), ?_⟩
    exact List.cons_subset.mpr ⟨others.kept (first.found List.mem_cons_self), others.found⟩

/-- **With enough fuel a visit finds its place**, and all that its steps lead to before. -/
theorem finds_visit (forward : Forward next c) (fuel : Nat) (h : Explored next c seen)
    (ahead : c.Ahead d) (enough : d.rest.length < fuel) :
    Finds next c seen [d] (visit next fuel seen d) := by
  induction fuel generalizing seen d with
  | zero => exact absurd enough (Nat.not_lt_zero _)
  | succ fuel ih =>
    rw [visit]
    split
    · rename_i marked
      exact ⟨h, fun _ he => he, List.cons_subset.mpr ⟨h.mem_of_marked ahead marked,
        List.nil_subset _⟩⟩
    · -- Each step goes forward, so less text is left behind it and the fuel lasts.
      have inner : Finds next c seen (next d) ((next d).foldl (visit next fuel) seen) := by
        refine finds_foldl (fun seen h e he => ?_) h
        obtain ⟨ahead', later⟩ := forward d ahead e he
        have : d.pos + d.rest.length = e.pos + e.rest.length :=
          ahead.pos_add_length.trans ahead'.pos_add_length.symm
        exact ih h ahead' (by omega)
      exact ⟨inner.explored.cons ahead fun e he => inner.found he,
        fun e he => List.mem_cons_of_mem d (inner.kept he),
        List.cons_subset.mpr ⟨List.mem_cons_self, List.nil_subset _⟩⟩

/-! ## The ends of a repetition -/

/-- The steps that go forward. -/
def later (next : Cursor → List Cursor) (d : Cursor) : List Cursor :=
  (next d).filter (d.pos < ·.pos)

/-- One forward match of the pattern. -/
def Advances (p : Pattern) (c d : Cursor) : Prop := d ∈ p.ends c ∧ c.pos < d.pos

theorem mem_later_ends : e ∈ later p.ends d ↔ p.Advances d e := by
  rw [later, List.mem_filter, decide_eq_true_iff, Advances]

theorem forward_later_ends (p : Pattern) (c : Cursor) : Forward (later p.ends) c := by
  intro d ahead e he
  obtain ⟨step, forward⟩ := mem_later_ends.mp he
  exact ⟨ahead.trans (ahead_of_mem_ends step), forward⟩

/-- **A repetition ends where one or more forward matches lead, and nowhere else.** -/
theorem mem_ends_plus : d ∈ (plus p).ends c ↔ Relation.TransGen p.Advances c d := by
  rw [ends, repeated, List.mem_reverse]
  change d ∈ ((later p.ends c).foldl (visit (later p.ends) c.rest.length) {}).places ↔ _
  constructor
  · intro h
    have steps : Relation.ReflTransGen (Steps (later p.ends)) ≤ Relation.ReflTransGen p.Advances :=
      Relation.ReflTransGen.mono fun _ _ => mem_later_ends.mp
    rcases mem_foldl_visit (mem_visit c.rest.length) _ _ h with h | ⟨e, he, path⟩
    · exact absurd h List.not_mem_nil
    · exact .head' (mem_later_ends.mp he) (steps _ _ path)
  · have all : Finds (later p.ends) c {} (later p.ends c)
        ((later p.ends c).foldl (visit (later p.ends) c.rest.length) {}) := by
      refine finds_foldl (fun seen h e he => ?_) (explored_nothing _ c)
      obtain ⟨ahead, forward⟩ := forward_later_ends p c c (.refl c) e he
      have := ahead.pos_add_length
      exact finds_visit (forward_later_ends p c) _ h ahead (by omega)
    intro path
    induction path with
    | single step => exact all.found (mem_later_ends.mpr step)
    | tail _ step ih => exact all.explored.closed _ ih _ (mem_later_ends.mpr step)

/-- **A repetition matches texts in a row that its pattern spells.** -/
theorem mem_ends_plus_of_spells (h : p.placeless = true) {parts : List (List Char)}
    (some : parts ≠ []) (spells : ∀ s ∈ parts, p.Spells s ∧ s ≠ []) (pos : Nat)
    (prev : Option Char) (t : List Char) :
    ⟨pos + parts.flatten.length, parts.flatten.getLast?.or prev, t⟩ ∈
      (plus p).ends ⟨pos, prev, parts.flatten ++ t⟩ := by
  rw [mem_ends_plus]
  induction parts generalizing pos prev with
  | nil => exact absurd rfl some
  | cons s parts ih =>
    obtain ⟨⟨spell, full⟩, spells⟩ := List.forall_mem_cons.mp spells
    have first : p.Advances ⟨pos, prev, s ++ (parts.flatten ++ t)⟩
        ⟨pos + s.length, s.getLast?.or prev, parts.flatten ++ t⟩ :=
      ⟨mem_ends_of_spells h spell pos prev _,
        Nat.lt_add_of_pos_right (List.length_pos_iff.mpr full)⟩
    rw [List.flatten_cons, List.append_assoc, ← behind_append]
    cases parts with
    | nil => exact .single first
    | cons s' parts => exact .head first (ih (List.cons_ne_nil s' parts) spells _ _)

/-! ## Patterns in a row -/

/-- A match starts in front of the text, whatever stands before it. -/
def Begins (p : Pattern) (t : List Char) : Prop := ∀ pos prev, p.ends ⟨pos, prev, t⟩ ≠ []

theorem begins_stop : stop.Begins [] := fun _ _ => List.cons_ne_nil _ _

variable {q : Pattern} {s t : List Char}

/-- A text that the first pattern spells stands in front of one that the second matches. -/
theorem Begins.seq (next : q.Begins t) (h : p.placeless = true) (spells : p.Spells s) :
    (seq p q).Begins (s ++ t) := by
  intro pos prev
  obtain ⟨d, hd⟩ := List.exists_mem_of_ne_nil _ (next (pos + s.length) (s.getLast?.or prev))
  exact List.ne_nil_of_mem (mem_ends_seq.mpr ⟨_, mem_ends_of_spells h spells pos prev t, hd⟩)

theorem Begins.plus_seq (next : q.Begins t) (h : p.placeless = true) {parts : List (List Char)}
    (some : parts ≠ []) (spells : ∀ s ∈ parts, p.Spells s ∧ s ≠ []) :
    (Pattern.seq (plus p) q).Begins (parts.flatten ++ t) := by
  intro pos prev
  obtain ⟨d, hd⟩ := List.exists_mem_of_ne_nil _
    (next (pos + parts.flatten.length) (parts.flatten.getLast?.or prev))
  exact List.ne_nil_of_mem
    (mem_ends_seq.mpr ⟨_, mem_ends_plus_of_spells h some spells pos prev t, hd⟩)

/-- **A pattern that starts at the start occurs in a text in front of which it matches.** -/
theorem Begins.occursIn (h : p.Begins t) : (Pattern.seq start p).occursIn t = true := by
  obtain ⟨d, hd⟩ := List.exists_mem_of_ne_nil _ (h 0 none)
  have found : d ∈ (Pattern.seq start p).ends ⟨0, none, t⟩ :=
    mem_ends_seq.mpr ⟨_, mem_ends_start.mpr ⟨rfl, rfl⟩, hd⟩
  exact @occursIn_of_mem_ends _ [] _ (List.ne_nil_of_mem found)

end Pattern

end BoundSql
