import BoundSql.Proofs.Redaction.Secrets

/-!
# Numbers masked around a value

A `Frame` is what stands around the value of an assignment: it ends no word in front of the key, the
value is fenced, and the digits of the value are no part of a number that goes on behind it. Main
statement: masking numbers leaves a frame around some value, and the frame depends on that around
the old value only (`Frame.exists_replaceAll_eq`).
-/

namespace BoundSql

open Text

namespace Redaction

open Pattern

variable {n : Pattern} {c : Cursor} {k mark p s u v : List Char} {x : Char} {segs : List Segment}
  {f : List Char → List Char}

/-! ## Frames -/

/-- The text before a key, the key, and the text behind the value. -/
structure Frame (p k s : List Char) : Prop where
  before : Bare p.getLast?
  key : secretKey.Spells k
  fenced : Fenced s
  ungrouped : ∀ t, s = ' ' :: t → ∀ x ∈ t.head?, isDecimalDigit x = false

/-- The frame that starts further on. -/
theorem Frame.of_append (h : Frame (u ++ p) k s) : Frame p k s := by
  refine ⟨fun x hx => h.before x ?_, h.key, h.fenced, h.ungrouped⟩
  rw [List.getLast?_append, Option.mem_def.mp hx]
  rfl

/-- The text with a value in the frame. -/
def framed (p k v s : List Char) : List Char := p ++ (k ++ '=' :: (v ++ s))

theorem not_isDecimalDigit_of_delimiter (h : delimiter.has x = true) : isDecimalDigit x = false :=
  not_isDecimalDigit_of_isWordChar (not_isWordChar_of_delimiter h)

/-! ## Masked numbers around the value -/

/-- Where no digit stands first, a text with its numbers masked starts as it did. -/
theorem NumberPattern.head?_rewritten (hn : NumberPattern n) (h : n.Segmented c segs)
    (first : ∀ x ∈ c.rest.head?, isDecimalDigit x = false) :
    (segs.flatMap (·.rewritten f)).head? = c.rest.head? := by
  rw [← h.spell_eq] at first ⊢
  cases segs with
  | nil => rfl
  | cons seg segs =>
    cases seg with
    | plain x => rfl
    | hit s =>
      obtain ⟨x, t, rfl, digit, -⟩ := hn.number s (h.spells_of_mem List.mem_cons_self)
      rw [first x rfl] at digit
      cases digit

/-- Where no digit stands first, no number does. -/
theorem NumberPattern.ends_eq_nil (hn : NumberPattern n)
    (first : ∀ x ∈ c.rest.head?, isDecimalDigit x = false) : n.ends c = [] := by
  refine List.eq_nil_iff_forall_not_mem.mpr fun d hd => ?_
  obtain ⟨s, spells, rest, -⟩ := exists_spells_of_mem_ends hd
  obtain ⟨x, t, rfl, digit, -⟩ := hn.number s spells
  rw [first x (by rw [rest]; rfl)] at digit
  cases digit

/-- Behind a word that ends, a text with its numbers masked ends one as well. -/
theorem NumberPattern.bare_rewritten (hn : NumberPattern n)
    (numbers : ∀ s, .hit s ∈ segs → n.Spells s)
    (bare : Bare (segs.flatMap Segment.text).getLast?) :
    Bare (segs.flatMap (·.rewritten f)).getLast? := by
  rcases List.eq_nil_or_concat' segs with rfl | ⟨segs, seg, rfl⟩
  · exact bare
  · cases seg with
    | plain y => simpa [Segment.text, Segment.rewritten] using bare
    | hit s =>
      obtain ⟨z, last, digit⟩ := (hn.number s (numbers s (by simp))).getLast?
      have nonword : isWordChar z = false := by
        refine bare z ?_
        rw [List.flatMap_append, List.flatMap_singleton, Segment.text, List.getLast?_append, last]
        rfl
      rw [isWordChar_of_isDecimalDigit digit] at nonword
      cases nonword

/-- A value with marks in place of matches is one. -/
theorem valued_rewritten (hmark : Valued mark) (h : Valued (segs.flatMap Segment.text)) :
    Valued (segs.flatMap (·.rewritten fun _ => mark)) := by
  refine ⟨fun empty => h.1 ?_, fun x hx => ?_⟩
  · cases segs with
    | nil => rfl
    | cons seg segs =>
      have none := (List.append_eq_nil_iff.mp empty).1
      cases seg with
      | plain x => cases none
      | hit s => exact absurd none hmark.1
  · obtain ⟨seg, hseg, hx⟩ := List.mem_flatMap.mp hx
    cases seg with
    | plain y => exact h.2 x (List.mem_flatMap.mpr ⟨_, hseg, hx⟩)
    | hit s => exact hmark.2 x hx

namespace Frame

/-- What stands before the value with its numbers masked. -/
theorem exists_before (h : Frame p k s) (hn : NumberPattern n) (mark : List Char) :
    ∃ segs p', n.Segmented (.start (p ++ (k ++ ['=']))) segs ∧ Bare p'.getLast? ∧
      segs.flatMap (·.rewritten fun _ => mark) = p' ++ (k ++ ['=']) := by
  have segmented := segmented_segments hn.full (p ++ (k ++ ['=']))
  have others : ∀ x ∈ k ++ ['='], numberPart.has x = false :=
    List.forall_mem_append.mpr
      ⟨not_numberPart_of_secretKey h.key, forall_mem_of_all (by decide)⟩
  -- No number stands across the start of the key, and none within.
  obtain ⟨before, behind, eq, spell, rest⟩ := segmented.split fun u v _ hv _ nonempty spells => by
    obtain ⟨x, v, rfl⟩ := List.exists_cons_of_ne_nil nonempty
    have part := (hn.number _ spells).grouped.forall_mem x
      (List.mem_append_right u List.mem_cons_self)
    rw [others x (hv.subset List.mem_cons_self)] at part
    cases part
  have plain : behind = (k ++ ['=']).map .plain :=
    rest.eq_map_plain fun x hx => hn.avoids x (others x hx)
  refine ⟨_, before.flatMap (·.rewritten fun _ => mark), segmented, ?_, ?_⟩
  · refine hn.bare_rewritten (fun s hs => segmented.spells_of_mem ?_) (spell ▸ h.before)
    exact eq ▸ List.mem_append_left behind hs
  · rw [eq, List.flatMap_append, plain, rewritten_map_plain]

/-- The value with its numbers masked, and what stands behind it. -/
theorem exists_value (h : Frame p k s) (hn : NumberPattern n) (hmark : Valued mark) (hv : Valued v)
    (pos : Nat) (prev : Option Char) :
    ∃ segs v', n.Segmented ⟨pos, prev, v ++ s⟩ segs ∧ Valued v' ∧
      segs.flatMap (·.rewritten fun _ => mark) =
        v' ++ (n.segmentsFrom 0 none 0 s).flatMap (·.rewritten fun _ => mark) := by
  have segmented := segmented_segmentsFrom hn.full pos prev (v ++ s)
  -- A number across the end of the value would go on with a space and a digit.
  obtain ⟨before, behind, eq, spell, rest⟩ := segmented.split fun u w _ hw _ nonempty spells => by
    obtain ⟨x, w, rfl⟩ := List.exists_cons_of_ne_nil nonempty
    obtain ⟨t, rfl⟩ := hw
    have grouped := (hn.number _ spells).grouped
    have delimits : delimiter.has x = true := h.fenced x rfl
    have nondigit : isDecimalDigit x = false := not_isDecimalDigit_of_delimiter delimits
    obtain ⟨y, next, digit⟩ := grouped.digit_of_append nondigit
    have part := grouped.forall_mem x (List.mem_append_right u List.mem_cons_self)
    have separator : x ∈ [' ', '-'] :=
      List.contains_iff_mem.mp ((Bool.or_eq_true_iff.mp part).resolve_left
        (Bool.eq_false_iff.mp nondigit))
    rcases List.mem_cons.mp separator with rfl | hyphen
    · have nondigit' := h.ungrouped (w ++ t) rfl y (by rw [List.head?_append, next]; rfl)
      rw [nondigit'] at digit
      cases digit
    · rw [List.mem_singleton.mp hyphen] at delimits
      exact absurd delimits (by decide)
  have none : s ≠ [] → ∀ pos prev, n.ends ⟨pos, prev, s⟩ = [] := fun _ _ _ =>
    hn.ends_eq_nil fun x hx => not_isDecimalDigit_of_delimiter (h.fenced x hx)
  refine ⟨_, before.flatMap (·.rewritten fun _ => mark), segmented,
    valued_rewritten hmark (spell ▸ hv), ?_⟩
  rw [eq, List.flatMap_append, ← rest.segmentsFrom_eq,
    segmentsFrom_eq_of_ends_nil hn.simple hn.full none _ 0 _ Option.none]

/-- What stands behind the value with its numbers masked. -/
theorem behind (h : Frame p k s) (hn : NumberPattern n) (mark : List Char) :
    Fenced ((n.segmentsFrom 0 none 0 s).flatMap (·.rewritten fun _ => mark)) ∧
    ∀ t, (n.segmentsFrom 0 none 0 s).flatMap (·.rewritten fun _ => mark) = ' ' :: t →
      ∀ x ∈ t.head?, isDecimalDigit x = false := by
  have nondigit : ∀ x ∈ s.head?, isDecimalDigit x = false := fun x hx =>
    not_isDecimalDigit_of_delimiter (h.fenced x hx)
  constructor
  · rw [Fenced, hn.head?_rewritten (segmented_segmentsFrom hn.full 0 none s) nondigit]
    exact h.fenced
  · intro t ht
    cases s with
    | nil =>
      rw [segmentsFrom_nil] at ht
      cases ht
    | cons y s =>
      rw [segmentsFrom_of_ends_nil (hn.ends_eq_nil nondigit), List.flatMap_cons, Segment.rewritten,
        List.singleton_append, List.cons.injEq] at ht
      obtain ⟨rfl, rfl⟩ := ht
      rw [hn.head?_rewritten (segmented_segmentsFrom hn.full _ _ s) (h.ungrouped s rfl)]
      exact h.ungrouped s rfl

/-- **Masking numbers leaves a frame around some value**, which is the same for all values. -/
theorem exists_replaceAll_eq (h : Frame p k s) (hn : NumberPattern n) (hmark : Valued mark) :
    ∃ p' s', Frame p' k s' ∧ ∀ v, Valued v → ∃ v', Valued v' ∧
      n.replaceAll (fun _ => mark) (framed p k v s) = framed p' k v' s' := by
  obtain ⟨segs, p', segmented, before, eq⟩ := h.exists_before hn mark
  obtain ⟨fenced, ungrouped⟩ := h.behind hn mark
  refine ⟨p', _, ⟨before, h.key, fenced, ungrouped⟩, fun v hv => ?_⟩
  obtain ⟨segs', v', segmented', hv', eq'⟩ := h.exists_value hn hmark hv
    (0 + 0 + (p ++ (k ++ ['='])).length) (some '=')
  refine ⟨v', hv', ?_⟩
  have last : (p ++ (k ++ ['='])).getLast? = some '=' := by simp
  have whole : p ++ (k ++ ['=']) ++ (v ++ s) = framed p k v s := by simp [framed]
  -- No number stands across the equals sign.
  have shield : ∀ x ∈ (p ++ (k ++ ['='])).getLast?, n.Avoids x := fun x hx =>
    hn.avoids x (Option.some.inj (last.symm.trans hx) ▸ by decide)
  have joined := segmented.append hn.simple 0 (t := v ++ s) (.inr shield) (by
    rw [Cursor.start, last]
    exact segmented')
  rw [Cursor.moved, Cursor.start, whole] at joined
  rw [replaceAll, segments, joined.segmentsFrom_eq, List.flatMap_append, eq, eq']
  simp [framed]

end Frame

end Redaction

end BoundSql
