import BoundSql.Proofs.Redaction.Secrets

/-!
# Redaction is complete

After redaction no card number and no social security number occurs, the assignments of secrets
that are found are the concealed ones, and redaction changes nothing any more. No replacement undoes
an earlier one, since what it puts in place masks numbers (`Masks`); and the segments of a text with
its assignments concealed are the concealed segments (`segmented_concealed`), so a replacement
neither opens an assignment nor takes one apart.

Headline: **`forLog_complete`**.
-/

namespace BoundSql

open Text

namespace Segment

/-- The segment with `f` applied to a match. -/
def replaced (f : List Char → List Char) : Segment → Segment
  | plain c => plain c
  | hit s => hit (f s)

end Segment

namespace Redaction

open Pattern

variable {c : Cursor} {k o s t u w : List Char} {x : Char} {segs : List Segment}
  {text : List Char}

/-! ## Concealed assignments -/

/-- A concealed assignment starts as the assignment does, with a letter. -/
theorem exists_head?_of_mem (h : secret.Segmented c segs) (hs : .hit s ∈ segs) :
    ∃ x, isWordChar x = true ∧ s.head? = some x ∧ (concealed s).head? = some x := by
  obtain ⟨k, o, v, ho, -, rfl⟩ := exists_opens_of_spells (h.spells_of_mem hs)
  rw [concealed_append ho]
  obtain ⟨key, u, w, -, -, rfl⟩ := ho
  obtain ⟨x, k, rfl⟩ := List.exists_cons_of_ne_nil (ne_nil_of_secretKey key)
  exact ⟨x, isWordChar_of_secretKey key x List.mem_cons_self, rfl, rfl⟩

/-- A text with its assignments concealed starts as it did. -/
theorem head?_rewritten (h : secret.Segmented c segs) :
    (segs.flatMap (·.rewritten concealed)).head? = c.rest.head? := by
  rw [← h.spell_eq]
  cases segs with
  | nil => rfl
  | cons seg segs =>
    cases seg with
    | plain x => rfl
    | hit s =>
      obtain ⟨x, -, head, head'⟩ := exists_head?_of_mem h List.mem_cons_self
      rw [List.flatMap_cons, List.flatMap_cons, List.head?_append, List.head?_append,
        Segment.rewritten, Segment.text, head, head', Option.some_or, Option.some_or]

/-- In front of a letter that opens an assignment the text is the same. -/
theorem prev_eq_of_word {prev prev' : Option Char} (same : prev = prev' ∨ Fenced t)
    (hx : x ∈ t.head?) (word : isWordChar x = true) : prev = prev' := by
  refine same.resolve_right fun fenced => ?_
  rw [not_isWordChar_of_delimiter (fenced x hx)] at word
  cases word

/-- No concealed assignment starts inside of what opens one. -/
theorem not_opens_of_hit (h : secret.Segmented c (u.map .plain ++ .hit s :: segs)) (hu : u ≠ [])
    (hw : w ≠ []) (mark : concealed s ++ segs.flatMap (·.rewritten concealed) = w ++ t) :
    ¬ Opens k (u ++ w) := by
  intro ho
  obtain ⟨z, word, -, head⟩ := exists_head?_of_mem h (List.mem_append_right _ List.mem_cons_self)
  obtain ⟨y, w, rfl⟩ := List.exists_cons_of_ne_nil hw
  obtain rfl : y = z := by
    have := congrArg List.head? mark
    rw [List.head?_append, head] at this
    exact (Option.some.inj this).symm
  obtain ⟨l, last, word'⟩ := ho.exists_getLast? hu word
  have nonword : isWordChar l = false := by
    refine (masks_secret.bare_of_hit h).1 l ?_
    rw [spell_map_plain, last]
    rfl
  rw [nonword] at word'
  cases word'

/-- **Concealing what follows opens no assignment.** -/
theorem ends_nil_of_concealed {pos' : Nat} {prev prev' : Option Char}
    (h : secret.Segmented ⟨pos', prev', x :: t⟩ (.plain x :: segs)) (pos : Nat)
    (same : prev = prev' ∨ Fenced (x :: t)) :
    secret.ends ⟨pos, prev, x :: segs.flatMap (·.rewritten concealed)⟩ = [] := by
  refine List.eq_nil_iff_forall_not_mem.mpr fun d hd => ?_
  have before : Bare prev := bare_of_mem_ends_secret hd
  obtain ⟨s, spells, rest, -⟩ := exists_spells_of_mem_ends hd
  obtain ⟨k, o, v, ho, ⟨nonempty, valued⟩, rfl⟩ := exists_opens_of_spells spells
  have split : (Segment.plain x :: segs).flatMap (·.rewritten concealed) = o ++ (v ++ d.rest) := by
    rw [← List.append_assoc, ← rest]
    rfl
  obtain rfl : prev = prev' := by
    obtain ⟨y, hy, word⟩ := ho.exists_head? (v ++ d.rest)
    rw [← split] at hy
    exact prev_eq_of_word same hy word
  rcases plain_or_hit_of_rewritten split with
    ⟨behind, segs_eq, value⟩ | ⟨u, w, s, behind, rfl, hw, segs_eq, mark⟩
  · -- The text opens the same assignment, and goes on as the concealed one does.
    have none : secret.ends ⟨pos', prev, x :: t⟩ = [] := h.of_plain_cons.1
    have spell := h.spell_eq
    rw [segs_eq] at h spell
    rw [List.flatMap_append, spell_map_plain] at spell
    change _ = x :: t at spell
    refine ends_secret_ne_nil ho ?_ pos' before (spell ▸ none)
    rw [← head?_rewritten h.drop, value]
    obtain ⟨y, v, rfl⟩ := List.exists_cons_of_ne_nil nonempty
    exact ⟨y, rfl, valued y List.mem_cons_self⟩
  · have outside : u ≠ [] := by
      rintro rfl
      cases segs_eq
    rw [segs_eq] at h
    exact not_opens_of_hit h outside hw mark ho

/-- **The concealed segments are segments again**, also where another mark stands in front of a
fenced text. -/
theorem segmented_concealed (h : secret.Segmented c segs) (pos : Nat) {prev : Option Char}
    (same : prev = c.prev ∨ Fenced c.rest) :
    secret.Segmented ⟨pos, prev, segs.flatMap (·.rewritten concealed)⟩
      (segs.map (·.replaced concealed)) := by
  induction h generalizing pos prev with
  | nil => exact .nil pos prev
  | plain none rest ih =>
    exact .plain (ends_nil_of_concealed (.plain none rest) pos same) (ih (pos + 1) (.inl rfl))
  | @hit pos' prev' s t segs full first rest ih =>
    obtain ⟨before, behind, k, o, v, ho, hv, split⟩ := exists_of_head?_ends_secret first
    rw [← List.append_assoc] at split
    obtain rfl : s = o ++ v := List.append_cancel_right split
    obtain rfl : prev = prev' := by
      obtain ⟨x, hx, word⟩ := ho.exists_head? (v ++ t)
      rw [← List.append_assoc] at hx
      exact prev_eq_of_word same hx word
    have fenced : Fenced (segs.flatMap (·.rewritten concealed)) := by
      rw [Fenced, head?_rewritten rest]
      exact behind
    have mark : Valued secretMark.toList := ⟨by decide, forall_mem_of_all (by decide)⟩
    have first' := head?_ends_secret (Opens.of_key ho.1) mark pos before fenced
    rw [List.map_cons, List.flatMap_cons, Segment.replaced, Segment.rewritten, concealed_append ho]
    rw [← List.append_assoc, List.append_assoc k, List.singleton_append] at first'
    exact .hit (by simp) first' (ih _ (.inr behind))

/-! ## The redacted text -/

/-- **The segments of a text with its assignments concealed are the concealed segments.** -/
theorem segments_replaceAll_concealed (text : List Char) :
    secret.segments (secret.replaceAll concealed text) =
      (secret.segments text).map (·.replaced concealed) :=
  (segmented_concealed (segmented_segments not_spells_secret_nil text) 0
    (.inl rfl)).segmentsFrom_eq

/-- What a concealed assignment comes to. -/
theorem exists_key_of_mem (h : secret.Segmented c segs) (hs : .hit s ∈ segs) :
    ∃ k, secretKey.Spells k ∧ concealed s = k ++ '=' :: secretMark.toList := by
  obtain ⟨k, o, v, ho, -, rfl⟩ := exists_opens_of_spells (h.spells_of_mem hs)
  exact ⟨k, ho.1, concealed_append ho v⟩

/-- **All assignments that are found are concealed.** -/
theorem exists_key_of_mem_matchesIn (h : s ∈ secret.matchesIn (secret.replaceAll concealed text)) :
    ∃ k, secretKey.Spells k ∧ s = k ++ '=' :: secretMark.toList := by
  rw [matchesIn, segments_replaceAll_concealed, List.filterMap_map] at h
  obtain ⟨seg, hseg, found⟩ := List.mem_filterMap.mp h
  cases seg with
  | plain x => cases found
  | hit s' =>
    obtain rfl := Option.some.inj found
    exact exists_key_of_mem (segmented_segments not_spells_secret_nil text) hseg

/-- **Concealing assignments a second time changes nothing.** -/
theorem replaceAll_concealed_idem (text : List Char) :
    secret.replaceAll concealed (secret.replaceAll concealed text) =
      secret.replaceAll concealed text := by
  have again : ∀ seg ∈ secret.segments text,
      (seg.replaced concealed).rewritten concealed = seg.rewritten concealed := by
    intro seg hseg
    cases seg with
    | plain x => rfl
    | hit s =>
      obtain ⟨k, key, eq⟩ :=
        exists_key_of_mem (segmented_segments not_spells_secret_nil text) hseg
      have same := concealed_append (Opens.of_key key) secretMark.toList
      rw [List.append_assoc, List.singleton_append] at same
      rw [Segment.replaced, Segment.rewritten, Segment.rewritten, eq, same]
  rw [replaceAll, segments_replaceAll_concealed, List.flatMap_map, List.flatMap_congr again]
  rfl

theorem card_redact (text : List Char) : card.occursIn (redact text) = false := by
  have cards : card.occursIn (card.replaceAll (fun _ => cardMark.toList) text) = false :=
    not_occursIn_replaceAll numberPattern_card masks_card (.inl rfl)
  exact not_occursIn_replaceAll numberPattern_card masks_secret
    (.inr (not_occursIn_replaceAll numberPattern_card masks_ssn (.inr cards)))

theorem ssn_redact (text : List Char) : ssn.occursIn (redact text) = false :=
  not_occursIn_replaceAll numberPattern_ssn masks_secret
    (.inr (not_occursIn_replaceAll numberPattern_ssn masks_ssn (.inl rfl)))

/-- **Redacting a second time changes nothing.** -/
theorem redact_idem (text : List Char) : redact (redact text) = redact text := by
  have cards : card.replaceAll (fun _ => cardMark.toList) (redact text) = redact text :=
    replaceAll_of_not_occursIn numberPattern_card.full (card_redact text)
  have ssns : ssn.replaceAll (fun _ => ssnMark.toList) (redact text) = redact text :=
    replaceAll_of_not_occursIn numberPattern_ssn.full (ssn_redact text)
  calc redact (redact text)
      = secret.replaceAll concealed (ssn.replaceAll (fun _ => ssnMark.toList)
          (card.replaceAll (fun _ => cardMark.toList) (redact text))) := rfl
    _ = secret.replaceAll concealed (redact text) := by rw [cards, ssns]
    _ = redact text := replaceAll_concealed_idem _

/-- **Redaction for a log is complete.** Where the redacted text is not cut, it holds no card number
and no social security number, all assignments of secrets found in it are a key, an equals sign and
the mark, and no more is redacted or cut a second time, with the same cap or a larger one. -/
theorem forLog_complete (text : String) (cap : Nat) (uncut : (redact text.toList).length ≤ cap) :
    card.occursIn (forLog cap text).toList = false ∧
    ssn.occursIn (forLog cap text).toList = false ∧
    (∀ m ∈ secret.matchesIn (forLog cap text).toList,
      ∃ key, (∃ w ∈ ["password", "passwd", "pwd"], key.map caseFold = w.toList) ∧
        m = key ++ "=[REDACTED]".toList) ∧
    ∀ cap', cap ≤ cap' → forLog cap' (forLog cap text) = forLog cap text := by
  have whole : forLog cap text = String.ofList (redact text.toList) := by
    rw [forLog, cut_of_length_le uncut]
  rw [whole, String.toList_ofList]
  refine ⟨card_redact _, ssn_redact _, fun m hm => ?_, fun cap' larger => ?_⟩
  · obtain ⟨k, key, rfl⟩ := exists_key_of_mem_matchesIn hm
    exact ⟨k, spells_keywords.mp key, rfl⟩
  · rw [forLog, String.toList_ofList, redact_idem, cut_of_length_le (Nat.le_trans uncut larger)]

/-- All three kinds in one text. -/
theorem forLog_complete_sample :
    forLog 30 "pwd= 1 4111-1111-1111-1111, 078-05-1120" = "pwd=[REDACTED], [REDACTED-SSN]" ∧
    forLog 64 "pwd=[REDACTED], [REDACTED-SSN]" = "pwd=[REDACTED], [REDACTED-SSN]" := by
  have once : forLog 30 "pwd= 1 4111-1111-1111-1111, 078-05-1120" =
      "pwd=[REDACTED], [REDACTED-SSN]" := by
    decide +kernel
  have uncut : (redact "pwd= 1 4111-1111-1111-1111, 078-05-1120".toList).length ≤ 30 := by
    decide +kernel
  obtain ⟨-, -, -, again⟩ := forLog_complete "pwd= 1 4111-1111-1111-1111, 078-05-1120" 30 uncut
  exact ⟨once, once ▸ again 64 (by decide)⟩

end Redaction

end BoundSql
