import BoundSql.Proofs.Redaction.Frame

/-!
# Secret values do not show

Two texts that differ in the value of an assignment only are redacted alike. Masking numbers leaves
them so, in one frame (`Frame.exists_replaceAll_eq`). Concealing assignments then leaves nothing of
the value, whether its own assignment is found or one that opened before and takes in all of it
(`rewritten_framed_eq`).

Headline: **`forLog_hides_secrets`**.
-/

namespace BoundSql

open Text

namespace Redaction

open Pattern

variable {k k' o p r s t v v' w : List Char} {x : Char} {d : Cursor} {pos : Nat}
  {prev : Option Char}

/-! ## Concealed values -/

/-- What opens an assignment and goes on with a key behind its end does not reach into the key. -/
theorem Opens.exists_eq_append (h : Opens k o) (hp : p ≠ []) (bare : Bare p.getLast?)
    (word : isWordChar x = true) (split : p ++ x :: s = o ++ t) : ∃ r, p = o ++ r := by
  rcases List.append_eq_append_iff.mp split with ⟨r, rfl, rest⟩ | ⟨r, rfl, -⟩
  · cases r with
    | nil => exact ⟨[], by simp⟩
    | cons y r =>
      obtain ⟨rfl, -⟩ := List.cons.inj rest
      obtain ⟨z, last, word'⟩ := h.exists_getLast? hp word
      rw [bare z last] at word'
      cases word'
  · exact ⟨r, rfl⟩

/-- The key with its equals sign and a value has no delimiters. -/
theorem plain_of_key (hk : secretKey.Spells k) (hv : Valued v) :
    ∀ x ∈ k ++ '=' :: v, delimiter.has x = false := by
  refine List.forall_mem_append.mpr ⟨fun x hx => ?_, List.forall_mem_cons.mpr ⟨by decide, hv.2⟩⟩
  exact not_delimiter_of_isWordChar (isWordChar_of_secretKey hk x hx)

/-- An assignment opens at the start of the text. -/
inductive Opened : List Char → Prop
  /-- Its value ends within the text. -/
  | closed {k o w t : List Char} (opens : Opens k o) (value : Valued w) (more : t ≠ [])
      (fenced : Fenced t) : Opened (o ++ (w ++ t))
  /-- Its value starts or goes on behind the text. -/
  | unclosed {k o r : List Char} (opens : Opens k o) (plain : ∀ x ∈ r, delimiter.has x = false) :
      Opened (o ++ r)

/-- **What matches before the key is opened there.** -/
theorem Frame.opened (h : Frame p k s) (hp : p ≠ [])
    (first : (secret.ends ⟨pos, prev, framed p k v s⟩).head? = some d) : Bare prev ∧ Opened p := by
  obtain ⟨before, fenced, k', o, w, ho, hw, split⟩ := exists_of_head?_ends_secret first
  obtain ⟨x, key, rfl⟩ := List.exists_cons_of_ne_nil (ne_nil_of_secretKey h.key)
  have word : isWordChar x = true := isWordChar_of_secretKey h.key x List.mem_cons_self
  obtain ⟨r, rfl⟩ := ho.exists_eq_append hp h.before word split
  refine ⟨before, ?_⟩
  have rest : r ++ (x :: key ++ '=' :: (v ++ s)) = w ++ d.rest :=
    List.append_cancel_left ((List.append_assoc ..).symm.trans split)
  rcases List.append_eq_append_iff.mp rest with ⟨t, rfl, -⟩ | ⟨t, rfl, behind⟩
  · exact .unclosed ho fun y hy => hw.2 y (List.mem_append_left t hy)
  · cases t with
    | nil => exact .unclosed ho (by simpa using hw.2)
    | cons y t =>
      rw [behind] at fenced
      exact .closed ho hw (List.cons_ne_nil y t) fenced

/-- No assignment starts with a delimiter. -/
theorem ends_secret_eq_nil (h : Fenced s) (pos : Nat) (prev : Option Char) :
    secret.ends ⟨pos, prev, s⟩ = [] := by
  refine List.eq_nil_iff_forall_not_mem.mpr fun d hd => ?_
  obtain ⟨t, spells, rest, -⟩ := exists_spells_of_mem_ends hd
  obtain ⟨k, o, v, ho, -, rfl⟩ := exists_opens_of_spells spells
  obtain ⟨x, hx, word⟩ := ho.exists_head? (v ++ d.rest)
  rw [← List.append_assoc, ← rest] at hx
  rw [not_isWordChar_of_delimiter (h x hx)] at word
  cases word

/-- **An assignment gives way to its key and the mark**, and what follows is concealed by itself. -/
theorem rewritten_of_opens (ho : Opens k o) (hw : Valued w) (ht : Fenced t) (pos : Nat)
    (before : Bare prev) :
    (secret.segmentsFrom pos prev 0 (o ++ (w ++ t))).flatMap (·.rewritten concealed) =
      k ++ '=' :: secretMark.toList ++ secret.replaceAll concealed t := by
  have first := head?_ends_secret ho hw pos before ht
  rw [← List.append_assoc] at first ⊢
  rw [segmentsFrom_of_head?_ends (fun empty => hw.1 (List.append_eq_nil_iff.mp empty).2) first,
    List.flatMap_cons, Segment.rewritten, concealed_append ho, replaceAll, segments,
    segmentsFrom_eq_of_ends_nil rfl not_spells_secret_nil (fun _ => ends_secret_eq_nil ht) _ 0 _
      none]

/-- An assignment that opens before the key and does not end there takes in the value. -/
theorem rewritten_of_unclosed (ho : Opens k' o) (plain : ∀ x ∈ r, delimiter.has x = false)
    (key : secretKey.Spells k) (hv : Valued v) (hs : Fenced s) (pos : Nat) (before : Bare prev) :
    (secret.segmentsFrom pos prev 0 (framed (o ++ r) k v s)).flatMap (·.rewritten concealed) =
      k' ++ '=' :: secretMark.toList ++ secret.replaceAll concealed s := by
  have value : Valued (r ++ (k ++ '=' :: v)) :=
    ⟨by simp, List.forall_mem_append.mpr ⟨plain, plain_of_key key hv⟩⟩
  have split : framed (o ++ r) k v s = o ++ ((r ++ (k ++ '=' :: v)) ++ s) := by simp [framed]
  rw [split, rewritten_of_opens ho value hs pos before]

/-- **Concealing assignments leaves nothing of the value**, wherever the text stands. -/
theorem rewritten_framed_eq (h : Frame p k s) (hv : Valued v) (hv' : Valued v') (pos : Nat)
    (bare : Bare (p.getLast?.or prev)) :
    (secret.segmentsFrom pos prev 0 (framed p k v s)).flatMap (·.rewritten concealed) =
      (secret.segmentsFrom pos prev 0 (framed p k v' s)).flatMap (·.rewritten concealed) := by
  induction hn : p.length using Nat.strongRecOn generalizing p pos prev with
  | ind n ih =>
  rcases eq_or_ne p [] with rfl | hp
  · -- The assignment of the value itself.
    have at_key {v : List Char} : framed [] k v s = (k ++ ['=']) ++ (v ++ s) := by simp [framed]
    have opens : Opens k (k ++ ['=']) := .of_key h.key
    rw [List.getLast?_nil, Option.none_or] at bare
    rw [at_key, at_key, rewritten_of_opens opens hv h.fenced pos bare,
      rewritten_of_opens opens hv' h.fenced pos bare]
  by_cases opened : Bare prev ∧ Opened p
  · obtain ⟨before, opened⟩ := opened
    cases opened with
    | @closed _ o w t ho hw ht fenced =>
      have split {v : List Char} : framed (o ++ (w ++ t)) k v s = o ++ (w ++ framed t k v s) := by
        simp [framed]
      have fenced' {v : List Char} : Fenced (framed t k v s) := by
        obtain ⟨y, t, rfl⟩ := List.exists_cons_of_ne_nil ht
        exact fenced
      have shorter : t.length < n := by
        have := List.length_pos_iff.mpr hw.1
        simp only [List.length_append] at hn
        omega
      have frame : Frame t k s := by
        rw [← List.append_assoc] at h
        exact h.of_append
      rw [split, split, rewritten_of_opens ho hw fenced' pos before,
        rewritten_of_opens ho hw fenced' pos before]
      exact congrArg _ (ih _ shorter frame 0 (by rw [Option.or_none]; exact frame.before) rfl)
    | unclosed ho plain =>
      rw [rewritten_of_unclosed ho plain h.key hv h.fenced pos before,
        rewritten_of_unclosed ho plain h.key hv' h.fenced pos before]
  · -- No assignment starts with the next character.
    have none {v : List Char} : secret.ends ⟨pos, prev, framed p k v s⟩ = [] := by
      rw [← List.head?_eq_none_iff, Option.eq_none_iff_forall_ne_some]
      exact fun d first => opened (h.opened hp first)
    obtain ⟨x, p, rfl⟩ := List.exists_cons_of_ne_nil hp
    have step {v : List Char} : secret.segmentsFrom pos prev 0 (framed (x :: p) k v s) =
        .plain x :: secret.segmentsFrom (pos + 1) (some x) 0 (framed p k v s) :=
      segmentsFrom_of_ends_nil none
    rw [step, step, List.flatMap_cons, List.flatMap_cons]
    rw [← getLast?_or_cons] at bare
    exact congrArg _ (ih p.length (by simp [← hn]) (h.of_append (u := [x])) _ bare rfl)

/-- Of a value in a frame redaction leaves nothing. -/
theorem redact_framed_eq (h : Frame p k s) (hv : Valued v) (hv' : Valued v') :
    redact (framed p k v s) = redact (framed p k v' s) := by
  have valuedCard : Valued cardMark.toList := ⟨by decide, forall_mem_of_all (by decide)⟩
  have valuedSsn : Valued ssnMark.toList := ⟨by decide, forall_mem_of_all (by decide)⟩
  obtain ⟨p₁, s₁, frame₁, cards⟩ := h.exists_replaceAll_eq numberPattern_card valuedCard
  obtain ⟨p₂, s₂, frame₂, ssns⟩ := frame₁.exists_replaceAll_eq numberPattern_ssn valuedSsn
  have numbers {v : List Char} (hv : Valued v) : ∃ v₂, Valued v₂ ∧
      ssn.replaceAll (fun _ => ssnMark.toList)
        (card.replaceAll (fun _ => cardMark.toList) (framed p k v s)) = framed p₂ k v₂ s₂ := by
    obtain ⟨v₁, hv₁, eq₁⟩ := cards v hv
    obtain ⟨v₂, hv₂, eq₂⟩ := ssns v₁ hv₁
    exact ⟨v₂, hv₂, by rw [eq₁, eq₂]⟩
  obtain ⟨w, hw, eq⟩ := numbers hv
  obtain ⟨w', hw', eq'⟩ := numbers hv'
  rw [redact, redact, eq, eq']
  exact rewritten_framed_eq frame₂ hw hw' 0 (by rw [Option.or_none]; exact frame₂.before)

/-- What is a keyword but for the case of ASCII letters is a secret key. -/
theorem secretKey_of_sameButCase
    (h : ∃ w ∈ ["password", "passwd", "pwd"], SameButCase k w.toList) : secretKey.Spells k := by
  obtain ⟨w, hw, same⟩ := h
  have small : ∀ w ∈ ["password", "passwd", "pwd"], w.toList.all Char.isLower = true := by decide
  exact spells_keywords.mpr
    ⟨w, hw, map_caseFold_of_sameButCase (List.all_eq_true.mp (small w hw)) same⟩

theorem valued_of_forall {v : String}
    (h : v ≠ "" ∧ ∀ x ∈ v.toList, isWhiteSpace x = false ∧ x ∉ ['&', ';', ',']) :
    Valued v.toList := by
  refine ⟨fun empty => h.1 (String.toList_eq_nil_iff.mp empty), fun x hx => ?_⟩
  obtain ⟨space, marks⟩ := h.2 x hx
  exact Bool.or_eq_false_iff.mpr ⟨space, by simpa [List.contains_iff_mem] using marks⟩

/-- **Secret values do not show.** What a log may show of an assignment to a secret key is the same
for all values, where a word ends in front of the key and a delimiter follows the value, if anything
does, but no space with a digit behind it. -/
theorem forLog_hides_secrets (cap : Nat) (p key v v' s : String)
    (before : ∀ x ∈ p.toList.getLast?, isWordChar x = false)
    (secret : ∃ w ∈ ["password", "passwd", "pwd"], SameButCase key.toList w.toList)
    (value : v ≠ "" ∧ ∀ x ∈ v.toList, isWhiteSpace x = false ∧ x ∉ ['&', ';', ','])
    (value' : v' ≠ "" ∧ ∀ x ∈ v'.toList, isWhiteSpace x = false ∧ x ∉ ['&', ';', ','])
    (behind : ∀ x ∈ s.toList.head?, isWhiteSpace x = true ∨ x ∈ ['&', ';', ','])
    (ungrouped : ∀ t, s.toList = ' ' :: t → ∀ x ∈ t.head?, isDecimalDigit x = false) :
    forLog cap (p ++ key ++ "=" ++ v ++ s) = forLog cap (p ++ key ++ "=" ++ v' ++ s) := by
  have fenced : Fenced s.toList := fun x hx =>
    Bool.or_eq_true_iff.mpr ((behind x hx).imp_right List.contains_iff_mem.mpr)
  have frame : Frame p.toList key.toList s.toList :=
    ⟨before, secretKey_of_sameButCase secret, fenced, ungrouped⟩
  have text {v : String} : (p ++ key ++ "=" ++ v ++ s).toList =
      framed p.toList key.toList v.toList s.toList := by
    simp [framed]
  rw [forLog, forLog, text, text,
    redact_framed_eq frame (valued_of_forall value) (valued_of_forall value')]

/-- A card number and a social security number, in an assignment that another one takes in. -/
theorem forLog_hides_secrets_sample :
    forLog 20 ("pwd=x-" ++ "PassWd" ++ "=" ++ "4111111111111111" ++ "; 7, and so on") =
      forLog 20 ("pwd=x-" ++ "PassWd" ++ "=" ++ "078-05-1120" ++ "; 7, and so on") ∧
    forLog 20 "pwd=x-PassWd=078-05-1120; 7, and so on" = "pwd=[REDACTED]; 7, a...[TRUNCATED]" := by
  refine ⟨forLog_hides_secrets 20 "pwd=x-" "PassWd" _ _ "; 7, and so on" ?_
    ⟨"passwd", by decide, rfl⟩ ⟨by decide, forall_mem_of_all (by decide)⟩
    ⟨by decide, forall_mem_of_all (by decide)⟩ ?_ ?_, by decide +kernel⟩
  · rintro x ⟨⟩
    decide
  · rintro x ⟨⟩
    decide
  · intro t ht
    cases ht

end Redaction

end BoundSql
