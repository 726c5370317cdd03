import BoundSql.Proofs.Pattern.Repeated
import BoundSql.Text.Split
import BoundSql.Validation.Email

/-!
# Which texts are email addresses

The language of the validator, said by what stands on either side of the at sign (`IsAddress`). The
pattern that an address has to match says part of it once more: in a text with one at sign and
without white space it asks for a local part and for labels that are not empty
(`occursIn_format_iff`), and the lengths are left to the checks before it. Together they accept
exactly the addresses (`check_iff_isAddress`).

Headline: **`addresses_exact`**.
-/

namespace BoundSql.Email

open Pattern

/-! ## The language -/

/-- **An address**: a local part of 1 to 64 bytes, an at sign and a domain of at most 255 bytes that
dots cut into two or more labels, none of them empty. It has no other at sign and no white space. -/
structure IsAddress (address localPart domain : String) : Prop where
  parts : address = localPart ++ "@" ++ domain
  visible : ∀ x ∈ address.toList, Text.isWhiteSpace x = false
  atSigns : address.toList.count '@' = 1
  localFull : localPart ≠ ""
  localShort : localPart.utf8ByteSize ≤ 64
  domainShort : domain.utf8ByteSize ≤ 255
  dotted : 2 ≤ (Text.splitOn '.' domain.toList).length
  labels : ∀ label ∈ Text.splitOn '.' domain.toList, label ≠ []

variable {address : String} {s t before : List Char} {x : Char}

/-! ## Parts and lengths -/

/-- The bytes of a text are counted as in its UTF-8 form. -/
theorem byteLength_eq (s : List Char) : byteLength s = (String.ofList s).utf8ByteSize := by
  induction s with
  | nil => rfl
  | cons c s ih =>
    rw [← List.singleton_append, String.ofList_append, String.utf8ByteSize_append, ← ih,
      ← String.singleton_eq_ofList, String.utf8ByteSize_singleton]
    rfl

theorem byteLength_toList (s : String) : byteLength s.toList = s.utf8ByteSize := by
  rw [byteLength_eq, String.ofList_toList]

theorem count_eq_one_iff : (before ++ '@' :: t).count '@' = 1 ↔ '@' ∉ before ∧ '@' ∉ t := by
  rw [List.count_append, List.count_cons_self, ← List.count_eq_zero, ← List.count_eq_zero]
  omega

/-- A text with one at sign is cut there. -/
theorem exists_cut (h : s.count '@' = 1) :
    ∃ before t, s = before ++ '@' :: t ∧ '@' ∉ before ∧ '@' ∉ t := by
  obtain ⟨before, t, rfl⟩ := List.append_of_mem (List.count_pos_iff.mp (h ▸ Nat.one_pos))
  exact ⟨before, t, rfl, count_eq_one_iff.mp h⟩

theorem localPart_append (h : '@' ∉ before) : localPart (before ++ '@' :: t) = before := by
  have goesOn : ∀ x ∈ before, (x != '@') = true := fun x hx => bne_iff_ne.mpr fun e => h (e ▸ hx)
  rw [localPart, List.takeWhile_append_of_pos goesOn]
  exact List.append_nil before

theorem domain_append (h : '@' ∉ before) : domain (before ++ '@' :: t) = t := by
  have goesOn : ∀ x ∈ before, (x != '@') = true := fun x hx => bne_iff_ne.mpr fun e => h (e ▸ hx)
  rw [domain, List.dropWhile_append_of_pos goesOn]
  rfl

/-! ## The pattern -/

theorem localCharacter_has :
    localCharacter.has x = true ↔ x ≠ '@' ∧ Text.isWhiteSpace x = false := by
  simp [localCharacter, CharClass.has]

theorem labelCharacter_has :
    labelCharacter.has x = true ↔ x ≠ '@' ∧ x ≠ '.' ∧ Text.isWhiteSpace x = false := by
  simp [labelCharacter, CharClass.has, and_assoc]

/-- A label with a dot in front of it. -/
def dotted : Pattern := seq (char '.') (run labelCharacter)

theorem spells_dotted :
    dotted.Spells s ↔ ∃ label, (run labelCharacter).Spells label ∧ s = '.' :: label := by
  constructor
  · rintro ⟨_, label, ⟨x, hx, rfl⟩, spells, rfl⟩
    rw [CharClass.has_only, beq_iff_eq] at hx
    exact ⟨label, spells, hx ▸ rfl⟩
  · rintro ⟨label, spells, rfl⟩
    exact ⟨['.'], label, ⟨'.', rfl, rfl⟩, spells, rfl⟩

theorem exists_labels {parts : List (List Char)} (h : ∀ s ∈ parts, dotted.Spells s) :
    ∃ labels : List (List Char), parts = labels.map ('.' :: ·) ∧
      ∀ label ∈ labels, (run labelCharacter).Spells label := by
  induction parts with
  | nil => exact ⟨[], rfl, fun _ hl => absurd hl List.not_mem_nil⟩
  | cons s parts ih =>
    obtain ⟨first, later⟩ := List.forall_mem_cons.mp h
    obtain ⟨label, spells, rfl⟩ := spells_dotted.mp first
    obtain ⟨labels, rfl, all⟩ := ih later
    exact ⟨label :: labels, rfl, List.forall_mem_cons.mpr ⟨spells, all⟩⟩

/-- A text that matches is a local part, an at sign and two or more labels joined by dots. -/
theorem exists_labels_of_occursIn (h : format.occursIn s = true) :
    ∃ before labels, s = before ++ '@' :: ['.'].intercalate labels ∧
      (run localCharacter).Spells before ∧ 2 ≤ labels.length ∧
      ∀ label ∈ labels, (run labelCharacter).Spells label := by
  obtain ⟨c, d, rfl, found⟩ := exists_mem_ends_of_start h
  obtain ⟨c₁, first, found⟩ := mem_ends_seq.mp found
  obtain ⟨c₂, sign, found⟩ := mem_ends_seq.mp found
  obtain ⟨c₃, second, found⟩ := mem_ends_seq.mp found
  obtain ⟨c₄, others, last⟩ := mem_ends_seq.mp found
  obtain ⟨before, hbefore, rest₁, -⟩ := exists_spells_of_mem_ends first
  obtain ⟨_, ⟨x, hx, rfl⟩, rest₂, -⟩ := exists_spells_of_mem_ends sign
  obtain ⟨label, hlabel, rest₃, -⟩ := exists_spells_of_mem_ends second
  obtain ⟨parts, some, spells, rest₄, -⟩ := exists_parts_of_mem_ends_plus others
  obtain ⟨labels, rfl, hlabels⟩ := exists_labels spells
  have rest₅ : c₄.rest = [] := eq_of_mem_ite last ▸ stops_stop _ _ last
  rw [CharClass.has_only, beq_iff_eq] at hx
  refine ⟨before, label :: labels, ?_, hbefore, ?_, List.forall_mem_cons.mpr ⟨hlabel, hlabels⟩⟩
  · rw [rest₁, rest₂, rest₃, rest₄, rest₅, hx, List.append_nil, Text.intercalate_cons]
    rfl
  · exact Nat.succ_le_succ (List.length_pos_iff.mpr (mt (congrArg (List.map _)) some))

/-- A local part, an at sign and two or more labels joined by dots match. -/
theorem occursIn_format {labels : List (List Char)} (hbefore : (run localCharacter).Spells before)
    (several : 2 ≤ labels.length) (spells : ∀ label ∈ labels, (run labelCharacter).Spells label) :
    format.occursIn (before ++ '@' :: ['.'].intercalate labels) = true := by
  obtain ⟨label, labels, rfl⟩ := List.exists_cons_of_length_pos (Nat.lt_of_succ_lt several)
  obtain ⟨hlabel, hlabels⟩ := List.forall_mem_cons.mp spells
  have some : labels.map ('.' :: ·) ≠ [] :=
    mt List.map_eq_nil_iff.mp (List.length_pos_iff.mp (Nat.le_of_succ_le_succ several))
  have each : ∀ s ∈ labels.map ('.' :: ·), dotted.Spells s ∧ s ≠ [] :=
    List.forall_mem_map.mpr fun label hl =>
      ⟨spells_dotted.mpr ⟨label, hlabels label hl, rfl⟩, List.cons_ne_nil '.' label⟩
  have row := ((((begins_stop.plus_seq (p := dotted) rfl some each).seq rfl hlabel).seq
    (p := char '@') rfl ⟨'@', rfl, rfl⟩).seq rfl hbefore).occursIn
  rw [List.append_nil] at row
  rw [Text.intercalate_cons]
  exact row

/-- **What the pattern adds to one at sign and no white space**: there is a local part, and dots cut
the domain into two or more labels that are not empty. -/
theorem occursIn_format_iff (visible : ∀ x ∈ before ++ '@' :: t, Text.isWhiteSpace x = false)
    (hbefore : '@' ∉ before) (ht : '@' ∉ t) :
    format.occursIn (before ++ '@' :: t) = true ↔
      before ≠ [] ∧ 2 ≤ (Text.splitOn '.' t).length ∧ ∀ label ∈ Text.splitOn '.' t, label ≠ [] := by
  constructor
  · intro occurs
    obtain ⟨before', labels, split, hbefore', several, spells⟩ := exists_labels_of_occursIn occurs
    obtain ⟨full, allowed⟩ := spells_run.mp hbefore'
    have hbefore' : '@' ∉ before' := fun h => absurd (allowed '@' h) (by decide)
    obtain rfl : before = before' := by
      rw [← localPart_append hbefore (t := t), split, localPart_append hbefore']
    obtain rfl : t = ['.'].intercalate labels := by
      rw [← domain_append hbefore (t := t), split, domain_append hbefore]
    have undotted : ∀ label ∈ labels, '.' ∉ label := fun label hl h =>
      absurd ((spells_run.mp (spells label hl)).2 '.' h) (by decide)
    rw [Text.splitOn_intercalate (List.length_pos_iff.mp (Nat.lt_of_succ_lt several)) undotted]
    exact ⟨full, several, fun label hl => (spells_run.mp (spells label hl)).1⟩
  · rintro ⟨full, several, labels⟩
    rw [← Text.intercalate_splitOn '.' t]
    refine occursIn_format (spells_run.mpr ⟨full, fun x hx => ?_⟩) several fun label hl =>
      spells_run.mpr ⟨labels label hl, fun x hx => ?_⟩
    · have white : Text.isWhiteSpace x = false := visible x (List.mem_append_left _ hx)
      exact localCharacter_has.mpr ⟨fun h => hbefore (h ▸ hx), white⟩
    · obtain ⟨within, undotted⟩ := Text.exists_mem_splitOn_iff.mp ⟨label, hl, hx⟩
      have white : Text.isWhiteSpace x = false :=
        visible x (List.mem_append_right _ (List.mem_cons_of_mem '@' within))
      exact labelCharacter_has.mpr ⟨fun h => ht (h ▸ within), undotted, white⟩

/-! ## The checks -/

/-- A check goes on where its fault is not found. -/
theorem ite_fault_eq_ok_iff {c : Prop} [Decidable c] {fault : Fault} {later : Except Fault Unit} :
    (if c then .error fault else later) = .ok () ↔ ¬ c ∧ later = .ok () := by
  split <;> simp [*]

theorem check_eq_ok_iff :
    check s = .ok () ↔ (∀ x ∈ s, Text.isWhiteSpace x = false) ∧ s.count '@' = 1 ∧
      byteLength (localPart s) ≤ 64 ∧ byteLength (domain s) ≤ 255 ∧ format.occursIn s = true := by
  simp only [check, ite_fault_eq_ok_iff]
  constructor
  · rintro ⟨visible, some, single, localShort, domainShort, occurs, -⟩
    exact ⟨by simpa using visible, Decidable.not_not.mp single, Nat.not_lt.mp localShort,
      Nat.not_lt.mp domainShort, by simpa using occurs⟩
  · rintro ⟨visible, single, localShort, domainShort, occurs⟩
    exact ⟨by simpa using visible, by omega, not_not_intro single, Nat.not_lt.mpr localShort,
      Nat.not_lt.mpr domainShort, by simpa using occurs, trivial⟩

/-- **The checks accept exactly the addresses.** -/
theorem check_iff_isAddress :
    check address.toList = .ok () ↔ ∃ localPart domain, IsAddress address localPart domain := by
  rw [check_eq_ok_iff]
  constructor
  · rintro ⟨visible, single, localShort, domainShort, occurs⟩
    obtain ⟨before, t, cut, hbefore, ht⟩ := exists_cut single
    rw [cut] at visible occurs
    rw [cut, localPart_append hbefore, byteLength_eq] at localShort
    rw [cut, domain_append hbefore, byteLength_eq] at domainShort
    obtain ⟨full, several, labels⟩ := (occursIn_format_iff visible hbefore ht).mp occurs
    refine ⟨String.ofList before, String.ofList t, ?_, cut ▸ visible, single, ?_, localShort,
      domainShort, ?_, ?_⟩
    · rw [← String.toList_inj, cut]
      simp
    · rw [ne_eq, ← String.toList_inj, String.toList_ofList]
      exact full
    · rwa [String.toList_ofList]
    · rwa [String.toList_ofList]
  · rintro ⟨localPart, domain, h⟩
    have cut : address.toList = localPart.toList ++ '@' :: domain.toList := by
      rw [h.parts]
      simp
    obtain ⟨hlocal, hdomain⟩ := count_eq_one_iff.mp (cut ▸ h.atSigns)
    have full : localPart.toList ≠ [] := mt String.toList_eq_nil_iff.mp h.localFull
    refine ⟨h.visible, h.atSigns, ?_, ?_, ?_⟩
    · rw [cut, localPart_append hlocal, byteLength_toList]
      exact h.localShort
    · rw [cut, domain_append hlocal, byteLength_toList]
      exact h.domainShort
    · rw [cut]
      exact (occursIn_format_iff (cut ▸ h.visible) hlocal hdomain).mpr ⟨full, h.dotted, h.labels⟩

/-- **The validator accepts exactly the addresses.** An address is returned as it is, and any other
text is reported as logs may show it. -/
theorem addresses_exact (address : String) :
    (validate address = .ok address ↔ ∃ localPart domain, IsAddress address localPart domain) ∧
      ((¬ ∃ localPart domain, IsAddress address localPart domain) → ∃ fault : Fault,
        validate address =
          .error (.malformedEmail (Redaction.forLog 100 address) fault.message)) := by
  rw [← check_iff_isAddress]
  unfold validate
  split
  · rename_i accepted
    exact ⟨⟨fun _ => accepted, fun _ => rfl⟩, fun refused => absurd accepted refused⟩
  · rename_i fault refused
    have none : check address.toList ≠ .ok () := by
      rw [refused]
      exact nofun
    exact ⟨⟨nofun, fun accepted => absurd accepted none⟩, fun _ => ⟨fault, rfl⟩⟩

/-- Lengths are counted in bytes: 33 letters of two bytes are too many for a local part. -/
example : check (List.replicate 32 'ü' ++ "@b.co".toList) = .ok () ∧
    check (List.replicate 33 'ü' ++ "@b.co".toList) = .error .localTooLong := by
  decide +kernel

end BoundSql.Email
