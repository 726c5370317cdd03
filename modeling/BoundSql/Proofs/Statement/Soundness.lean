import BoundSql.Proofs.Statement.Calm

/-!
# Accepted statements are sound

Every piece of a statement that the rules accept is plain: its fixed texts are inert, and every name
it writes was judged by a rule for names (`plain_of_check`, for the statements on rows). A CREATE
TABLE statement writes string literals besides (`sound_of_check`).
-/

namespace BoundSql

namespace Piece

/-- A fixed text is plain if a computation finds it so. -/
theorem plain_fixed {s : String}
    (h : s.toList.all (fun x => decide (Unmarked x ∧ x ≠ '-')) = true) : (text s).Plain :=
  inert_of_forall (Text.forall_mem_of_all h)

end Piece

open Piece

variable {r : Rules}

/-! ## CREATE TABLE -/

/-- Every default but a text is written as fixed text or as a numeral. -/
theorem ColumnDefault.plain_literal {d : ColumnDefault} (h : ∀ s, d ≠ .text s) (booleans : Bool) :
    (Piece.text (d.literal booleans)).Plain := by
  cases d with
  | null => exact plain_fixed (by cases booleans <;> decide)
  | integer n => exact inert_toString_int n
  | boolean b => exact plain_fixed (by cases b <;> cases booleans <;> decide)
  | currentTimestamp => exact plain_fixed (by cases booleans <;> decide)
  | currentDate => exact plain_fixed (by cases booleans <;> decide)
  | text s => exact absurd rfl (h s)

theorem ColumnDefault.toList_literal_text (s : String) (booleans : Bool) :
    ((ColumnDefault.text s).literal booleans).toList =
      '\'' :: Text.doubling '\'' s.toList ++ ['\''] := by
  simp [literal]

theorem ColumnDefault.sound_literal (d : ColumnDefault) (booleans : Bool) :
    (Piece.text (d.literal booleans)).Sound := by
  by_cases h : ∃ s, d = .text s
  · obtain ⟨s, rfl⟩ := h
    exact Or.inr ⟨_, rfl, s.toList, toList_literal_text s booleans⟩
  · exact Or.inl (plain_literal (fun s e => h ⟨s, e⟩) booleans)

theorem ColumnDefinition.plain_headPieces {c : ColumnDefinition}
    (h : r.checkColumnDefinition c = .ok ()) : ∀ x ∈ c.headPieces, x.Plain := by
  simp only [Rules.checkColumnDefinition, bind_eq_ok_iff, Rules.needs_eq_ok_iff] at h
  obtain ⟨name, type, -⟩ := h
  refine forall_append ?_ ?_
  · exact forall_cons (Rules.isName_of_checkAlias name) (forall_cons
      (plain_fixed rfl) (forall_cons (Rules.inert_of_columnType type) forall_nil))
  · split
    · exact forall_cons (plain_fixed rfl) forall_nil
    · exact forall_nil

theorem ColumnDefinition.sound_of_check {c : ColumnDefinition}
    (h : r.checkColumnDefinition c = .ok ()) (p : DialectProfile) :
    ∀ x ∈ c.pieces p, x.Sound := by
  rw [pieces_eq]
  refine List.forall_mem_append.mpr ⟨fun x hx => Or.inl (plain_headPieces h x hx), ?_⟩
  unfold defaultPieces
  split
  · exact fun _ hx => absurd hx List.not_mem_nil
  · rename_i d _
    refine List.forall_mem_cons.mpr ⟨Or.inl (plain_fixed rfl), ?_⟩
    exact List.forall_mem_singleton.mpr (d.sound_literal _)

namespace CreateTable

variable {q : CreateTable}

theorem plain_headPieces (h : r.checkCreateTable q = .ok ()) : ∀ x ∈ q.headPieces, x.Plain := by
  simp only [Rules.checkCreateTable, bind_eq_ok_iff] at h
  have target := (admits_of_checkTarget h.1).isName
  refine forall_append (forall_append ?_ ?_) ?_
  · exact forall_cons (plain_fixed rfl) forall_nil
  · split
    · exact forall_cons (plain_fixed rfl) forall_nil
    · exact forall_nil
  · exact forall_cons target (forall_cons (plain_fixed rfl) forall_nil)

/-- A declared column has a name that was judged. -/
theorem isName_of_declares (h : ∀ c ∈ q.columns, r.checkColumnDefinition c = .ok ()) {name : String}
    (declared : q.declares name = true) : IsName name := by
  obtain ⟨c, hc, same⟩ := List.any_eq_true.mp declared
  have := h c hc
  rw [Rules.checkColumnDefinition, bind_eq_ok_iff] at this
  rw [← eq_of_beq same]
  exact Rules.isName_of_checkAlias this.1

theorem plain_tailPieces (h : r.checkCreateTable q = .ok ()) : ∀ x ∈ q.tailPieces, x.Plain := by
  simp only [Rules.checkCreateTable, bind_eq_ok_iff, judgeAll_eq_ok_iff] at h
  obtain ⟨-, -, -, columns, keys, foreignKeys⟩ := h
  refine forall_append (forall_append ?_ ?_) ?_
  · unfold keyPieces
    split
    · exact forall_nil
    · refine forall_append (forall_cons (plain_fixed rfl) ?_)
        (forall_cons (plain_fixed rfl) forall_nil)
      exact forall_separated (plain_fixed rfl) fun name hn => forall_cons
        (isName_of_declares columns (Rules.needs_eq_ok_iff.mp (keys name hn))) forall_nil
  · refine forall_flatMap fun k hk => ?_
    have := foreignKeys k hk
    simp only [Rules.checkForeignKey, bind_eq_ok_iff, Rules.needs_eq_ok_iff] at this
    obtain ⟨declared, table, column⟩ := this
    exact forall_cons (plain_fixed rfl)
      (forall_cons (isName_of_declares columns declared)
        (forall_cons (plain_fixed rfl)
          (forall_cons (Rules.isName_of_checkTable table)
            (forall_cons (plain_fixed rfl)
              (forall_cons (Rules.isName_of_checkAlias column)
                (forall_cons (plain_fixed rfl) forall_nil))))))
  · exact forall_cons (plain_fixed rfl) forall_nil

theorem sound_of_check (h : r.checkCreateTable q = .ok ()) (p : DialectProfile) :
    ∀ x ∈ q.pieces p, x.Sound := by
  have columns := h
  simp only [Rules.checkCreateTable, bind_eq_ok_iff, judgeAll_eq_ok_iff] at columns
  rw [pieces_eq]
  refine List.forall_mem_append.mpr ⟨List.forall_mem_append.mpr ⟨fun x hx =>
    Or.inl (plain_headPieces h x hx), fun x hx => ?_⟩, fun x hx => Or.inl (plain_tailPieces h x hx)⟩
  rcases Text.mem_intercalate hx with rfl | ⟨g, hg, hx⟩
  · exact Or.inl (plain_fixed rfl)
  · obtain ⟨c, hc, rfl⟩ := List.mem_map.mp hg
    exact ColumnDefinition.sound_of_check (columns.2.2.2.1 c hc) p x hx

end CreateTable

/-! ## Statements -/

namespace Statement

variable {s : Statement}

/-- **An accepted statement on rows writes nothing but inert text, names and placeholders.** -/
theorem plain_of_check (h : r.check s = .ok ()) (rows : s.kind ≠ .createTable)
    (p : DialectProfile) : ∀ x ∈ s.pieces p, x.Plain := fun x hx =>
  (calm_of_check h rows p x hx).plain

/-- **An accepted statement writes string literals besides at most.** -/
theorem sound_of_check (h : r.check s = .ok ()) (p : DialectProfile) :
    ∀ x ∈ s.pieces p, x.Sound := by
  by_cases table : s.kind = .createTable
  · cases s with
    | createTable q => exact CreateTable.sound_of_check h p
    | _ => cases table
  · exact fun x hx => Or.inl (plain_of_check h table p x hx)

end Statement

end BoundSql
