import BoundSql.Proofs.Rules.Names
import BoundSql.Proofs.Statement.Soundness
import BoundSql.Proofs.Text.Nesting

/-!
# Statements close the parentheses they open

The parentheses of a statement are in its fixed texts: names and placeholders have none, and those
of a string literal do not count. `Takes i j a` says that the pieces `a` are read with `i`
parentheses open before them and `j` behind; they are *neutral* if they leave open what was open.
Every clause is neutral, whatever it holds, but for the type of a column, which has been judged.
Main statement: `neutral_pieces`.
-/

namespace BoundSql

namespace Piece

/-- What counts of a piece when parentheses are read. -/
def outline : Piece → List Char
  | text s => if s.toList.head? = some '\'' then [] else s.toList
  | _ => []

/-- Behind the pieces `j` parentheses are open, if `i` are open before them. -/
def Takes (i j : Nat) (a : List Piece) : Prop := Text.nesting i (a.flatMap outline) = some j

/-- Behind the pieces the same parentheses are open as before them. -/
def Neutral (a : List Piece) : Prop := ∀ i, Takes i i a

variable {i j k : Nat} {a b : List Piece} {s : String}

theorem Takes.append (ha : Takes i j a) (hb : Takes j k b) : Takes i k (a ++ b) := by
  unfold Takes at *
  rw [List.flatMap_append, Text.nesting_append, ha, Option.bind_some, hb]

theorem neutral_of_zero (h : Takes 0 0 a) : Neutral a := by
  intro i
  have := Text.nesting_add h i
  rwa [Nat.zero_add] at this

theorem neutral_nil : Neutral [] := fun _ => rfl

theorem Neutral.append (ha : Neutral a) (hb : Neutral b) : Neutral (a ++ b) := fun i =>
  (ha i).append (hb i)

/-- **Neutral pieces between an opening and a closing parenthesis are neutral.** -/
theorem Neutral.between {opening closing : List Piece} (ha : Neutral a) (ho : Takes 0 1 opening)
    (hc : Takes 1 0 closing) : Neutral (opening ++ a ++ closing) :=
  neutral_of_zero ((ho.append (ha 1)).append hc)

theorem neutral_ident_cons {name : String} (ha : Neutral a) : Neutral (ident name :: a) := ha

/-- A text that leaves no parenthesis open is neutral, be it a literal or not. -/
theorem neutral_text (h : Text.nesting 0 s.toList = some 0) : Neutral [text s] := by
  refine neutral_of_zero ?_
  rw [Takes, List.flatMap_singleton, outline]
  split
  · rfl
  · exact h

theorem neutral_text_cons (h : Text.nesting 0 s.toList = some 0) (ha : Neutral a) :
    Neutral (text s :: a) := (neutral_text h).append ha

theorem neutral_flatMap {α : Type} {f : α → List Piece} {xs : List α}
    (h : ∀ x ∈ xs, Neutral (f x)) : Neutral (xs.flatMap f) := by
  induction xs with
  | nil => exact neutral_nil
  | cons x xs ih =>
    rw [List.flatMap_cons]
    exact (h x List.mem_cons_self).append (ih fun y hy => h y (List.mem_cons_of_mem x hy))

theorem neutral_separated (hs : Text.nesting 0 s.toList = some 0) {groups : List (List Piece)}
    (h : ∀ g ∈ groups, Neutral g) : Neutral (separated s groups) := by
  induction groups with
  | nil => exact neutral_nil
  | cons g gs ih =>
    have first := h g List.mem_cons_self
    have ih := ih fun g' hg => h g' (List.mem_cons_of_mem g hg)
    cases gs with
    | nil =>
      rw [separated_singleton]
      exact first
    | cons g' gs =>
      rw [separated_cons_cons]
      exact first.append (neutral_text_cons hs ih)

theorem neutral_listed {α : Type} {f : α → List Piece} {xs : List α}
    (h : ∀ x ∈ xs, Neutral (f x)) : Neutral (listed (xs.map f)) :=
  neutral_separated rfl (List.forall_mem_map.mpr h)

theorem neutral_joined {α : Type} {f : α → List Piece} {xs : List α}
    (h : ∀ x ∈ xs, Neutral (f x)) : Neutral (separated " AND " (xs.map f)) :=
  neutral_separated rfl (List.forall_mem_map.mpr h)

theorem neutral_idents (names : List String) : Neutral (idents names) :=
  neutral_listed fun _ _ => neutral_ident_cons neutral_nil

theorem neutral_binds (vs : List Value) : Neutral (listed (vs.map fun v => [bind v])) :=
  neutral_listed fun _ _ _ => rfl

end Piece

open Piece

/-! ## Parts of statements -/

theorem Expr.neutral_pieces (e : Expr) : Neutral e.pieces := by
  cases e with
  | column name => exact neutral_ident_cons neutral_nil
  | aggregate function distinct column? =>
    refine neutral_of_zero ?_
    cases function <;> cases distinct <;> cases column? <;> rfl

namespace Condition

theorem neutral_operandPieces (c : Condition) : Neutral c.operandPieces := by
  unfold operandPieces
  split
  · exact neutral_nil
  · exact neutral_nil
  · exact (neutral_binds _).between rfl rfl
  · exact (neutral_binds _).between rfl rfl
  · exact neutral_text_cons rfl (neutral_joined fun _ _ _ => rfl)

theorem neutral_pieces (c : Condition) : Neutral c.pieces := by
  have operator : Neutral [text " ", text c.operator.text] :=
    neutral_of_zero (by cases c.operator <;> rfl)
  exact (c.expr.neutral_pieces.append operator).append c.neutral_operandPieces

theorem neutral_clause {keyword : String} (h : Text.nesting 0 keyword.toList = some 0)
    (conditions : List Condition) : Neutral (clause keyword conditions) := by
  unfold clause
  split
  · exact neutral_nil
  · have joined : Neutral (separated " AND " (conditions.map (·.pieces))) :=
      neutral_joined fun c _ => c.neutral_pieces
    exact neutral_text_cons rfl (neutral_text_cons h (neutral_text_cons rfl joined))

end Condition

theorem neutral_aliasPieces {introduction : String}
    (h : Text.nesting 0 introduction.toList = some 0) (as? : Option String) :
    Neutral (aliasPieces introduction as?) := by
  cases as? with
  | none => exact neutral_nil
  | some name => exact neutral_text_cons h (neutral_ident_cons neutral_nil)

theorem TableRef.neutral_pieces (t : TableRef) : Neutral t.pieces :=
  neutral_ident_cons (neutral_aliasPieces rfl t.as?)

theorem neutral_returningPieces (p : DialectProfile) (columns : List String) :
    Neutral (returningPieces p columns) := by
  unfold returningPieces
  split
  · exact neutral_nil
  · exact neutral_text_cons rfl (neutral_idents columns)

/-! ## Numerals and column types -/

theorem nesting_append_zero {s t : List Char} (hs : Text.nesting 0 s = some 0)
    (ht : Text.nesting 0 t = some 0) : Text.nesting 0 (s ++ t) = some 0 := by
  rw [Text.nesting_append, hs, Option.bind_some, ht]

theorem flat_numeral (n : Int) : Text.Flat (toString n).toList := by
  intro x hx
  rcases mem_toString_int n x hx with rfl | part
  · decide
  · constructor <;>
    · rintro rfl
      exact absurd part (by decide)

/-- A numeral behind a text. -/
theorem nesting_numeral {s : String} (h : Text.nesting 0 s.toList = some 0) (n : Int) :
    Text.nesting 0 (s ++ toString n).toList = some 0 := by
  rw [String.toList_append]
  exact nesting_append_zero h (Text.nesting_of_flat (flat_numeral n))

/-- A text behind a text. -/
theorem nesting_text {s t : String} (hs : Text.nesting 0 s.toList = some 0)
    (ht : Text.nesting 0 t.toList = some 0) : Text.nesting 0 (s ++ t).toList = some 0 := by
  rw [String.toList_append]
  exact nesting_append_zero hs ht

/-- **An accepted column type closes the parentheses it opens.** -/
theorem Rules.nesting_columnType {s : List Char} (h : Rules.columnType.occursIn s = true) :
    Text.nesting 0 s = some 0 := by
  have flat : ∀ {t : List Char}, (∀ x ∈ t, x ∉ typeMarks) → Text.Flat t := fun ht x hx =>
    ⟨fun e => ht x hx (by rw [e]; decide), fun e => ht x hx (by rw [e]; decide)⟩
  obtain ⟨words, lengths, hwords, rfl, lengths⟩ := exists_spells_of_columnType h
  refine nesting_append_zero (Text.nesting_of_flat (flat (not_mem_typeMarks_of_words hwords))) ?_
  rcases lengths with rfl | ⟨inner, hinner, rfl⟩
  · rfl
  · rw [List.cons_append, Text.nesting_open, Text.nesting_append,
      Text.nesting_of_flat (flat (not_mem_typeMarks_of_lengths hinner))]
    rfl

/-! ## Statements -/

namespace Select

theorem neutral_itemsPieces (items : List SelectItem) : Neutral (itemsPieces items) := by
  have item : ∀ i : SelectItem, Neutral (itemPieces i) := by
    intro i
    cases i with
    | wildcard qualifier =>
      cases qualifier with
      | none => exact neutral_text_cons rfl neutral_nil
      | some name => exact neutral_ident_cons (neutral_text_cons rfl neutral_nil)
    | expr e as? => exact e.neutral_pieces.append (neutral_aliasPieces rfl as?)
  unfold itemsPieces
  split
  · exact neutral_text_cons rfl neutral_nil
  · exact neutral_listed fun i _ => item i

theorem neutral_joinPieces (j : Join) : Neutral (joinPieces j) := by
  have kind : Neutral [text " ", text j.kind.text, text " "] :=
    neutral_of_zero (by cases j.kind <;> rfl)
  refine ((kind.append j.table.neutral_pieces).append (neutral_text_cons rfl neutral_nil)).append ?_
  exact neutral_joined fun pair _ =>
    neutral_ident_cons (neutral_text_cons rfl (neutral_ident_cons neutral_nil))

theorem neutral_groupPieces (groups : List String) : Neutral (groupPieces groups) := by
  unfold groupPieces
  split
  · exact neutral_nil
  · exact neutral_text_cons rfl (neutral_idents groups)

theorem neutral_orderPieces (orders : List (String × Direction)) :
    Neutral (orderPieces orders) := by
  unfold orderPieces
  split
  · exact neutral_nil
  · refine neutral_text_cons rfl (neutral_listed fun o _ => neutral_ident_cons ?_)
    exact neutral_of_zero (by cases o.2 <;> rfl)

theorem neutral_limitHead (limits : LimitSyntax) (q : Select) : Neutral (limitHead limits q) := by
  unfold limitHead
  split
  · exact neutral_text (nesting_text (nesting_numeral rfl _) rfl)
  · exact neutral_nil

theorem neutral_limitTail (limits : LimitSyntax) (q : Select) : Neutral (limitTail limits q) := by
  have around : ∀ (before : String) (n : Int) (behind : String),
      Text.nesting 0 before.toList = some 0 → Text.nesting 0 behind.toList = some 0 →
        Text.nesting 0 (before ++ toString n ++ behind).toList = some 0 :=
    fun before n behind hb ha => nesting_text (nesting_numeral hb n) ha
  unfold limitTail
  split
  · exact neutral_nil
  · exact neutral_text (nesting_numeral rfl _)
  · exact neutral_text (nesting_numeral (around _ _ _ rfl rfl) _)
  · exact neutral_nil
  · refine Neutral.append ?_ (neutral_text ?_)
    · split
      · exact neutral_text_cons rfl neutral_nil
      · exact neutral_nil
    · exact nesting_text (nesting_numeral (around _ _ _ rfl rfl) _) rfl
  · exact neutral_text (around _ _ _ rfl rfl)
  · exact neutral_text_cons (around _ _ _ rfl rfl) (neutral_text (around _ _ _ rfl rfl))

theorem neutral_pieces (p : DialectProfile) (q : Select) : Neutral (q.pieces p) := by
  have opening : Neutral q.opening := by
    refine neutral_text_cons rfl ?_
    split
    · exact neutral_text_cons rfl neutral_nil
    · exact neutral_nil
  have body : Neutral q.body := by
    refine Neutral.append ?_ (neutral_orderPieces _)
    refine Neutral.append ?_ (Condition.neutral_clause rfl _)
    refine Neutral.append ?_ (neutral_groupPieces _)
    refine Neutral.append ?_ (Condition.neutral_clause rfl _)
    refine Neutral.append ?_ (neutral_flatMap fun j _ => neutral_joinPieces j)
    refine Neutral.append ?_ (neutral_listed fun t _ => t.neutral_pieces)
    exact (neutral_itemsPieces _).append (neutral_text_cons rfl neutral_nil)
  exact ((opening.append (neutral_limitHead _ q)).append body).append (neutral_limitTail _ q)

end Select

theorem Insert.neutral_pieces (p : DialectProfile) (q : Insert) : Neutral (q.pieces p) := by
  have row : ∀ vs ∈ q.rows, Neutral (rowPieces vs) := fun vs _ => (neutral_binds vs).between rfl rfl
  have columns : Neutral ([text "INSERT INTO ", ident q.table, text " ("] ++
      idents q.columnNames ++ [text ") VALUES "]) := (neutral_idents _).between rfl rfl
  exact (columns.append (neutral_listed row)).append (neutral_returningPieces p _)

theorem Update.neutral_pieces (p : DialectProfile) (q : Update) : Neutral (q.pieces p) := by
  have opening : Neutral [text "UPDATE ", ident q.table, text " SET "] :=
    neutral_text_cons rfl (neutral_ident_cons (neutral_text_cons rfl neutral_nil))
  refine Neutral.append ?_ (neutral_returningPieces p _)
  refine Neutral.append ?_ (Condition.neutral_clause rfl _)
  refine opening.append (neutral_listed fun a _ => ?_)
  exact neutral_ident_cons (neutral_text_cons rfl neutral_nil)

theorem Delete.neutral_pieces (p : DialectProfile) (q : Delete) : Neutral (q.pieces p) := by
  refine Neutral.append ?_ (neutral_returningPieces p _)
  refine Neutral.append ?_ (Condition.neutral_clause rfl _)
  exact neutral_text_cons rfl (neutral_ident_cons neutral_nil)

/-- A default is a literal or a word. -/
theorem ColumnDefault.neutral_literal (d : ColumnDefault) (booleans : Bool) :
    Neutral [.text (d.literal booleans)] := by
  refine neutral_of_zero ?_
  cases d with
  | null => cases booleans <;> rfl
  | integer n =>
    have := neutral_text (Text.nesting_of_flat (flat_numeral n))
    exact this 0
  | boolean b => cases b <;> cases booleans <;> rfl
  | currentTimestamp => cases booleans <;> rfl
  | currentDate => cases booleans <;> rfl
  | text s =>
    rw [Takes, List.flatMap_singleton, outline, toList_literal_text]
    rfl

theorem ColumnDefinition.neutral_pieces {r : Rules} {c : ColumnDefinition}
    (h : r.checkColumnDefinition c = .ok ()) (p : DialectProfile) : Neutral (c.pieces p) := by
  simp only [Rules.checkColumnDefinition, bind_eq_ok_iff, Rules.needs_eq_ok_iff] at h
  obtain ⟨-, type, -⟩ := h
  have head : Neutral c.headPieces := by
    refine Neutral.append ?_ ?_
    · have type := neutral_text (Rules.nesting_columnType type)
      exact neutral_ident_cons (neutral_text_cons rfl type)
    · split
      · exact neutral_text_cons rfl neutral_nil
      · exact neutral_nil
  refine head.append ?_
  split
  · exact neutral_nil
  · rename_i d _
    exact neutral_text_cons rfl (d.neutral_literal _)

namespace CreateTable

theorem neutral_keyPieces (columns : List String) : Neutral (keyPieces columns) := by
  unfold keyPieces
  split
  · exact neutral_nil
  · exact (neutral_idents columns).between rfl rfl

theorem neutral_pieces {r : Rules} {q : CreateTable} (h : r.checkCreateTable q = .ok ())
    (p : DialectProfile) : Neutral (q.pieces p) := by
  simp only [Rules.checkCreateTable, bind_eq_ok_iff, judgeAll_eq_ok_iff] at h
  obtain ⟨-, -, -, columns, -⟩ := h
  have opening : Takes 0 1 q.headPieces := by
    unfold CreateTable.headPieces
    cases q.unlessExists <;> rfl
  have columns : Neutral (listed (q.columns.map (·.pieces p))) :=
    neutral_listed fun c hc => ColumnDefinition.neutral_pieces (columns c hc) p
  have keys : Neutral (keyPieces q.keyColumns ++ q.foreignKeys.flatMap ForeignKey.pieces) :=
    (neutral_keyPieces _).append (neutral_flatMap fun k _ => neutral_of_zero rfl)
  rw [CreateTable.pieces_eq]
  refine neutral_of_zero ((opening.append (columns 1)).append ((keys 1).append ?_))
  rfl

end CreateTable

/-- **An accepted statement closes the parentheses it opens**, and never one that is not open. -/
theorem Statement.neutral_pieces {r : Rules} {s : Statement} (h : r.check s = .ok ())
    (p : DialectProfile) : Neutral (s.pieces p) := by
  cases s with
  | select q => exact q.neutral_pieces p
  | insert q => exact q.neutral_pieces p
  | update q => exact q.neutral_pieces p
  | delete q => exact q.neutral_pieces p
  | createTable q => exact CreateTable.neutral_pieces h p

end BoundSql
