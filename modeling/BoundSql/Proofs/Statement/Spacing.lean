import BoundSql.Proofs.Statement.Pieces
import BoundSql.Render

/-!
# Statements are spaced

Behind each name, each placeholder and each literal that a statement writes there is a delimiter or
nothing, whatever the statement holds. This is a matter of the fixed texts alone: it needs no rule
to have been checked. Main statement: `parted_pieces`.
-/

namespace BoundSql

namespace Piece

/-- Whether a literal, a name, a placeholder or the word of a fixed text ends with the piece. -/
def isLoose : Piece → Bool
  | text s => (text s).isOpen || s.toList.getLast?.any Text.isWordChar
  | _ => true

/-- A delimiter follows where a word or a literal ends. -/
def Parted (x y : Piece) : Prop := x.isLoose = true → y.delimits = true

theorem isLoose_of_isOpen {x : Piece} (h : x.isOpen = true) : x.isLoose = true := by
  cases x with
  | text s => rw [isLoose, h, Bool.true_or]
  | ident name | bind v => rfl

/-- Nothing, or a delimiter first. -/
def Ready (pieces : List Piece) : Prop := ∀ y ∈ pieces.head?, y.delimits = true

variable {x : Piece} {a b : List Piece}

theorem ready_nil : Ready [] := fun _ h => absurd h (by simp)

theorem ready_cons (h : x.delimits = true) : Ready (x :: a) := by
  intro y hy
  rw [List.head?_cons, Option.mem_some_iff] at hy
  rw [← hy]
  exact h

theorem ready_append (ha : Ready a) (hb : Ready b) : Ready (a ++ b) := by
  intro y hy
  rw [List.head?_append] at hy
  cases h : a.head? with
  | none => rw [h] at hy; exact hb y hy
  | some z => rw [h] at hy; exact ha y (by rw [h]; exact hy)

theorem ready_flatMap {α : Type} {f : α → List Piece} {xs : List α} (h : ∀ x ∈ xs, Ready (f x)) :
    Ready (xs.flatMap f) := by
  induction xs with
  | nil => exact ready_nil
  | cons x xs ih =>
    rw [List.flatMap_cons]
    exact ready_append (h x List.mem_cons_self) (ih fun y hy => h y (List.mem_cons_of_mem x hy))

theorem parted_nil : [].IsChain Parted := .nil

theorem parted_cons (h : x.isLoose = true → Ready a) (ha : a.IsChain Parted) :
    (x :: a).IsChain Parted :=
  List.isChain_cons.mpr ⟨fun y hy hx => h hx y hy, ha⟩

/-- Fixed text that ends with no word and is no literal may be followed by anything. -/
theorem parted_text_cons {s : String} (h : (text s).isLoose = false) (ha : a.IsChain Parted) :
    (text s :: a).IsChain Parted :=
  parted_cons (fun hs => absurd (h.symm.trans hs) (by decide)) ha

theorem parted_append (ha : a.IsChain Parted) (hb : b.IsChain Parted) (ready : Ready b) :
    (a ++ b).IsChain Parted :=
  List.isChain_append.mpr ⟨ha, hb, fun _ _ y hy _ => ready y hy⟩

theorem parted_flatMap {α : Type} {f : α → List Piece} {xs : List α}
    (h : ∀ x ∈ xs, (f x).IsChain Parted ∧ Ready (f x)) : (xs.flatMap f).IsChain Parted := by
  induction xs with
  | nil => exact parted_nil
  | cons x xs ih =>
    have later := fun y hy => h y (List.mem_cons_of_mem x hy)
    rw [List.flatMap_cons]
    exact parted_append (h x List.mem_cons_self).1 (ih later)
      (ready_flatMap fun y hy => (later y hy).2)

/-- **Parted groups with delimiting texts between them are parted.** -/
theorem parted_separated {s : String} (ready : (text s).delimits = true)
    (closed : (text s).isLoose = false) {groups : List (List Piece)}
    (h : ∀ g ∈ groups, g.IsChain Parted) : (separated s groups).IsChain Parted := by
  induction groups with
  | nil => exact parted_nil
  | cons g gs ih =>
    have first := h g List.mem_cons_self
    have ih := ih fun g' hg => h g' (List.mem_cons_of_mem g hg)
    cases gs with
    | nil => simpa [separated] using first
    | cons g' gs =>
      rw [separated_cons_cons]
      exact parted_append first (parted_text_cons closed ih) (ready_cons ready)

theorem parted_listed {α : Type} {f : α → List Piece} {xs : List α}
    (h : ∀ x ∈ xs, (f x).IsChain Parted) : (listed (xs.map f)).IsChain Parted :=
  parted_separated rfl rfl (List.forall_mem_map.mpr h)

theorem parted_joined {α : Type} {f : α → List Piece} {xs : List α}
    (h : ∀ x ∈ xs, (f x).IsChain Parted) : (separated " AND " (xs.map f)).IsChain Parted :=
  parted_separated rfl rfl (List.forall_mem_map.mpr h)

theorem parted_singleton : [x].IsChain Parted := parted_cons (fun _ => ready_nil) parted_nil

theorem parted_idents (names : List String) : (idents names).IsChain Parted :=
  parted_listed fun _ _ => parted_singleton

end Piece

open Piece

/-! ## Expressions, conditions and tables -/

theorem Expr.parted_pieces (e : Expr) : e.pieces.IsChain Parted := by
  cases e with
  | column name => exact parted_singleton
  | aggregate function distinct column? =>
    refine parted_cons (fun _ => ready_cons rfl) (parted_text_cons rfl ?_)
    cases distinct with
    | false => cases column? <;> exact parted_cons (fun _ => ready_cons rfl) parted_singleton
    | true =>
      refine parted_text_cons rfl ?_
      cases column? <;> exact parted_cons (fun _ => ready_cons rfl) parted_singleton

namespace Condition

theorem parted_operandPieces (c : Condition) : c.operandPieces.IsChain Parted := by
  have bound : ∀ v ∈ c.referred, [bind v].IsChain Parted := fun _ _ => parted_singleton
  unfold operandPieces
  split
  · exact parted_nil
  · exact parted_nil
  · exact parted_append (parted_text_cons rfl (parted_listed bound)) parted_singleton
      (ready_cons rfl)
  · exact parted_append (parted_text_cons rfl (parted_listed bound)) parted_singleton
      (ready_cons rfl)
  · exact parted_text_cons rfl (parted_joined bound)

theorem ready_operandPieces (c : Condition) : Ready c.operandPieces := by
  unfold operandPieces
  split
  · exact ready_nil
  · exact ready_nil
  all_goals exact ready_cons rfl

theorem parted_pieces (c : Condition) : c.pieces.IsChain Parted := by
  rw [pieces, List.append_assoc]
  exact parted_append c.expr.parted_pieces
    (parted_text_cons rfl (parted_cons (fun _ => c.ready_operandPieces) c.parted_operandPieces))
    (ready_cons rfl)

theorem parted_clause (keyword : String) (conditions : List Condition) :
    (clause keyword conditions).IsChain Parted := by
  unfold clause
  split
  · exact parted_nil
  · exact parted_text_cons rfl (parted_cons (fun _ => ready_cons rfl)
      (parted_text_cons rfl (parted_joined fun c _ => c.parted_pieces)))

theorem ready_clause (keyword : String) (conditions : List Condition) :
    Ready (clause keyword conditions) := by
  unfold clause
  split
  · exact ready_nil
  · exact ready_cons rfl

end Condition

theorem parted_aliasPieces {introduction : String} (h : (text introduction).isLoose = false)
    (as? : Option String) : (aliasPieces introduction as?).IsChain Parted := by
  cases as? with
  | none => exact parted_nil
  | some name => exact parted_text_cons h parted_singleton

theorem ready_aliasPieces {introduction : String} (h : (text introduction).delimits = true)
    (as? : Option String) : Ready (aliasPieces introduction as?) := by
  cases as? with
  | none => exact ready_nil
  | some name => exact ready_cons h

theorem TableRef.parted_pieces (t : TableRef) : t.pieces.IsChain Parted :=
  parted_cons (fun _ => ready_aliasPieces rfl t.as?) (parted_aliasPieces rfl t.as?)

theorem parted_returningPieces (p : DialectProfile) (columns : List String) :
    (returningPieces p columns).IsChain Parted := by
  unfold returningPieces
  split
  · exact parted_nil
  · exact parted_text_cons rfl (parted_idents columns)

theorem ready_returningPieces (p : DialectProfile) (columns : List String) :
    Ready (returningPieces p columns) := by
  unfold returningPieces
  split
  · exact ready_nil
  · exact ready_cons rfl

/-! ## SELECT -/

namespace Select

theorem parted_itemPieces (item : SelectItem) : (itemPieces item).IsChain Parted := by
  cases item with
  | wildcard qualifier =>
    cases qualifier with
    | none => exact parted_singleton
    | some name => exact parted_cons (fun _ => ready_cons rfl) parted_singleton
  | expr e as? =>
    exact parted_append e.parted_pieces (parted_aliasPieces rfl as?)
      (ready_aliasPieces rfl as?)

theorem parted_itemsPieces (items : List SelectItem) : (itemsPieces items).IsChain Parted := by
  unfold itemsPieces
  split
  · exact parted_singleton
  · exact parted_listed fun item _ => parted_itemPieces item

theorem parted_joinPieces (j : Join) : (joinPieces j).IsChain Parted := by
  have pair : ∀ p ∈ j.pairs, (pairPieces p).IsChain Parted := fun p _ =>
    parted_cons (fun _ => ready_cons rfl) (parted_text_cons rfl parted_singleton)
  have condition : (j.table.pieces ++ text " ON " :: separated " AND " (j.pairs.map pairPieces)
      ).IsChain Parted :=
    parted_append j.table.parted_pieces (parted_text_cons rfl (parted_joined pair))
      (ready_cons rfl)
  have introduction : joinPieces j = text " " :: text j.kind.text :: text " " ::
      (j.table.pieces ++ text " ON " :: separated " AND " (j.pairs.map pairPieces)) := by
    simp [joinPieces]
  rw [introduction]
  exact parted_text_cons rfl (parted_cons (fun _ => ready_cons rfl)
    (parted_text_cons rfl condition))

theorem ready_joinPieces (j : Join) : Ready (joinPieces j) := ready_cons rfl

theorem parted_groupPieces (groups : List String) : (groupPieces groups).IsChain Parted := by
  unfold groupPieces
  split
  · exact parted_nil
  · exact parted_text_cons rfl (parted_idents groups)

theorem ready_groupPieces (groups : List String) : Ready (groupPieces groups) := by
  unfold groupPieces
  split
  · exact ready_nil
  · exact ready_cons rfl

theorem parted_orderPieces (orders : List (String × Direction)) :
    (orderPieces orders).IsChain Parted := by
  unfold orderPieces
  split
  · exact parted_nil
  · refine parted_text_cons rfl (parted_listed fun o _ => ?_)
    exact parted_cons (fun _ => ready_cons rfl) (parted_text_cons rfl parted_singleton)

theorem ready_orderPieces (orders : List (String × Direction)) : Ready (orderPieces orders) := by
  unfold orderPieces
  split
  · exact ready_nil
  · exact ready_cons rfl

theorem parted_limitTail (limits : LimitSyntax) (q : Select) :
    (limitTail limits q).IsChain Parted := by
  unfold limitTail
  split
  case h_5 =>
    refine parted_append ?_ parted_singleton (ready_cons (by simp [delimits, delimiters]))
    split
    · exact parted_singleton
    · exact parted_nil
  case h_7 =>
    exact parted_cons (fun _ => ready_cons (by simp [delimits, delimiters])) parted_singleton
  all_goals first | exact parted_nil | exact parted_singleton

theorem ready_limitTail (limits : LimitSyntax) (q : Select) : Ready (limitTail limits q) := by
  unfold limitTail
  split
  case h_5 =>
    refine ready_append ?_ (ready_cons (by simp [delimits, delimiters]))
    split
    · exact ready_cons rfl
    · exact ready_nil
  all_goals first | exact ready_nil | exact ready_cons (by simp [delimits, delimiters])

theorem parted_body (q : Select) : q.body.IsChain Parted := by
  have joins : (q.joins.flatMap joinPieces).IsChain Parted :=
    parted_flatMap fun j _ => ⟨parted_joinPieces j, ready_joinPieces j⟩
  have selection : (itemsPieces q.items ++ [text " FROM "] ++
      listed (q.tables.map TableRef.pieces)).IsChain Parted := by
    rw [List.append_assoc]
    exact parted_append (parted_itemsPieces q.items)
      (parted_text_cons rfl (parted_listed fun t _ => t.parted_pieces))
      (ready_cons rfl)
  rw [body]
  refine parted_append ?_ (parted_orderPieces q.orders) (ready_orderPieces q.orders)
  refine parted_append ?_ (Condition.parted_clause _ _) (Condition.ready_clause _ _)
  refine parted_append ?_ (parted_groupPieces q.groups) (ready_groupPieces q.groups)
  refine parted_append ?_ (Condition.parted_clause _ _) (Condition.ready_clause _ _)
  exact parted_append selection joins (ready_flatMap fun j _ => ready_joinPieces j)

theorem parted_pieces (p : DialectProfile) (q : Select) : (q.pieces p).IsChain Parted := by
  have rest : (q.body ++ limitTail p.limitSyntax q).IsChain Parted :=
    parted_append q.parted_body (parted_limitTail _ q) (ready_limitTail _ q)
  have head : (limitHead p.limitSyntax q ++ (q.body ++ limitTail p.limitSyntax q)).IsChain
      Parted := by
    unfold limitHead
    split
    · refine parted_text_cons ?_ rest
      simp only [isLoose, isOpen, String.toList_append, List.head?_append, List.getLast?_append]
      rfl
    · exact rest
  rw [pieces, List.append_assoc, List.append_assoc]
  refine parted_text_cons rfl ?_
  split
  · exact parted_text_cons rfl head
  · exact head

end Select

/-! ## Statements that change rows or create a table -/

theorem Insert.parted_pieces (p : DialectProfile) (q : Insert) : (q.pieces p).IsChain Parted := by
  have row : ∀ vs ∈ q.rows, (rowPieces vs).IsChain Parted := fun vs _ =>
    parted_append (parted_text_cons rfl (parted_listed fun _ _ => parted_singleton))
      parted_singleton (ready_cons rfl)
  have values : (text ") VALUES " :: listed (q.rows.map rowPieces)).IsChain Parted :=
    parted_text_cons rfl (parted_listed row)
  have columns : (idents q.columnNames ++ text ") VALUES " :: listed (q.rows.map rowPieces)
      ).IsChain Parted :=
    parted_append (parted_idents _) values (ready_cons rfl)
  have target : q.pieces p = text "INSERT INTO " :: ident q.table :: text " (" ::
      (idents q.columnNames ++ text ") VALUES " :: listed (q.rows.map rowPieces)) ++
        returningPieces p q.returned := by
    simp [pieces]
  rw [target]
  refine parted_append ?_ (parted_returningPieces p _) (ready_returningPieces p _)
  exact parted_text_cons rfl (parted_cons (fun _ => ready_cons rfl)
    (parted_text_cons rfl columns))

theorem Update.parted_pieces (p : DialectProfile) (q : Update) : (q.pieces p).IsChain Parted := by
  have assignment : ∀ a ∈ q.assignments, (assignmentPieces a).IsChain Parted := fun a _ =>
    parted_cons (fun _ => ready_cons rfl) (parted_text_cons rfl parted_singleton)
  rw [pieces]
  refine parted_append ?_ (parted_returningPieces p _) (ready_returningPieces p _)
  refine parted_append ?_ (Condition.parted_clause _ _) (Condition.ready_clause _ _)
  exact parted_text_cons rfl (parted_cons (fun _ => ready_cons rfl)
    (parted_text_cons rfl (parted_listed assignment)))

theorem Delete.parted_pieces (p : DialectProfile) (q : Delete) : (q.pieces p).IsChain Parted := by
  rw [pieces]
  refine parted_append ?_ (parted_returningPieces p _) (ready_returningPieces p _)
  exact parted_append (parted_text_cons rfl parted_singleton)
    (Condition.parted_clause _ _) (Condition.ready_clause _ _)

namespace ColumnDefinition

variable (c : ColumnDefinition)

theorem parted_headPieces : c.headPieces.IsChain Parted := by
  have type : ([ident c.name, text " ", text c.dataType]).IsChain Parted :=
    parted_cons (fun _ => ready_cons rfl) (parted_text_cons rfl parted_singleton)
  unfold headPieces
  split
  · exact parted_append type parted_singleton (ready_cons rfl)
  · exact type

theorem parted_defaultPieces (p : DialectProfile) : (c.defaultPieces p).IsChain Parted := by
  unfold defaultPieces
  split
  · exact parted_nil
  · exact parted_text_cons rfl parted_singleton

theorem ready_defaultPieces (p : DialectProfile) : Ready (c.defaultPieces p) := by
  unfold defaultPieces
  split
  · exact ready_nil
  · exact ready_cons rfl

theorem parted_pieces (p : DialectProfile) : (c.pieces p).IsChain Parted := by
  rw [pieces_eq]
  exact parted_append c.parted_headPieces (c.parted_defaultPieces p) (c.ready_defaultPieces p)

end ColumnDefinition

namespace CreateTable

variable (q : CreateTable)

/-- The text in front of the columns may be followed by anything. -/
theorem parted_headPieces {a : List Piece} (ha : a.IsChain Parted) :
    (q.headPieces ++ a).IsChain Parted := by
  have target : ([ident q.table, text " ("] ++ a).IsChain Parted :=
    parted_cons (fun _ => ready_cons rfl) (parted_text_cons rfl ha)
  rw [headPieces, List.append_assoc, List.append_assoc]
  refine parted_text_cons rfl ?_
  split
  · exact parted_text_cons rfl target
  · exact target

theorem parted_keyPieces (columns : List String) : (keyPieces columns).IsChain Parted := by
  unfold keyPieces
  split
  · exact parted_nil
  · exact parted_append (parted_text_cons rfl (parted_idents _)) parted_singleton
      (ready_cons rfl)

theorem ready_keyPieces (columns : List String) : Ready (keyPieces columns) := by
  unfold keyPieces
  split
  · exact ready_nil
  · exact ready_cons rfl

theorem parted_foreignKey (k : ForeignKey) : k.pieces.IsChain Parted :=
  parted_text_cons rfl (parted_cons (fun _ => ready_cons rfl)
    (parted_text_cons rfl (parted_cons (fun _ => ready_cons rfl)
      (parted_text_cons rfl (parted_cons (fun _ => ready_cons rfl)
        parted_singleton)))))

theorem ready_foreignKey (k : ForeignKey) : Ready k.pieces := ready_cons rfl

theorem parted_tailPieces : q.tailPieces.IsChain Parted := by
  refine parted_append ?_ parted_singleton (ready_cons rfl)
  exact parted_append (parted_keyPieces _) (parted_flatMap fun k _ =>
    ⟨parted_foreignKey k, ready_foreignKey k⟩) (ready_flatMap fun k _ => ready_foreignKey k)

theorem ready_tailPieces : Ready q.tailPieces :=
  ready_append (ready_append (ready_keyPieces _) (ready_flatMap fun k _ => ready_foreignKey k))
    (ready_cons rfl)

theorem parted_pieces (p : DialectProfile) : (q.pieces p).IsChain Parted := by
  rw [pieces_eq, List.append_assoc]
  exact q.parted_headPieces (parted_append (parted_listed fun c _ => c.parted_pieces p)
    q.parted_tailPieces q.ready_tailPieces)

end CreateTable

namespace Statement

/-- **The pieces of a statement are parted.** -/
theorem parted_pieces (p : DialectProfile) (s : Statement) : (s.pieces p).IsChain Parted := by
  cases s with
  | select q => exact q.parted_pieces p
  | insert q => exact q.parted_pieces p
  | update q => exact q.parted_pieces p
  | delete q => exact q.parted_pieces p
  | createTable q => exact q.parted_pieces p

/-- **The pieces of a statement are spaced.** -/
theorem spaced_pieces (p : DialectProfile) (s : Statement) : (s.pieces p).IsChain Spaced :=
  (s.parted_pieces p).imp fun _ _ h open_ => h (isLoose_of_isOpen open_)

end Statement

end BoundSql
