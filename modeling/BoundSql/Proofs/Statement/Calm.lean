import BoundSql.Proofs.Rules.Names
import BoundSql.Proofs.Statement.Benign
import BoundSql.Proofs.Statement.Pieces
import BoundSql.Render

/-!
# Accepted statements on rows are calm

Every piece of a statement on rows that the rules accept is *calm*: its fixed texts are inert and
raise no warning, and every name it writes was accepted by a rule for names
(`Statement.calm_of_check`). Texts that limit rows hold numerals, which are calm because they are
not negative and stand behind the word they belong to (`calm_numeral`).
-/

namespace BoundSql

/-- The words that raise a warning wherever they stand. -/
def alarms : List String := ["drop", "truncate", "union"]

namespace Piece

variable {P : Piece → Prop} {a b : List Piece} {r : Rules} {s t : String}

/-! ## Pieces in a row -/

theorem forall_nil : ∀ x ∈ ([] : List Piece), P x := fun _ h => absurd h List.not_mem_nil

theorem forall_cons {x : Piece} (hx : P x) (ha : ∀ y ∈ a, P y) : ∀ y ∈ x :: a, P y :=
  List.forall_mem_cons.mpr ⟨hx, ha⟩

theorem forall_append (ha : ∀ x ∈ a, P x) (hb : ∀ x ∈ b, P x) : ∀ x ∈ a ++ b, P x :=
  List.forall_mem_append.mpr ⟨ha, hb⟩

theorem forall_flatMap {α : Type} {f : α → List Piece} {xs : List α}
    (h : ∀ x ∈ xs, ∀ y ∈ f x, P y) : ∀ y ∈ xs.flatMap f, P y := by
  intro y hy
  obtain ⟨x, hx, hy⟩ := List.mem_flatMap.mp hy
  exact h x hx y hy

theorem forall_separated {α : Type} {f : α → List Piece} {xs : List α} (hs : P (text s))
    (h : ∀ x ∈ xs, ∀ y ∈ f x, P y) : ∀ y ∈ separated s (xs.map f), P y := by
  intro y hy
  rcases Text.mem_intercalate hy with rfl | ⟨g, hg, hy⟩
  · exact hs
  · obtain ⟨x, hx, rfl⟩ := List.mem_map.mp hg
    exact h x hx y hy

/-! ## Calm pieces -/

/-- Fixed text is inert and raises no warning, and names are accepted. -/
def Calm (r : Rules) : Piece → Prop
  | text s => Inert s.toList ∧ Benign alarms s.toList
  | ident name => r.Admits name
  | bind _ => True

theorem Calm.plain {x : Piece} (h : x.Calm r) : x.Plain := by
  cases x with
  | text s => exact h.1
  | ident name => exact Rules.Admits.isName h
  | bind v => trivial

/-- Whether a fixed text is inert and raises no warning. -/
def settled (s : String) : Bool :=
  s.toList.all (fun x => decide (Unmarked x ∧ x ≠ '-' ∧ x.toNat < 128 ∧ x.isDigit = false)) &&
    (Text.wholeWords s.toList).all fun w => alarms.all fun k => w.map Text.caseFold != k.toList

/-- A fixed text is calm if a computation finds it so. -/
theorem calm_fixed (h : settled s = true) : (text s).Calm r := by
  obtain ⟨characters, words⟩ := Bool.and_eq_true_iff.mp h
  have all := Text.forall_mem_of_all characters
  refine ⟨inert_of_forall fun x hx => ⟨(all x hx).1, (all x hx).2.1⟩, benign_of_all ?_ words⟩
  refine List.all_eq_true.mpr fun x hx => decide_eq_true ?_
  obtain ⟨unmarked, hyphen, ascii, digit⟩ := all x hx
  exact ⟨unsuspicious_of_unmarked unmarked hyphen ascii, digit⟩

theorem calm_append (hs : (text s).Calm r) (ht : (text t).Calm r)
    (space : t.toList.head? = some ' ') : (text (s ++ t)).Calm r := by
  have apart : Text.Apart s.toList t.toList := .inr fun x hx => by
    rw [space, Option.mem_some_iff] at hx
    rw [← hx]
    decide
  rw [Calm, String.toList_append]
  exact ⟨hs.1.append ht.1, hs.2.append ht.2 apart⟩

/-- Whether a numeral may follow a text: a space comes last, and before it something visible that
nothing is compared behind. -/
def counting (s : String) : Bool :=
  s.toList.getLast? == some ' ' && (lastVisible? s.toList).any fun x => decide (¬Compares x)

theorem counting_iff : counting s = true ↔ s.toList.getLast? = some ' ' ∧ Counts s.toList := by
  simp only [counting, Counts, Bool.and_eq_true, beq_iff_eq, Option.any_eq_true, Option.mem_def,
    decide_eq_true_eq]

theorem counting_append (s : String) (h : counting t = true) : counting (s ++ t) = true := by
  obtain ⟨space, counts⟩ := counting_iff.mp h
  rw [counting_iff, String.toList_append, List.getLast?_append, space]
  exact ⟨rfl, counts.append_left s.toList⟩

/-- **A numeral that is not negative is calm** behind a word that it counts for. -/
theorem calm_numeral (hs : (text s).Calm r) (h : counting s = true) {n : Int} (hn : 0 ≤ n) :
    (text (s ++ toString n)).Calm r := by
  obtain ⟨n, rfl⟩ := Int.eq_ofNat_of_zero_le hn
  obtain ⟨space, counts⟩ := counting_iff.mp h
  obtain ⟨d, ds, hd, digits⟩ := PlaceholderStyle.exists_digits n
  have text : (toString (n : Int)).toList = (toString n).toList := rfl
  rw [Calm, String.toList_append, text]
  refine ⟨hs.1.append (inert_toString_nat n), hs.2.word ?_ ?_ (isPart_of_mem_toString_nat n) ?_ ?_⟩
  · intro x hx
    rw [space, Option.mem_some_iff] at hx
    rw [← hx]
    decide
  · rw [hd]
    exact List.cons_ne_nil d ds
  · exact fun _ _ _ => Or.inr counts
  · have letters : ∀ k ∈ alarms, k.toList.all (!·.isDigit) = true := by decide
    have first : d ∈ (toString n).toList := hd ▸ List.mem_cons_self
    exact fun k hk => map_caseFold_ne_of_isDigit first (digits d List.mem_cons_self) (letters k hk)

theorem forall_calm_listed {α : Type} {f : α → List Piece} {xs : List α}
    (h : ∀ x ∈ xs, ∀ y ∈ f x, y.Calm r) : ∀ y ∈ listed (xs.map f), y.Calm r :=
  forall_separated (calm_fixed rfl) h

theorem forall_calm_joined {α : Type} {f : α → List Piece} {xs : List α}
    (h : ∀ x ∈ xs, ∀ y ∈ f x, y.Calm r) : ∀ y ∈ separated " AND " (xs.map f), y.Calm r :=
  forall_separated (calm_fixed rfl) h

theorem forall_calm_idents {names : List String} (h : ∀ name ∈ names, r.Admits name) :
    ∀ y ∈ idents names, y.Calm r :=
  forall_calm_listed fun name hn => forall_cons (h name hn) forall_nil

theorem forall_calm_binds (vs : List Value) : ∀ v ∈ vs, ∀ y ∈ [bind v], y.Calm r :=
  fun _ _ => forall_cons trivial forall_nil

end Piece

open Piece

variable {r : Rules}

/-! ## Expressions, conditions and tables -/

theorem Expr.calm_of_check {e : Expr} (h : r.checkExpr e = .ok ()) : ∀ x ∈ e.pieces, x.Calm r := by
  cases e with
  | column name => exact forall_cons (.column h) forall_nil
  | aggregate function distinct column? =>
    have name : (text function.text).Calm r := calm_fixed (by cases function <;> decide)
    refine forall_append (forall_append (forall_append ?_ ?_) ?_) ?_
    · exact forall_cons name (forall_cons (calm_fixed rfl) forall_nil)
    · split
      · exact forall_cons (calm_fixed rfl) forall_nil
      · exact forall_nil
    · cases column? with
      | none => exact forall_cons (calm_fixed rfl) forall_nil
      | some name => exact forall_cons (.column h) forall_nil
    · exact forall_cons (calm_fixed rfl) forall_nil

namespace Condition

theorem forall_calm_operandPieces (c : Condition) : ∀ x ∈ c.operandPieces, x.Calm r := by
  unfold operandPieces
  split
  · exact forall_nil
  · exact forall_nil
  · exact forall_append (forall_cons (calm_fixed rfl)
      (forall_calm_listed (forall_calm_binds _)))
      (forall_cons (calm_fixed rfl) forall_nil)
  · exact forall_append (forall_cons (calm_fixed rfl)
      (forall_calm_listed (forall_calm_binds _)))
      (forall_cons (calm_fixed rfl) forall_nil)
  · exact forall_cons (calm_fixed rfl) (forall_calm_joined (forall_calm_binds _))

theorem calm_of_check {c : Condition} (h : r.checkCondition c = .ok ()) :
    ∀ x ∈ c.pieces, x.Calm r := by
  have operator : (text c.operator.text).Calm r := calm_fixed (by cases c.operator <;> decide)
  rw [Rules.checkCondition, bind_eq_ok_iff] at h
  rw [pieces]
  refine forall_append (forall_append (Expr.calm_of_check h.1) ?_)
    c.forall_calm_operandPieces
  exact forall_cons (calm_fixed rfl) (forall_cons operator forall_nil)

theorem calm_clause {keyword : String} (hk : (text keyword).Calm r) {conditions : List Condition}
    (h : r.checkConditions conditions = .ok ()) : ∀ x ∈ clause keyword conditions, x.Calm r := by
  unfold clause
  split
  · exact forall_nil
  · exact forall_cons (calm_fixed rfl) (forall_cons hk
      (forall_cons (calm_fixed rfl)
        (forall_calm_joined fun c hc => calm_of_check (judgeAll_eq_ok_iff.mp h c hc))))

end Condition

theorem calm_aliasPieces {introduction : String} (hi : (text introduction).Calm r)
    {as? : Option String} (h : r.checkOptionalAlias as? = .ok ()) :
    ∀ x ∈ aliasPieces introduction as?, x.Calm r := by
  cases as? with
  | none => exact forall_nil
  | some name =>
    exact forall_cons hi
      (forall_cons (.given h) forall_nil)

theorem TableRef.calm_of_check {t : TableRef} (h : r.checkTableRef t = .ok ()) :
    ∀ x ∈ t.pieces, x.Calm r := by
  rw [Rules.checkTableRef, bind_eq_ok_iff] at h
  exact forall_cons (.table h.1)
    (calm_aliasPieces (calm_fixed rfl) h.2)

theorem calm_returningPieces {columns : List String} (h : r.checkColumns columns = .ok ())
    (p : DialectProfile) : ∀ x ∈ returningPieces p columns, x.Calm r := by
  unfold returningPieces
  split
  · exact forall_nil
  · exact forall_cons (calm_fixed rfl)
      (forall_calm_idents (Rules.admits_of_checkColumns h))

/-! ## SELECT -/

namespace Select

theorem calm_itemPieces {item : SelectItem} (h : r.checkItem item = .ok ()) :
    ∀ x ∈ itemPieces item, x.Calm r := by
  cases item with
  | wildcard qualifier =>
    cases qualifier with
    | none => exact forall_cons (calm_fixed rfl) forall_nil
    | some name =>
      exact forall_cons (.column h)
        (forall_cons (calm_fixed rfl) forall_nil)
  | expr e as? =>
    rw [Rules.checkItem, bind_eq_ok_iff] at h
    exact forall_append (Expr.calm_of_check h.1)
      (calm_aliasPieces (calm_fixed rfl) h.2)

theorem calm_itemsPieces {items : List SelectItem} (h : judgeAll r.checkItem items = .ok ()) :
    ∀ x ∈ itemsPieces items, x.Calm r := by
  unfold itemsPieces
  split
  · exact forall_cons (calm_fixed rfl) forall_nil
  · exact forall_calm_listed fun item hi => calm_itemPieces (judgeAll_eq_ok_iff.mp h item hi)

theorem calm_pairPieces {pair : String × String} (h : r.checkPair pair = .ok ()) :
    ∀ x ∈ pairPieces pair, x.Calm r := by
  rw [Rules.checkPair, bind_eq_ok_iff] at h
  exact forall_cons (.column h.1)
    (forall_cons (calm_fixed rfl)
      (forall_cons (.column h.2) forall_nil))

theorem calm_joinPieces {j : Join} (h : r.checkJoin j = .ok ()) : ∀ x ∈ joinPieces j, x.Calm r := by
  have kind : (text j.kind.text).Calm r := calm_fixed (by cases j.kind <;> decide)
  rw [Rules.checkJoin, bind_eq_ok_iff, bind_eq_ok_iff] at h
  rw [joinPieces]
  refine forall_append (forall_append (forall_append ?_
    (TableRef.calm_of_check h.1)) ?_) ?_
  · exact forall_cons (calm_fixed rfl) (forall_cons kind
      (forall_cons (calm_fixed rfl) forall_nil))
  · exact forall_cons (calm_fixed rfl) forall_nil
  · exact forall_calm_joined fun pair hp => calm_pairPieces (judgeAll_eq_ok_iff.mp h.2.2 pair hp)

theorem calm_groupPieces {groups : List String} (h : r.checkColumns groups = .ok ()) :
    ∀ x ∈ groupPieces groups, x.Calm r := by
  unfold groupPieces
  split
  · exact forall_nil
  · exact forall_cons (calm_fixed rfl)
      (forall_calm_idents (Rules.admits_of_checkColumns h))

theorem calm_orderPieces {orders : List (String × Direction)}
    (h : r.checkColumns (orders.map (·.1)) = .ok ()) : ∀ x ∈ orderPieces orders, x.Calm r := by
  unfold orderPieces
  split
  · exact forall_nil
  · refine forall_cons (calm_fixed rfl) (forall_calm_listed fun o ho => ?_)
    have direction : (text o.2.text).Calm r := calm_fixed (by cases o.2 <;> decide)
    have name := Rules.admits_of_checkColumns h o.1 (List.mem_map.mpr ⟨o, ho, rfl⟩)
    exact forall_cons name (forall_cons (calm_fixed rfl)
      (forall_cons direction forall_nil))

/-- Accepted limits and offsets are not negative. -/
theorem nonneg_of_checkRowRange {n : Int} {offset : Option Int}
    (h : r.checkRowRange (some n) offset = .ok ()) : 0 ≤ n ∧ ∀ m ∈ offset, 0 ≤ m := by
  have limit : r.checkLimit n = .ok () → 0 ≤ n := by
    intro h
    obtain ⟨_, valid⟩ := Rules.require_eq_ok_iff.mp h
    exact Int.le_trans (by decide) (Bounds.validateInteger_eq_ok_iff.mp valid).2.1
  cases offset with
  | none => exact ⟨limit h, fun _ hm => absurd hm (by simp)⟩
  | some m =>
    rw [Rules.checkRowRange, bind_eq_ok_iff] at h
    obtain ⟨_, valid⟩ := Rules.require_eq_ok_iff.mp h.2
    refine ⟨limit h.1, fun m' hm => ?_⟩
    rw [← Option.mem_some_iff.mp hm]
    exact (Bounds.validateInteger_eq_ok_iff.mp valid).2.1

theorem calm_limitHead (limits : LimitSyntax) {q : Select}
    (h : r.checkRowRange q.rowLimit q.rowOffset = .ok ()) :
    ∀ x ∈ limitHead limits q, x.Calm r := by
  unfold limitHead
  split
  · rename_i n limit _
    rw [limit] at h
    exact forall_cons (calm_append (calm_numeral (calm_fixed rfl) rfl (nonneg_of_checkRowRange h).1)
      (calm_fixed rfl) rfl) forall_nil
  · exact forall_nil

theorem calm_limitTail (limits : LimitSyntax) {q : Select}
    (h : r.checkRowRange q.rowLimit q.rowOffset = .ok ()) :
    ∀ x ∈ limitTail limits q, x.Calm r := by
  -- a first numeral, and one behind more text
  have one : ∀ {s : String} {n : Int}, settled s = true → counting s = true → 0 ≤ n →
      (text (s ++ toString n)).Calm r := fun hs hc hn => calm_numeral (calm_fixed hs) hc hn
  have more : ∀ {s t : String} {n : Int}, (text s).Calm r → settled t = true →
      t.toList.head? = some ' ' → counting t = true → 0 ≤ n →
      (text (s ++ t ++ toString n)).Calm r := fun hs ht space hc hn =>
    calm_numeral (calm_append hs (calm_fixed ht) space) (counting_append _ hc) hn
  have behind : ∀ {s t : String}, (text s).Calm r → settled t = true →
      t.toList.head? = some ' ' → (text (s ++ t)).Calm r := fun hs ht space =>
    calm_append hs (calm_fixed ht) space
  unfold limitTail
  split
  · exact forall_nil
  · rename_i n limit _
    rw [limit] at h
    exact forall_cons (one rfl rfl (nonneg_of_checkRowRange h).1) forall_nil
  · rename_i n m limit offset
    rw [limit, offset] at h
    obtain ⟨hn, hm⟩ := nonneg_of_checkRowRange h
    exact forall_cons (more (one rfl rfl hn) rfl rfl rfl (hm m rfl)) forall_nil
  · exact forall_nil
  · rename_i n m limit offset
    rw [limit, offset] at h
    obtain ⟨hn, hm⟩ := nonneg_of_checkRowRange h
    refine forall_append ?_ (forall_cons
      (behind (more (one rfl rfl (hm m rfl)) rfl rfl rfl hn) rfl rfl) forall_nil)
    split
    · exact forall_cons (calm_fixed rfl) forall_nil
    · exact forall_nil
  · rename_i n limit _
    rw [limit] at h
    exact forall_cons (behind (one rfl rfl (nonneg_of_checkRowRange h).1) rfl rfl) forall_nil
  · rename_i n m limit offset
    rw [limit, offset] at h
    obtain ⟨hn, hm⟩ := nonneg_of_checkRowRange h
    exact forall_cons (behind (one rfl rfl (hm m rfl)) rfl rfl)
      (forall_cons (behind (one rfl rfl hn) rfl rfl) forall_nil)

theorem calm_of_check {q : Select} (h : r.checkSelect q = .ok ()) (p : DialectProfile) :
    ∀ x ∈ q.pieces p, x.Calm r := by
  simp only [Rules.checkSelect, Rules.checkSelection, Rules.checkClauses, bind_eq_ok_iff] at h
  obtain ⟨⟨-, items⟩, tables, joins, conditions, groups, groupConditions, orders, range⟩ := h
  have opening : ∀ x ∈ q.opening, x.Calm r := by
    refine forall_cons (calm_fixed rfl) ?_
    split
    · exact forall_cons (calm_fixed rfl) forall_nil
    · exact forall_nil
  have body : ∀ x ∈ q.body, x.Calm r := by
    refine forall_append ?_ (calm_orderPieces orders)
    refine forall_append ?_ (Condition.calm_clause (calm_fixed rfl) groupConditions)
    refine forall_append ?_ (calm_groupPieces groups)
    refine forall_append ?_ (Condition.calm_clause (calm_fixed rfl) conditions)
    refine forall_append ?_ (forall_flatMap fun j hj =>
      calm_joinPieces (judgeAll_eq_ok_iff.mp joins j hj))
    refine forall_append ?_ (forall_calm_listed fun t ht =>
      TableRef.calm_of_check (judgeAll_eq_ok_iff.mp tables t ht))
    exact forall_append (calm_itemsPieces items)
      (forall_cons (calm_fixed rfl) forall_nil)
  exact forall_append (forall_append (forall_append opening
    (calm_limitHead _ range)) body) (calm_limitTail _ range)

end Select

/-! ## INSERT, UPDATE and DELETE -/

theorem admits_of_checkTarget {kind : StatementKind} {table : String}
    (h : r.checkTarget kind table = .ok ()) : r.Admits table := by
  rw [Rules.checkTarget, bind_eq_ok_iff] at h
  exact .table h.2

theorem Insert.calm_of_check {q : Insert} (h : r.checkInsert q = .ok ()) (p : DialectProfile) :
    ∀ x ∈ q.pieces p, x.Calm r := by
  simp only [Rules.checkInsert, bind_eq_ok_iff] at h
  obtain ⟨target, -, columns, -, -, returned⟩ := h
  have row : ∀ vs ∈ q.rows, ∀ x ∈ rowPieces vs, x.Calm r := fun vs _ =>
    forall_append (forall_cons (calm_fixed rfl)
      (forall_calm_listed (forall_calm_binds vs)))
      (forall_cons (calm_fixed rfl) forall_nil)
  refine forall_append ?_ (calm_returningPieces returned p)
  refine forall_append ?_ (forall_calm_listed row)
  refine forall_append ?_ (forall_cons (calm_fixed rfl) forall_nil)
  refine forall_append ?_ (forall_calm_idents (Rules.admits_of_checkColumns columns))
  exact forall_cons (calm_fixed rfl) (forall_cons
    (admits_of_checkTarget target) (forall_cons (calm_fixed rfl) forall_nil))

theorem Update.calm_of_check {q : Update} (h : r.checkUpdate q = .ok ()) (p : DialectProfile) :
    ∀ x ∈ q.pieces p, x.Calm r := by
  simp only [Rules.checkUpdate, bind_eq_ok_iff] at h
  obtain ⟨target, -, assignments, conditions, returned⟩ := h
  have assignment : ∀ a ∈ q.assignments, ∀ x ∈ assignmentPieces a, x.Calm r := by
    intro a ha
    have := judgeAll_eq_ok_iff.mp assignments a ha
    rw [Rules.checkAssignment, bind_eq_ok_iff] at this
    exact forall_cons (.column this.1)
      (forall_cons (calm_fixed rfl) (forall_cons trivial forall_nil))
  refine forall_append ?_ (calm_returningPieces returned p)
  refine forall_append ?_ (Condition.calm_clause (calm_fixed rfl) conditions)
  refine forall_append ?_ (forall_calm_listed assignment)
  exact forall_cons (calm_fixed rfl) (forall_cons
    (admits_of_checkTarget target) (forall_cons (calm_fixed rfl) forall_nil))

theorem Delete.calm_of_check {q : Delete} (h : r.checkDelete q = .ok ()) (p : DialectProfile) :
    ∀ x ∈ q.pieces p, x.Calm r := by
  simp only [Rules.checkDelete, bind_eq_ok_iff] at h
  obtain ⟨target, conditions, returned⟩ := h
  refine forall_append ?_ (calm_returningPieces returned p)
  refine forall_append ?_ (Condition.calm_clause (calm_fixed rfl) conditions)
  exact forall_cons (calm_fixed rfl)
    (forall_cons (admits_of_checkTarget target) forall_nil)

/-! ## Statements -/

/-- **An accepted statement on rows writes nothing but calm text, accepted names and
placeholders.** -/
theorem Statement.calm_of_check {s : Statement} (h : r.check s = .ok ())
    (rows : s.kind ≠ .createTable) (p : DialectProfile) : ∀ x ∈ s.pieces p, x.Calm r := by
  cases s with
  | select q => exact Select.calm_of_check h p
  | insert q => exact Insert.calm_of_check h p
  | update q => exact Update.calm_of_check h p
  | delete q => exact Delete.calm_of_check h p
  | createTable q => exact absurd rfl rows

end BoundSql
