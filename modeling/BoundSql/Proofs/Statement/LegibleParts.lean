import BoundSql.Proofs.Statement.Legible

/-!
# The parts of statements are legible

Names, tables, expressions, conditions, items, joins and orderings, each with the ways to begin that
must not follow it. A name is over unless a dot and another part follow; a condition is over
wherever its operator has its operands.
-/

namespace BoundSql

open Piece

variable {d : Dialect} {r : Rules}

/-! ## Names -/

/-- How a name would go on. -/
def nameStops : List (List SymbolKind) := [lead "." ++ [.part]]

theorem leads_nameSymbols (name : String) : Leads [.part] (nameSymbols d name) := by
  obtain ⟨part, parts, split⟩ := List.exists_cons_of_ne_nil (Text.splitOn_ne_nil '.' name.toList)
  rw [nameSymbols, split, List.map_cons]
  cases parts with
  | nil => exact List.prefix_rfl
  | cons part' parts =>
    rw [List.map_cons, List.intercalate_cons_cons]
    exact List.prefix_append [SymbolKind.part] _

theorem legible_name : Legible nameStops (fun _ => True) (nameSymbols d) := by
  have part : Legible [] (fun _ => True) fun part =>
      [Symbol.part (d.profile.quoteSegment part)] := by
    intro a b r r' _ _ _ _ e
    rw [List.singleton_append, List.singleton_append, List.cons.injEq, Symbol.part.injEq] at e
    exact ⟨d.profile.quoteSegment_injective e.1, e.2⟩
  have parts := part.joined "."
    (fun a _ => (show Leads [.part] [Symbol.part _] from List.prefix_rfl).chars_append ".") rfl
  intro a b r r' _ _ hr hr' e
  obtain ⟨same, next⟩ := parts ⟨Text.splitOn_ne_nil '.' a.toList, fun _ _ => trivial⟩
    ⟨Text.splitOn_ne_nil '.' b.toList, fun _ _ => trivial⟩ hr hr' e
  have text := congrArg (['.'].intercalate ·) same
  simp only [Text.intercalate_splitOn] at text
  exact ⟨String.toList_inj.mp text, next⟩

theorem symbols_aliasPieces (introduction : String) (as? : Option String) :
    symbols d (aliasPieces introduction as?) =
      as?.elim [] fun name => chars introduction ++ nameSymbols d name := by
  cases as? with
  | none => rfl
  | some name => simp only [aliasPieces, symbols, List.append_nil, Option.elim_some]

theorem leads_introduced (introduction name : String) :
    ∃ k ∈ [lead introduction ++ [.part]], Leads k (chars introduction ++ nameSymbols d name) :=
  ⟨_, List.mem_singleton_self _, (leads_nameSymbols name).chars_append introduction⟩

/-- A name behind a word that introduces it, if one is given. -/
theorem legible_aliasPieces (introduction : String) :
    Legible ((lead introduction ++ [.part]) :: nameStops) (fun _ => True) fun as? =>
      symbols d (aliasPieces introduction as?) := by
  have given := (legible_name (d := d)).behind introduction
  exact ((given.option fun name _ => leads_introduced introduction name).congr
    (symbols_aliasPieces introduction)).restrict fun _ _ _ _ => trivial

theorem begins_aliasPieces (introduction : String) (as? : Option String) :
    symbols d (aliasPieces introduction as?) = [] ∨ ∃ k ∈ [lead introduction ++ [.part]],
      Leads k (symbols d (aliasPieces introduction as?)) := by
  rw [symbols_aliasPieces]
  exact Legible.begins_option fun name _ => leads_introduced introduction name

/-! ## Tables -/

/-- How a table would go on. -/
def tableStops : List (List SymbolKind) := (lead " " ++ [.part]) :: nameStops

theorem legible_table : Legible tableStops (fun _ => True) fun t : TableRef =>
    symbols d t.pieces := by
  rintro ⟨a, as?⟩ ⟨b, bs?⟩ r r' _ _ hr hr' e
  simp only [TableRef.pieces, symbols, List.append_assoc] at e
  have stops : ∀ k ∈ nameStops, k ∈ tableStops := fun _ hk => List.mem_cons_of_mem _ hk
  obtain ⟨name, e₁⟩ := legible_name trivial trivial
    ((hr.of_subset stops).append (begins_aliasPieces " " as?) rfl)
    ((hr'.of_subset stops).append (begins_aliasPieces " " bs?) rfl) e
  obtain ⟨as, next⟩ := legible_aliasPieces " " trivial trivial hr hr' e₁
  exact ⟨by rw [name, as], next⟩

/-! ## Expressions -/

/-- How an expression begins. -/
def exprLeads : List (List SymbolKind) :=
  [[.part], lead "COUNT(", lead "SUM(", lead "AVG(", lead "MIN(", lead "MAX("]

theorem leads_expr (e : Expr) : ∃ k ∈ exprLeads, Leads k (symbols d e.pieces) := by
  cases e with
  | column name =>
    refine ⟨[.part], List.mem_cons_self, ?_⟩
    simpa only [Expr.pieces, symbols, List.append_nil] using leads_nameSymbols name
  | aggregate function distinct column? =>
    have known : lead (function.text ++ "(") ∈ exprLeads := by cases function <;> decide
    refine ⟨_, known, ?_⟩
    simp only [Expr.pieces, List.cons_append, List.nil_append, symbols, ← List.append_assoc]
    rw [← chars_append, List.append_assoc]
    exact leads_chars _ _

/-- What an aggregate is over: a column, or whole rows. -/
def overSymbols (d : Dialect) : Option String → List Symbol
  | some name => nameSymbols d name
  | none => chars "*"

theorem legible_over : Legible nameStops (fun _ => True) (overSymbols d) := by
  have star : ∀ name r r', nameSymbols d name ++ r ≠ chars "*" ++ r' := by
    intro name r r' e
    have lead := (leads_nameSymbols (d := d) name).append r
    rw [e] at lead
    exact (leads_chars "*" r').not_leads rfl lead
  rintro (_ | a) (_ | b) r r' _ _ hr hr' e
  · exact ⟨rfl, List.append_cancel_left e⟩
  · exact absurd e.symm (star b r' r)
  · exact absurd e (star a r r')
  · obtain ⟨name, next⟩ := legible_name trivial trivial hr hr' e
    exact ⟨by rw [name], next⟩

/-- What stands between the parentheses of an aggregate. -/
def insideSymbols (d : Dialect) (inside : Bool × Option String) : List Symbol :=
  (if inside.1 then chars "DISTINCT " else []) ++ overSymbols d inside.2

theorem legible_inside : Legible nameStops (fun _ => True) (insideSymbols d) := by
  have begun : ∀ o r, Begins [[.part], lead "*"] (overSymbols d o ++ r) := by
    intro o r
    cases o with
    | none => exact Or.inr ⟨_, List.mem_cons_of_mem _ (List.mem_singleton_self _), leads_chars _ _⟩
    | some name => exact Or.inr ⟨_, List.mem_cons_self, (leads_nameSymbols name).append r⟩
  rintro ⟨a, o⟩ ⟨b, o'⟩ r r' _ _ hr hr' e
  simp only [insideSymbols, List.append_assoc] at e
  obtain ⟨distinct, e₁⟩ := (Legible.flag "DISTINCT ").before rfl trivial trivial (begun o r)
    (begun o' r') e
  obtain ⟨column, next⟩ := legible_over trivial trivial hr hr' e₁
  exact ⟨by rw [distinct, column], next⟩

theorem symbols_aggregate (function : Aggregate) (distinct : Bool) (column? : Option String) :
    symbols d (Expr.aggregate function distinct column?).pieces =
      chars function.text ++ (chars "(" ++ (insideSymbols d (distinct, column?) ++ chars ")")) := by
  cases distinct <;> cases column? <;>
    simp [Expr.pieces, symbols, insideSymbols, overSymbols]

theorem legible_function : Legible [] (fun _ => True) fun f : Aggregate => chars f.text :=
  .code (by intro a b; cases a <;> cases b <;> decide)

theorem legible_expr : Legible nameStops (fun _ => True) fun e : Expr => symbols d e.pieces := by
  have column : ∀ name, symbols d (Expr.column name).pieces = nameSymbols d name := fun name => by
    simp only [Expr.pieces, symbols, List.append_nil]
  have apart : ∀ name function distinct column? r r',
      symbols d (Expr.column name).pieces ++ r ≠
        symbols d (Expr.aggregate function distinct column?).pieces ++ r' := by
    intro name function distinct column? r r' e
    have lead := (leads_nameSymbols (d := d) name).append r
    rw [← column, e, symbols_aggregate, List.append_assoc] at lead
    exact (leads_chars function.text _).not_leads (by cases function <;> rfl) lead
  have stops : ∀ t, Avoids nameStops (chars ")" ++ t) := fun t => avoids_chars rfl t
  rintro (a | ⟨f, i, o⟩) (b | ⟨f', i', o'⟩) r r' _ _ hr hr' e
  · simp only [column] at e
    obtain ⟨name, next⟩ := legible_name trivial trivial hr hr' e
    exact ⟨by rw [name], next⟩
  · exact absurd e (apart a f' i' o' r r')
  · exact absurd e.symm (apart b f i o r' r)
  · simp only [symbols_aggregate, List.append_assoc] at e
    obtain ⟨function, e₁⟩ := legible_function.anywhere trivial trivial e
    obtain ⟨inside, e₂⟩ := legible_inside trivial trivial (stops r) (stops r')
      (List.append_cancel_left e₁)
    obtain ⟨distinct, column⟩ := Prod.mk.inj inside
    exact ⟨by rw [function, distinct, column], List.append_cancel_left e₂⟩

/-! ## Rows -/

/-- Values in parentheses. -/
def rowSymbols (vs : List Value) : List Symbol :=
  chars "(" ++ ((chars ", ").intercalate (vs.map fun v => [.value v]) ++ chars ")")

theorem legible_row : Legible [] (fun vs : List Value => vs ≠ []) rowSymbols := by
  have values := Legible.value.joined ", " (fun v _ => leads_chars ", " [.value v]) rfl
  have closed : ∀ t, Avoids [lead ", "] (chars ")" ++ t) := fun t => avoids_chars rfl t
  intro vs ws r r' hv hw _ _ e
  simp only [rowSymbols, List.append_assoc] at e
  obtain ⟨same, next⟩ := values ⟨hv, fun _ _ => trivial⟩ ⟨hw, fun _ _ => trivial⟩ (closed r)
    (closed r') (List.append_cancel_left e)
  exact ⟨same, List.append_cancel_left next⟩

/-! ## Conditions -/

namespace Condition

/-- An operator as it is written, with a space behind it if operands follow. -/
def operatorText (op : Operator) : String := op.text ++ if op.arity? = some 0 then "" else " "

/-- The operands as they are written behind an operator. -/
def operandSymbols (op : Operator) (vs : List Value) : List Symbol :=
  match op with
  | .isNull | .isNotNull => []
  | .isIn | .notIn => rowSymbols vs
  | _ => (chars " AND ").intercalate (vs.map fun v => [.value v])

theorem symbols_pieces {c : Condition} (h : Rules.Fits c.operator c.operands.length) :
    symbols d c.pieces = symbols d c.expr.pieces ++ (chars " " ++
      (chars (operatorText c.operator) ++ operandSymbols c.operator c.operands)) := by
  have bound : ∀ s : String, symbols d (separated s (c.operands.map fun v => [bind v])) =
      (chars s).intercalate (c.operands.map fun v => [.value v]) := fun s =>
    symbols_separated d s _ _
  rw [pieces, symbols_append, symbols_append, List.append_assoc]
  congr 1
  rw [operandPieces, referred_of_fits h]
  cases c.operator <;>
    simp [operatorText, operandSymbols, rowSymbols, Operator.arity?, symbols, symbols_append,
      listed, bound, chars_append] <;> rfl

theorem legible_operatorText : Legible [] (fun _ => True) fun op => chars (operatorText op) := by
  have all : ∀ op : Operator, op ∈ Operator.all := fun op => by cases op <;> decide
  have free : ∀ a ∈ Operator.all, ∀ b ∈ Operator.all,
      (operatorText a).toList <+: (operatorText b).toList → a = b := by decide
  exact .code fun a b => free a (all a) b (all b)

theorem legible_operands (op : Operator) :
    Legible [] (fun vs => Rules.Fits op vs.length) (operandSymbols op) := by
  -- An operator with one operand or two has them in a row.
  have row : ∀ n, n = 1 ∨ n = 2 → Legible [] (fun vs : List Value => vs.length = n) fun vs =>
      (chars " AND ").intercalate (vs.map fun v => [.value v]) := by
    rintro n (rfl | rfl) vs ws r r' hv hw - - e
    · obtain ⟨v, rfl⟩ := List.length_eq_one_iff.mp hv
      obtain ⟨w, rfl⟩ := List.length_eq_one_iff.mp hw
      obtain ⟨same, next⟩ := Legible.value.anywhere trivial trivial (by simpa using e)
      exact ⟨by rw [same], next⟩
    · obtain ⟨v, v', rfl⟩ := List.length_eq_two.mp hv
      obtain ⟨w, w', rfl⟩ := List.length_eq_two.mp hw
      simp only [List.map_cons, List.map_nil, List.intercalate_cons_cons,
        List.intercalate_singleton, List.append_assoc] at e
      obtain ⟨first, e₁⟩ := Legible.value.anywhere trivial trivial e
      obtain ⟨second, next⟩ := Legible.value.anywhere trivial trivial (List.append_cancel_left e₁)
      exact ⟨by rw [first, second], next⟩
  have list : Legible [] (fun vs : List Value => 0 < vs.length) rowSymbols :=
    legible_row.restrict fun _ => List.ne_nil_of_length_pos
  have none_left : Legible [] (fun vs : List Value => vs.length = 0) fun _ => [] := by
    intro vs ws r r' hv hw _ _ e
    exact ⟨(List.length_eq_zero_iff.mp hv).trans (List.length_eq_zero_iff.mp hw).symm, e⟩
  cases op with
  | isNull => exact none_left
  | isNotNull => exact none_left
  | isIn => exact list
  | notIn => exact list
  | between => exact row 2 (Or.inr rfl)
  | _ => exact row 1 (Or.inl rfl)

theorem legible_pieces : Legible [] (fun c => r.checkCondition c = .ok ()) fun c : Condition =>
    symbols d c.pieces := by
  rintro ⟨a, op, vs⟩ ⟨b, op', ws⟩ t t' ha hb _ _ e
  have fits := Rules.fits_of_checkCondition ha
  have fits' := Rules.fits_of_checkCondition hb
  simp only [symbols_pieces fits, symbols_pieces fits', List.append_assoc] at e
  obtain ⟨expr, e₁⟩ := legible_expr trivial trivial (avoids_chars rfl _) (avoids_chars rfl _) e
  obtain ⟨rfl, e₂⟩ := legible_operatorText.anywhere trivial trivial (List.append_cancel_left e₁)
  obtain ⟨operands, next⟩ := (legible_operands op).anywhere fits fits' e₂
  exact ⟨by rw [expr, show vs = ws from operands], next⟩

/-- How conditions behind a keyword begin. -/
def clauseLead (keyword : String) : List SymbolKind := lead (" " ++ keyword ++ " ")

theorem symbols_clause (keyword : String) (conditions : List Condition) :
    symbols d (clause keyword conditions) =
      clauseSymbols (" " ++ keyword ++ " ") " AND " (fun c => symbols d c.pieces) conditions := by
  unfold clause clauseSymbols
  cases conditions with
  | nil => rfl
  | cons c conditions =>
    simp only [List.isEmpty_cons, Bool.false_eq_true, if_false, Bool.not_false, if_true,
      List.cons_append, List.nil_append, symbols, symbols_separated, chars_append,
      List.append_assoc]

theorem begins_clause (keyword : String) (conditions : List Condition) :
    symbols d (clause keyword conditions) = [] ∨
      ∃ k ∈ [clauseLead keyword], Leads k (symbols d (clause keyword conditions)) := by
  rw [symbols_clause]
  exact Legible.begins_clauseSymbols fun _ _ => leads_chars _ _

theorem legible_clause (keyword : String) :
    Legible [clauseLead keyword, lead " AND "] (fun cs => r.checkConditions cs = .ok ())
      fun cs => symbols d (clause keyword cs) := by
  have clauses := (legible_pieces (d := d) (r := r)).clause (" " ++ keyword ++ " ") " AND "
    (fun _ _ => leads_chars _ _) (fun _ _ => leads_chars _ _) rfl
  exact (clauses.congr (symbols_clause keyword)).restrict fun _ => judgeAll_eq_ok_iff.mp

end Condition

/-! ## Lists of names -/

theorem symbols_idents (names : List String) :
    symbols d (idents names) = (chars ", ").intercalate (names.map (nameSymbols d)) := by
  have one : (fun name => symbols d [ident name]) = nameSymbols d := by
    funext name
    exact List.append_nil _
  rw [idents, listed, symbols_separated, one]

theorem legible_idents : Legible (lead ", " :: nameStops) (fun names : List String => names ≠ [])
    fun names => symbols d (idents names) := by
  have names := (legible_name (d := d)).joined ", " (fun _ _ => leads_chars _ _) rfl
  exact (names.congr symbols_idents).restrict fun _ h => ⟨h, fun _ _ => trivial⟩

/-- Names behind a word, or nothing without names. -/
theorem legible_names (start : String) :
    Legible (lead start :: lead ", " :: nameStops) (fun _ => True)
      (clauseSymbols start ", " (nameSymbols d)) :=
  (legible_name.clause start ", " (fun _ _ => leads_chars _ _) (fun _ _ => leads_chars _ _)
    rfl).restrict fun _ _ _ _ => trivial

/-! ## Select lists -/

namespace Select

/-- How an item would go on. -/
def itemStops : List (List SymbolKind) := (lead " AS " ++ [.part]) :: lead ".*" :: nameStops

theorem symbols_qualified (name : String) :
    symbols d (itemPieces (.wildcard (some name))) = nameSymbols d name ++ chars ".*" := by
  simp only [itemPieces, symbols, List.append_nil]

theorem symbols_item (e : Expr) (as? : Option String) : symbols d (itemPieces (.expr e as?)) =
    symbols d e.pieces ++ symbols d (aliasPieces " AS " as?) :=
  symbols_append d _ _

/-- All columns of a table are not taken for one column. -/
theorem qualified_ne_item (name : String) (e : Expr) (as? : Option String) {t t' : List Symbol}
    (ht : Avoids itemStops t') : symbols d (itemPieces (.wildcard (some name))) ++ t ≠
      symbols d (itemPieces (.expr e as?)) ++ t' := by
  intro h
  rw [symbols_qualified, symbols_item, List.append_assoc, List.append_assoc] at h
  cases e with
  | column other =>
    -- Behind the name there is a star on the left, and none on the right.
    have stops : ∀ k ∈ lead ".*" :: nameStops, k ∈ itemStops := fun _ hk =>
      List.mem_cons_of_mem _ hk
    have after := (ht.of_subset stops).append (begins_aliasPieces (d := d) " AS " as?) (by decide)
    rw [Expr.pieces, symbols, symbols, List.append_nil] at h
    obtain ⟨-, rest⟩ := legible_name trivial trivial (avoids_chars rfl t)
      (after.of_subset fun _ hk => List.mem_cons_of_mem _ hk) h
    exact after _ List.mem_cons_self (rest ▸ leads_chars ".*" t)
  | aggregate function distinct column? =>
    have lead := (leads_nameSymbols (d := d) name).append (chars ".*" ++ t)
    rw [h, symbols_aggregate, List.append_assoc] at lead
    exact (leads_chars function.text _).not_leads (by cases function <;> rfl) lead

/-- The star alone is not taken for anything else. -/
theorem star_ne_item {item : SelectItem} (other : item ≠ .wildcard none) (t t' : List Symbol) :
    symbols d (itemPieces (.wildcard none)) ++ t ≠ symbols d (itemPieces item) ++ t' := by
  intro h
  have star : Leads (lead "*") (symbols d (itemPieces (.wildcard none)) ++ t) := by
    simpa only [itemPieces, symbols, List.append_nil] using leads_chars "*" t
  have others : ∃ k ∈ exprLeads, Leads k (symbols d (itemPieces item)) := by
    rcases item with (_ | name) | ⟨e, as?⟩
    · exact absurd rfl other
    · rw [symbols_qualified]
      exact ⟨[.part], List.mem_cons_self, (leads_nameSymbols name).append _⟩
    · rw [symbols_item]
      obtain ⟨k, hk, lead⟩ := leads_expr (d := d) e
      exact ⟨k, hk, lead.append _⟩
  obtain ⟨k, hk, lead⟩ := others
  have free : apart [BoundSql.lead "*"] exprLeads = true := by decide
  exact (lead.append t').not_leads (apart_of_mem free (List.mem_singleton_self _) hk) (h ▸ star)

theorem legible_item : Legible itemStops (fun _ => True) fun i => symbols d (itemPieces i) := by
  have aliasStops : ∀ k ∈ (lead " AS " ++ [.part]) :: nameStops, k ∈ itemStops := by decide
  have nameStops : ∀ k ∈ nameStops, k ∈ itemStops := by decide
  rintro ((_ | a) | ⟨a, as?⟩) ((_ | b) | ⟨b, bs?⟩) t t' _ _ ht ht' e
  · exact ⟨rfl, List.append_cancel_left e⟩
  · exact absurd e (star_ne_item (by simp) t t')
  · exact absurd e (star_ne_item (by simp) t t')
  · exact absurd e.symm (star_ne_item (by simp) t' t)
  · simp only [symbols_qualified, List.append_assoc] at e
    obtain ⟨name, next⟩ := legible_name trivial trivial (avoids_chars rfl t) (avoids_chars rfl t') e
    exact ⟨by rw [name], List.append_cancel_left next⟩
  · exact absurd e (qualified_ne_item a b bs? ht')
  · exact absurd e.symm (star_ne_item (by simp) t' t)
  · exact absurd e.symm (qualified_ne_item b a as? ht)
  · simp only [symbols_item, List.append_assoc] at e
    obtain ⟨expr, e₁⟩ := legible_expr trivial trivial
      ((ht.of_subset nameStops).append (begins_aliasPieces " AS " as?) rfl)
      ((ht'.of_subset nameStops).append (begins_aliasPieces " AS " bs?) rfl) e
    obtain ⟨as, next⟩ := legible_aliasPieces " AS " trivial trivial (ht.of_subset aliasStops)
      (ht'.of_subset aliasStops) e₁
    exact ⟨by rw [expr, as], next⟩

/-! ## Joins -/

theorem legible_pair : Legible nameStops (fun _ => True) fun pair =>
    symbols d (pairPieces pair) := by
  rintro ⟨a, a'⟩ ⟨b, b'⟩ r r' _ _ hr hr' e
  simp only [pairPieces, symbols, List.append_assoc, List.nil_append] at e
  obtain ⟨left, e₁⟩ := legible_name trivial trivial (avoids_chars rfl _) (avoids_chars rfl _) e
  obtain ⟨right, next⟩ := legible_name trivial trivial hr hr' (List.append_cancel_left e₁)
  exact ⟨by rw [left, right], next⟩

/-- A kind of join with spaces around it. -/
def joinText (kind : JoinKind) : String := " " ++ kind.text ++ " "

/-- How joins begin. -/
def joinLeads : List (List SymbolKind) :=
  [lead " INNER JOIN ", lead " LEFT JOIN ", lead " RIGHT JOIN ", lead " FULL JOIN "]

theorem symbols_joinPieces (j : Join) : symbols d (joinPieces j) =
    chars (joinText j.kind) ++ (symbols d j.table.pieces ++ (chars " ON " ++
      (chars " AND ").intercalate (j.pairs.map fun pair => symbols d (pairPieces pair)))) := by
  simp only [joinPieces, joinText, symbols_append, symbols, symbols_separated, chars_append,
    List.append_assoc, List.nil_append]

theorem leads_joinPieces (j : Join) : ∃ k ∈ joinLeads, Leads k (symbols d (joinPieces j)) := by
  rw [symbols_joinPieces]
  refine ⟨lead (joinText j.kind), ?_, leads_chars _ _⟩
  cases j.kind <;> decide

theorem legible_join : Legible (lead " AND " :: nameStops) (fun j => r.checkJoin j = .ok ())
    fun j => symbols d (joinPieces j) := by
  have kind : Legible [] (fun _ => True) fun kind => chars (joinText kind) :=
    .code (by intro a b; cases a <;> cases b <;> decide)
  have pairs := (legible_pair (d := d)).joined " AND " (fun _ _ => leads_chars _ _) rfl
  have some_pairs : ∀ {j : Join}, r.checkJoin j = .ok () → j.pairs ≠ [] := by
    intro j h empty
    simp only [Rules.checkJoin, bind_eq_ok_iff, Rules.needs_eq_ok_iff, empty] at h
    exact absurd h.2.1 (by decide)
  rintro ⟨k, t, ps⟩ ⟨k', t', ps'⟩ s s' ha hb hs hs' e
  simp only [symbols_joinPieces, List.append_assoc] at e
  obtain ⟨kinds, e₁⟩ := kind.anywhere trivial trivial e
  obtain ⟨tables, e₂⟩ := legible_table trivial trivial (avoids_chars rfl _) (avoids_chars rfl _) e₁
  obtain ⟨same, next⟩ := pairs ⟨some_pairs ha, fun _ _ => trivial⟩
    ⟨some_pairs hb, fun _ _ => trivial⟩ hs hs' (List.append_cancel_left e₂)
  exact ⟨by rw [kinds, tables, show ps = ps' from same], next⟩

theorem legible_joins : Legible (joinLeads ++ lead " AND " :: nameStops)
    (fun js => judgeAll r.checkJoin js = .ok ())
    fun js : List Join => symbols d (js.flatMap joinPieces) := by
  have joins := (legible_join (d := d) (r := r)).repeated (fun j _ => leads_joinPieces j)
    (by decide)
  exact (joins.congr (symbols_flatMap d joinPieces)).restrict fun _ => judgeAll_eq_ok_iff.mp

theorem begins_joins (js : List Join) : symbols d (js.flatMap joinPieces) = [] ∨
    ∃ k ∈ joinLeads, Leads k (symbols d (js.flatMap joinPieces)) := by
  rw [symbols_flatMap]
  exact Legible.begins_flatMap fun j _ => leads_joinPieces j

/-! ## Orderings -/

theorem legible_order : Legible [] (fun _ => True) fun o : String × Direction =>
    symbols d [ident o.1, text " ", text o.2.text] := by
  have direction : Legible [] (fun _ => True) fun o : Direction => chars o.text :=
    .code (by intro a b; cases a <;> cases b <;> decide)
  rintro ⟨a, o⟩ ⟨b, o'⟩ r r' _ _ hr hr' e
  simp only [symbols, List.append_assoc, List.nil_append] at e
  obtain ⟨name, e₁⟩ := legible_name trivial trivial (avoids_chars rfl _) (avoids_chars rfl _) e
  obtain ⟨same, next⟩ := direction trivial trivial hr hr' (List.append_cancel_left e₁)
  exact ⟨by rw [name, same], next⟩

/-- How an ordering begins. -/
def orderLead : List SymbolKind := lead " ORDER BY " ++ [.part]

theorem symbols_orderPieces (orders : List (String × Direction)) :
    symbols d (orderPieces orders) = clauseSymbols " ORDER BY " ", "
      (fun o => symbols d [ident o.1, text " ", text o.2.text]) orders := by
  unfold orderPieces clauseSymbols
  cases orders with
  | nil => rfl
  | cons o orders =>
    simp only [List.isEmpty_cons, Bool.false_eq_true, if_false, Bool.not_false, if_true, symbols,
      listed, symbols_separated]

theorem leads_order (o : String × Direction) :
    Leads orderLead (chars " ORDER BY " ++ symbols d [ident o.1, text " ", text o.2.text]) :=
  ((leads_nameSymbols o.1).append _).chars_append " ORDER BY "

theorem legible_orders : Legible [orderLead, lead ", "] (fun _ => True) fun os =>
    symbols d (orderPieces os) := by
  have orders := (legible_order (d := d)).clause " ORDER BY " ", " (fun o _ => leads_order o)
    (fun _ _ => leads_chars _ _) rfl
  exact (orders.congr symbols_orderPieces).restrict fun _ _ _ _ => trivial

theorem begins_orders (os : List (String × Direction)) : symbols d (orderPieces os) = [] ∨
    ∃ k ∈ [orderLead], Leads k (symbols d (orderPieces os)) := by
  rw [symbols_orderPieces]
  exact Legible.begins_clauseSymbols fun o _ => leads_order o

end Select

end BoundSql
