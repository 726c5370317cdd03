import BoundSql.Proofs.Statement.LegibleParts

/-!
# SELECT statements are legible

The clauses of an accepted SELECT statement are read one after the other, each over where the next
one begins. A limit stands in front of the select list or behind everything; the ordering that is
written for want of another one is told from a real one by its parenthesis. Main statement:
`normal_eq_of_symbols_eq`.
-/

namespace BoundSql.Select

open Piece

variable {d : Dialect} {r : Rules} {q q' : Select}

/-! ## Select lists -/

/-- The items with the star written out that stands for none. -/
def normalItems (items : List SelectItem) : List SelectItem :=
  if items.isEmpty then [.wildcard none] else items

/-- The statement with the star written out that stands for no items. -/
def normal (q : Select) : Select := { q with items := normalItems q.items }

/-- How a select list begins. -/
def itemLeads : List (List SymbolKind) := lead "*" :: exprLeads

theorem normalItems_ne_nil (items : List SelectItem) : normalItems items ≠ [] := by
  cases items <;> simp [normalItems]

theorem symbols_itemsPieces (items : List SelectItem) : symbols d (itemsPieces items) =
    (chars ", ").intercalate ((normalItems items).map fun i => symbols d (itemPieces i)) := by
  cases items with
  | nil => rfl
  | cons item items => exact symbols_separated d ", " itemPieces (item :: items)

theorem leads_item (item : SelectItem) :
    ∃ k ∈ itemLeads, Leads k (symbols d (itemPieces item)) := by
  rcases item with (_ | name) | ⟨e, as?⟩
  · exact ⟨lead "*", List.mem_cons_self, by simpa [itemPieces, symbols] using leads_chars "*" []⟩
  · rw [symbols_qualified]
    exact ⟨[.part], by decide, (leads_nameSymbols name).append _⟩
  · rw [symbols_item]
    obtain ⟨k, hk, lead⟩ := leads_expr (d := d) e
    exact ⟨k, List.mem_cons_of_mem _ hk, lead.append _⟩

theorem begins_items (items : List SelectItem) (t : List Symbol) :
    Begins itemLeads (symbols d (itemsPieces items) ++ t) := by
  obtain ⟨item, rest, split⟩ := List.exists_cons_of_ne_nil (normalItems_ne_nil items)
  obtain ⟨k, hk, lead⟩ := leads_item (d := d) item
  rw [symbols_itemsPieces, split, Legible.intercalate_eq_flatMap, List.append_assoc]
  exact Or.inr ⟨k, hk, lead.append _⟩

theorem legible_normalItems {a b : List SelectItem} {t t' : List Symbol}
    (ht : Avoids (lead ", " :: itemStops) t) (ht' : Avoids (lead ", " :: itemStops) t')
    (e : symbols d (itemsPieces a) ++ t = symbols d (itemsPieces b) ++ t') :
    normalItems a = normalItems b ∧ t = t' := by
  have items := (legible_item (d := d)).joined ", " (fun _ _ => leads_chars _ _) (by decide)
  rw [symbols_itemsPieces, symbols_itemsPieces] at e
  exact items ⟨normalItems_ne_nil a, fun _ _ => trivial⟩ ⟨normalItems_ne_nil b, fun _ _ => trivial⟩
    ht ht' e

/-! ## Limits -/

/-- The limit that stands in front of the select list, if there is one. -/
def top? (limits : LimitSyntax) (q : Select) : Option Int :=
  match limits, q.rowOffset with
  | .top, none => q.rowLimit
  | _, _ => none

/-- A limit in front of the select list. -/
def topSymbols (n : Int) : List Symbol := chars "TOP " ++ (chars (toString n) ++ chars " ")

theorem symbols_limitHead (limits : LimitSyntax) (q : Select) :
    symbols d (limitHead limits q) = (q.top? limits).elim [] topSymbols := by
  unfold limitHead top?
  cases limits <;> cases q.rowLimit <;> cases q.rowOffset <;>
    simp [symbols, topSymbols, chars_append]

theorem leads_top (n : Int) : ∃ k ∈ [lead "TOP "], Leads k (topSymbols n) :=
  ⟨_, List.mem_singleton_self _, leads_chars _ _⟩

theorem legible_top : Legible [lead "TOP "] (fun _ => True) fun o : Option Int =>
    o.elim [] topSymbols :=
  ((legible_numeral_between "TOP " " " (by decide)).option fun n _ => leads_top n).restrict
    fun _ _ _ _ => trivial

/-- How a limit at the end begins. -/
def tailLeads : List (List SymbolKind) :=
  [lead " LIMIT ", lead " OFFSET ", lead " FETCH FIRST ", lead " ORDER BY (SELECT NULL)"]

/-- A limit at the end, with an offset or without. -/
def tailSymbols (unordered : Bool) : LimitSyntax → Int × Option Int → List Symbol
  | .limitOffset, (n, m?) => chars " LIMIT " ++ (chars (toString n) ++
      m?.elim [] fun m => chars " OFFSET " ++ chars (toString m))
  | .fetchFirst, (n, m?) =>
    (m?.elim [] fun m => chars " OFFSET " ++ (chars (toString m) ++ chars " ROWS")) ++
      (chars " FETCH FIRST " ++ (chars (toString n) ++ chars " ROWS ONLY"))
  | .top, (_, none) => []
  | .top, (n, some m) =>
    (if unordered then chars " ORDER BY (SELECT NULL)" else []) ++ (chars " OFFSET " ++
      (chars (toString m) ++ (chars " ROWS FETCH NEXT " ++ (chars (toString n) ++
        chars " ROWS ONLY"))))

theorem symbols_limitTail (limits : LimitSyntax) (q : Select) : symbols d (limitTail limits q) =
    (q.rowLimit.map (·, q.rowOffset)).elim [] (tailSymbols q.orders.isEmpty limits) := by
  unfold limitTail
  cases limits <;> cases q.rowLimit <;> cases q.rowOffset <;>
    simp [symbols, tailSymbols, chars_append, symbols_append]
  split <;> rfl

/-- What must not follow a limit at the end. -/
def tailStops : List (List SymbolKind) := lead " OFFSET " :: numeralLeads

/-- Behind everything with `.top` there is a limit only together with an offset. -/
def HasTail (limits : LimitSyntax) (range : Int × Option Int) : Prop :=
  limits = .top → range.2.isSome = true

theorem leads_tail {limits : LimitSyntax} {range : Int × Option Int} (h : HasTail limits range)
    (unordered : Bool) : ∃ k ∈ tailLeads, Leads k (tailSymbols unordered limits range) := by
  obtain ⟨n, m?⟩ := range
  cases limits with
  | limitOffset => exact ⟨_, List.mem_cons_self, leads_chars _ _⟩
  | fetchFirst =>
    cases m? with
    | none => exact ⟨lead " FETCH FIRST ", by decide, leads_chars _ _⟩
    | some m => exact ⟨lead " OFFSET ", by decide, (leads_chars _ _).append _⟩
  | top =>
    obtain ⟨m, rfl⟩ := Option.isSome_iff_exists.mp (h rfl)
    cases unordered with
    | true => exact ⟨lead " ORDER BY (SELECT NULL)", by decide, leads_chars _ _⟩
    | false => exact ⟨lead " OFFSET ", by decide, leads_chars _ _⟩

theorem legible_limitOffset (unordered : Bool) :
    Legible tailStops (fun _ => True) (tailSymbols unordered .limitOffset) := by
  have leads : ∀ m : Int, ∃ k ∈ [lead " OFFSET "],
      Leads k (chars " OFFSET " ++ chars (toString m)) := fun m =>
    ⟨_, List.mem_singleton_self _, leads_chars _ _⟩
  have offset := (legible_numeral.behind " OFFSET ").option fun m _ => leads m
  have digits : ∀ k ∈ numeralLeads, k ∈ tailStops := fun _ hk => List.mem_cons_of_mem _ hk
  rintro ⟨n, m?⟩ ⟨n', m'?⟩ t t' _ _ ht ht' e
  simp only [tailSymbols, List.append_assoc] at e
  obtain ⟨limit, e₁⟩ := legible_numeral trivial trivial
    ((ht.of_subset digits).append (Legible.begins_option fun m _ => leads m) (by decide))
    ((ht'.of_subset digits).append (Legible.begins_option fun m _ => leads m) (by decide))
    (List.append_cancel_left e)
  obtain ⟨skipped, next⟩ := offset (fun _ _ => trivial) (fun _ _ => trivial) ht ht' e₁
  exact ⟨by rw [limit, skipped], next⟩

theorem legible_fetchFirst (unordered : Bool) :
    Legible [] (fun _ => True) (tailSymbols unordered .fetchFirst) := by
  have offset := (legible_numeral_between " OFFSET " " ROWS" (by decide)).option fun m _ =>
    ⟨_, List.mem_singleton_self _, leads_chars _ _⟩
  have limit := legible_numeral_between " FETCH FIRST " " ROWS ONLY" (by decide)
  rintro ⟨n, m?⟩ ⟨n', m'?⟩ t t' _ _ ht ht' e
  simp only [tailSymbols, List.append_assoc] at e
  obtain ⟨skipped, e₁⟩ := offset (fun _ _ => trivial) (fun _ _ => trivial)
    (avoids_chars (by decide) _) (avoids_chars (by decide) _) e
  obtain ⟨same, next⟩ := limit trivial trivial ht ht' (by simpa only [List.append_assoc] using e₁)
  exact ⟨by rw [skipped, same], next⟩

theorem legible_topTail (unordered : Bool) :
    Legible [] (HasTail .top) (tailSymbols unordered .top) := by
  have offset := legible_numeral_between " OFFSET " " ROWS FETCH NEXT " (by decide)
  rintro ⟨n, m?⟩ ⟨n', m'?⟩ t t' h h' _ _ e
  obtain ⟨m, rfl⟩ := Option.isSome_iff_exists.mp (h rfl)
  obtain ⟨m', rfl⟩ := Option.isSome_iff_exists.mp (h' rfl)
  simp only [tailSymbols, List.append_assoc] at e
  obtain ⟨skipped, e₁⟩ := offset.anywhere trivial trivial
    (by simpa only [List.append_assoc] using List.append_cancel_left e)
  obtain ⟨limit, next⟩ := legible_numeral trivial trivial (avoids_chars (by decide) t)
    (avoids_chars (by decide) t') e₁
  exact ⟨by rw [skipped, limit], List.append_cancel_left next⟩

theorem legible_tail (unordered : Bool) (limits : LimitSyntax) :
    Legible tailStops (HasTail limits) (tailSymbols unordered limits) := by
  have nothing : ∀ k ∈ ([] : List (List SymbolKind)), k ∈ tailStops := fun _ hk =>
    absurd hk List.not_mem_nil
  cases limits with
  | limitOffset => exact (legible_limitOffset unordered).restrict fun _ _ => trivial
  | fetchFirst => exact (legible_fetchFirst unordered).mono nothing fun _ _ => trivial
  | top => exact (legible_topTail unordered).mono nothing fun _ h => h

theorem begins_limitTail (limits : LimitSyntax) (q : Select) :
    Begins tailLeads (symbols d (limitTail limits q)) := by
  rw [symbols_limitTail]
  cases q.rowLimit with
  | none => exact Or.inl rfl
  | some n =>
    by_cases h : HasTail limits (n, q.rowOffset)
    · exact Or.inr (leads_tail h _)
    · simp only [HasTail, Classical.not_imp, Option.not_isSome_iff_eq_none] at h
      rw [h.1, h.2]
      exact Or.inl rfl

theorem top?_eq_some_iff {limits : LimitSyntax} {n : Int} : q.top? limits = some n ↔
    limits = .top ∧ q.rowOffset = none ∧ q.rowLimit = some n := by
  cases limits <;> cases skipped : q.rowOffset <;> simp [top?, skipped]

/-- A limit that does not stand in front stands at the end. -/
theorem hasTail_of_top?_eq_none {limits : LimitSyntax} (front : q.top? limits = none) :
    ∀ range ∈ q.rowLimit.map (·, q.rowOffset), HasTail limits range := by
  intro range hr top
  obtain ⟨n, hn, rfl⟩ := Option.mem_map.mp hr
  cases skipped : q.rowOffset with
  | none =>
    rw [top?_eq_some_iff.mpr ⟨top, skipped, hn⟩] at front
    cases front
  | some m => rfl

/-- Without a limit no rows are skipped. -/
theorem eq_none_of_checkRowRange {offset : Option Int}
    (h : r.checkRowRange none offset = .ok ()) : offset = none := by
  cases offset with
  | none => rfl
  | some m => cases h

/-- **A limit and an offset are read back** from the two places where they may stand. -/
theorem limits_eq {limits : LimitSyntax} (h : r.checkRowRange q.rowLimit q.rowOffset = .ok ())
    (h' : r.checkRowRange q'.rowLimit q'.rowOffset = .ok ()) (orders : q.orders = q'.orders)
    (top : q.top? limits = q'.top? limits)
    (e : symbols d (limitTail limits q) = symbols d (limitTail limits q')) :
    q.rowLimit = q'.rowLimit ∧ q.rowOffset = q'.rowOffset := by
  cases front : q.top? limits with
  | some n =>
    obtain ⟨-, offset, limit⟩ := top?_eq_some_iff.mp front
    obtain ⟨-, offset', limit'⟩ := top?_eq_some_iff.mp (top ▸ front)
    exact ⟨limit.trans limit'.symm, offset.trans offset'.symm⟩
  | none =>
    have range := (legible_tail q.orders.isEmpty limits).option fun range h => leads_tail h _
    rw [symbols_limitTail, symbols_limitTail, ← orders] at e
    obtain ⟨same, -⟩ := range (hasTail_of_top?_eq_none front)
      (hasTail_of_top?_eq_none (top ▸ front)) (avoids_nil (by decide)) (avoids_nil (by decide))
      (congrArg (· ++ []) e)
    cases limit : q.rowLimit with
    | none =>
      rw [limit] at same h
      have limit' := Option.map_eq_none_iff.mp same.symm
      rw [limit'] at h'
      exact ⟨limit'.symm, (eq_none_of_checkRowRange h).trans (eq_none_of_checkRowRange h').symm⟩
    | some n =>
      rw [limit] at same
      obtain ⟨n', limit', pair⟩ := Option.map_eq_some_iff.mp same.symm
      rw [Prod.mk.injEq] at pair
      exact ⟨by rw [limit', pair.1], pair.2.symm⟩

/-! ## The clauses in turn -/

section Clauses

variable (d) (q)

/-- What stands behind the conditions on groups. -/
def fromOrders : List Symbol :=
  symbols d (orderPieces q.orders) ++ symbols d (limitTail d.profile.limitSyntax q)

/-- What stands behind the groups. -/
def fromHaving : List Symbol :=
  symbols d (Condition.clause "HAVING" q.groupConditions) ++ fromOrders d q

/-- What stands behind the conditions on rows. -/
def fromGroups : List Symbol := symbols d (groupPieces q.groups) ++ fromHaving d q

/-- What stands behind the joins. -/
def fromConditions : List Symbol :=
  symbols d (Condition.clause "WHERE" q.conditions) ++ fromGroups d q

/-- What stands behind the tables. -/
def fromJoins : List Symbol := symbols d (q.joins.flatMap joinPieces) ++ fromConditions d q

/-- What stands behind the limit in front of the select list. -/
def fromItems : List Symbol :=
  symbols d (itemsPieces q.items) ++ (chars " FROM " ++
    ((chars ", ").intercalate (q.tables.map fun t => symbols d t.pieces) ++ fromJoins d q))

/-- How it begins behind the conditions on groups. -/
def orderLeads : List (List SymbolKind) := [orderLead] ++ tailLeads

/-- How it begins behind the groups. -/
def havingLeads : List (List SymbolKind) := [Condition.clauseLead "HAVING"] ++ orderLeads

/-- How it begins behind the conditions on rows. -/
def groupLeads : List (List SymbolKind) := [lead " GROUP BY "] ++ havingLeads

/-- How it begins behind the joins. -/
def conditionLeads : List (List SymbolKind) := [Condition.clauseLead "WHERE"] ++ groupLeads

theorem symbols_groupPieces (groups : List String) : symbols d (groupPieces groups) =
    clauseSymbols " GROUP BY " ", " (nameSymbols d) groups := by
  cases groups with
  | nil => rfl
  | cons name names => exact congrArg (chars " GROUP BY " ++ ·) (symbols_idents (name :: names))

theorem begins_fromOrders : Begins orderLeads (fromOrders d q) :=
  .append (begins_orders q.orders) (begins_limitTail _ q)

theorem begins_fromHaving : Begins havingLeads (fromHaving d q) :=
  .append (Condition.begins_clause "HAVING" q.groupConditions) (begins_fromOrders d q)

theorem begins_fromGroups : Begins groupLeads (fromGroups d q) := by
  refine .append ?_ (begins_fromHaving d q)
  rw [symbols_groupPieces]
  exact Legible.begins_clauseSymbols fun _ _ => leads_chars _ _

theorem begins_fromConditions : Begins conditionLeads (fromConditions d q) :=
  .append (Condition.begins_clause "WHERE" q.conditions) (begins_fromGroups d q)

theorem begins_fromJoins : Begins (joinLeads ++ conditionLeads) (fromJoins d q) :=
  .append (begins_joins q.joins) (begins_fromConditions d q)

theorem symbols_pieces : symbols d (q.pieces d.profile) = chars "SELECT " ++
    ((if q.isDistinct then chars "DISTINCT " else []) ++
      ((q.top? d.profile.limitSyntax).elim [] topSymbols ++ fromItems d q)) := by
  have opening : symbols d q.opening =
      chars "SELECT " ++ if q.isDistinct then chars "DISTINCT " else [] := by
    unfold Select.opening
    cases q.isDistinct <;> rfl
  simp only [pieces, body, symbols_append, symbols, opening, symbols_limitHead, listed,
    symbols_separated, fromItems, fromJoins, fromConditions, fromGroups, fromHaving, fromOrders,
    List.append_assoc, List.nil_append]

end Clauses

/-- **A SELECT statement is read back from its symbols.** -/
theorem normal_eq_of_symbols_eq (h : r.checkSelect q = .ok ()) (h' : r.checkSelect q' = .ok ())
    (e : symbols d (q.pieces d.profile) = symbols d (q'.pieces d.profile)) :
    q.normal = q'.normal := by
  have behindFlag : ∀ q : Select, Begins ([lead "TOP "] ++ itemLeads)
      ((q.top? d.profile.limitSyntax).elim [] topSymbols ++ fromItems d q) := fun q =>
    .append (Legible.begins_option fun n _ => leads_top n) (begins_items q.items _)
  have tables := (legible_table (d := d)).joined ", " (fun _ _ => leads_chars _ _) rfl
  have groups := legible_names (d := d) " GROUP BY "
  simp only [Rules.checkSelect, Rules.checkSelection, Rules.checkClauses, bind_eq_ok_iff,
    Rules.needs_eq_ok_iff, Bool.not_eq_true', List.isEmpty_eq_false_iff] at h h'
  obtain ⟨⟨someTable, -⟩, -, joinsOk, conditionsOk, -, groupConditionsOk, -, range⟩ := h
  obtain ⟨⟨someTable', -⟩, -, joinsOk', conditionsOk', -, groupConditionsOk', -, range'⟩ := h'
  rw [symbols_pieces, symbols_pieces] at e
  -- Each clause that is read leaves an equation between what stands behind it.
  obtain ⟨distinct, e₁⟩ := (Legible.flag "DISTINCT ").before (by decide) trivial trivial
    (behindFlag q) (behindFlag q') (List.append_cancel_left e)
  obtain ⟨top, e₂⟩ := legible_top.before (by decide) trivial trivial (begins_items q.items _)
    (begins_items q'.items _) e₁
  obtain ⟨items, e₃⟩ := legible_normalItems (avoids_chars (by decide) _)
    (avoids_chars (by decide) _) e₂
  obtain ⟨sameTables, e₄⟩ := tables.before (by decide) ⟨someTable, fun _ _ => trivial⟩
    ⟨someTable', fun _ _ => trivial⟩ (begins_fromJoins d q) (begins_fromJoins d q')
    (List.append_cancel_left e₃)
  obtain ⟨joins, e₅⟩ := legible_joins.before (by decide) joinsOk joinsOk'
    (begins_fromConditions d q) (begins_fromConditions d q') e₄
  obtain ⟨conditions, e₆⟩ := (Condition.legible_clause "WHERE").before (by decide) conditionsOk
    conditionsOk' (begins_fromGroups d q) (begins_fromGroups d q') e₅
  simp only [fromGroups, symbols_groupPieces] at e₆
  obtain ⟨sameGroups, e₇⟩ := groups.before (by decide) trivial trivial (begins_fromHaving d q)
    (begins_fromHaving d q') e₆
  obtain ⟨groupConditions, e₈⟩ := (Condition.legible_clause "HAVING").before (by decide)
    groupConditionsOk groupConditionsOk' (begins_fromOrders d q) (begins_fromOrders d q') e₇
  obtain ⟨orders, e₉⟩ := legible_orders.before (by decide) trivial trivial
    (begins_limitTail _ q) (begins_limitTail _ q') e₈
  obtain ⟨limit, offset⟩ := limits_eq range range' orders top e₉
  cases q
  cases q'
  rw [normal, normal, Select.mk.injEq]
  exact ⟨distinct, items, sameTables, joins, conditions, sameGroups, groupConditions, orders, limit,
    offset⟩

end BoundSql.Select
