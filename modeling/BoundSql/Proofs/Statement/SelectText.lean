import BoundSql.Generator
import BoundSql.Proofs.Rules.Names
import BoundSql.Proofs.Validation.Identifier
import Mathlib.Algebra.Order.BigOperators.Group.List
import Mathlib.Algebra.Order.Ring.Nat
import Mathlib.Data.List.DropRight

/-!
# Select lists given as text

A text stands for the items between its commas. Every part is a star, a name with dots and a star
behind it, or anything else (`Form`), and what it stands for is said form by form. From that follow
what is accepted (`checkItem_ofText_iff`) and what is written (`spelling_ofText`): of several dots
in front of a star one is written, and all else is written as it stands.

Headline: **`select_list_written`**.
-/

namespace BoundSql

namespace SelectItem

variable {s name : List Char} {level : SecurityLevel}

/-- The parts of a select list: what stands between the commas without white space around it, where
that is not empty. -/
def parts (fields : String) : List (List Char) :=
  ((Text.splitOn ',' fields.toList).map Text.trim).filter (!·.isEmpty)

/-- Parts in a row with commas between them; without parts a star. -/
def listText (parts : List (List Char)) : String :=
  if parts.isEmpty then "*" else String.ofList ([',', ' '].intercalate parts)

/-- **What an accepted part looks like**: a star, a qualified identifier with dots and a star behind
it, or a qualified identifier. -/
inductive IsSelectable (level : SecurityLevel) : List Char → Prop
  | star : IsSelectable level ['*']
  | starOf (name : List Char) (more : Nat)
      (qualified : Identifier.IsQualified (String.ofList name) level) :
      IsSelectable level (name ++ List.replicate (more + 1) '.' ++ ['*'])
  | column (s : List Char) (qualified : Identifier.IsQualified (String.ofList s) level) :
      IsSelectable level s

/-- A part without the dots in front of a dot and a star at its end. -/
def collapsed : List Char → List Char
  | [] => []
  | c :: rest =>
    if c = '.' ∧ collapsed rest = ['.', '*'] then ['.', '*'] else c :: collapsed rest

/-! ## The forms of a part -/

/-- The form of a part. All dots that stand in front of a star at the end count as such. -/
inductive Form : List Char → Prop
  | star : Form ['*']
  | starOf (name : List Char) (more : Nat) (undotted : name.getLast? ≠ some '.') :
      Form (name ++ List.replicate (more + 1) '.' ++ ['*'])
  | column (s : List Char) (bare : s ≠ ['*']) (undotted : ¬ ['.', '*'] <:+ s) : Form s

theorem dropTrailing_append_replicate (undotted : name.getLast? ≠ some '.') (n : Nat) :
    Text.dropTrailing (· == '.') (name ++ List.replicate n '.') = name := by
  induction n with
  | zero =>
    rw [List.replicate_zero, List.append_nil]
    refine List.rdropWhile_eq_self_iff.mpr fun full => ?_
    rw [List.getLast?_eq_some_getLast full] at undotted
    simpa using undotted
  | succ n ih =>
    rw [List.replicate_succ', ← List.append_assoc]
    exact (List.rdropWhile_concat_pos (· == '.') _ _ (beq_self_eq_true '.')).trans ih

/-- In front of the dots at the end stands something that does not end in a dot. -/
theorem exists_eq_append_replicate (s : List Char) :
    ∃ name n, name.getLast? ≠ some '.' ∧ s = name ++ List.replicate n '.' := by
  induction s using List.reverseRecOn with
  | nil => exact ⟨[], 0, by simp, rfl⟩
  | append_singleton s x ih =>
    by_cases dot : x = '.'
    · obtain ⟨name, n, undotted, rfl⟩ := ih
      exact ⟨name, n + 1, undotted, by rw [dot, List.replicate_succ', List.append_assoc]⟩
    · exact ⟨s ++ [x], 0, by simpa using dot, (List.append_nil _).symm⟩

theorem form (s : List Char) : Form s := by
  by_cases bare : s = ['*']
  · exact bare ▸ .star
  · by_cases dotted : ['.', '*'] <:+ s
    · obtain ⟨m, rfl⟩ := dotted
      obtain ⟨name, n, undotted, rfl⟩ := exists_eq_append_replicate m
      have more := Form.starOf name n undotted
      rw [List.replicate_succ'] at more
      simpa using more
    · exact .column s bare dotted

theorem dotted_starOf (name : List Char) (more : Nat) :
    ['.', '*'] <:+ name ++ List.replicate (more + 1) '.' ++ ['*'] :=
  ⟨name ++ List.replicate more '.', by simp [List.replicate_succ']⟩

theorem starOf_ne_star (name : List Char) (more : Nat) :
    name ++ List.replicate (more + 1) '.' ++ ['*'] ≠ ['*'] := by
  intro same
  have length := congrArg List.length same
  simp only [List.length_append, List.length_replicate, List.length_singleton] at length
  omega

theorem ofText_starOf (undotted : name.getLast? ≠ some '.') (more : Nat) :
    ofText (name ++ List.replicate (more + 1) '.' ++ ['*']) =
      .wildcard (some (String.ofList name)) := by
  have dotted := List.isSuffixOf_iff_suffix.mpr (dotted_starOf name more)
  rw [ofText, if_neg (starOf_ne_star name more), if_pos dotted, List.dropLast_concat,
    dropTrailing_append_replicate undotted]

theorem ofText_column (bare : s ≠ ['*']) (undotted : ¬ ['.', '*'] <:+ s) :
    ofText s = .expr (.column (String.ofList s)) none := by
  rw [ofText, if_neg bare, if_neg (mt List.isSuffixOf_iff_suffix.mp undotted)]

/-! ## What is accepted -/

/-- A qualified identifier does not end in a dot. -/
theorem getLast?_ne_dot (h : Identifier.IsQualified (String.ofList name) level) :
    name.getLast? ≠ some '.' := by
  intro dot
  obtain ⟨s, rfl⟩ := List.getLast?_eq_some_iff.mp dot
  have last : [] ∈ Identifier.parts (String.ofList (s ++ ['.'])) := by
    rw [Identifier.parts, String.toList_ofList, Text.splitOn,
      Text.splitWhere_append_cons (p := (· == '.')) (beq_self_eq_true '.')]
    exact List.mem_append_right _ (List.mem_singleton.mpr rfl)
  exact (h.2.2 [] last).1.ne_nil rfl

/-- A qualified identifier holds no star. -/
theorem star_not_mem (h : Identifier.IsQualified (String.ofList s) level) : '*' ∉ s := by
  intro star
  have name := Identifier.isName_of_checkQualified (Identifier.checkQualified_iff_isQualified.mpr h)
  rcases name '*' (by rwa [String.toList_ofList]) with part | dot
  · exact absurd part (by decide)
  · exact absurd dot (by decide)

theorem checkColumn_iff {r : Rules} {name : String} :
    r.checkColumn name = .ok () ↔ Identifier.IsQualified name r.level :=
  Rules.checkColumn_eq_ok_iff.trans Identifier.checkQualified_iff_isQualified

/-- **Which parts are accepted.** -/
theorem checkItem_ofText_iff {r : Rules} :
    r.checkItem (ofText s) = .ok () ↔ IsSelectable r.level s := by
  cases form s with
  | star => exact ⟨fun _ => .star, fun _ => rfl⟩
  | starOf name more undotted =>
    rw [ofText_starOf undotted]
    refine checkColumn_iff.trans ⟨.starOf name more, fun h => ?_⟩
    generalize whole : name ++ List.replicate (more + 1) '.' ++ ['*'] = s at h
    cases h with
    | star => exact absurd whole (starOf_ne_star name more)
    | starOf name' more' qualified =>
      -- The dots in front of the star leave one name only.
      have same := congrArg (Text.dropTrailing (· == '.')) (List.append_cancel_right whole)
      rw [dropTrailing_append_replicate undotted,
        dropTrailing_append_replicate (getLast?_ne_dot qualified)] at same
      exact same ▸ qualified
    | column _ qualified => exact absurd (by simp [← whole]) (star_not_mem qualified)
  | column _ bare undotted =>
    rw [ofText_column bare undotted]
    have item : r.checkItem (.expr (.column (String.ofList s)) none) = .ok () ↔
        r.checkColumn (String.ofList s) = .ok () :=
      bind_eq_ok_iff.trans (and_iff_left rfl)
    refine (item.trans checkColumn_iff).trans ⟨.column s, fun h => ?_⟩
    cases h with
    | star => exact absurd rfl bare
    | starOf name more => exact absurd (dotted_starOf name more) undotted
    | column _ qualified => exact qualified

/-! ## What is written -/

theorem collapsed_starOf (undotted : name.getLast? ≠ some '.') (more : Nat) :
    collapsed (name ++ List.replicate (more + 1) '.' ++ ['*']) = name ++ ['.', '*'] := by
  induction name with
  | nil =>
    induction more with
    | zero => rfl
    | succ more ih =>
      rw [List.replicate_succ]
      exact if_pos ⟨rfl, ih⟩
  | cons c name ih =>
    cases name with
    | nil =>
      have dot : c ≠ '.' := by simpa using undotted
      have dots := ih (by simp)
      rw [List.nil_append] at dots
      exact (if_neg fun h => dot h.1).trans (congrArg (c :: ·) dots)
    | cons c' name =>
      have rest := ih (by simpa using undotted)
      refine (if_neg fun h => ?_).trans (congrArg (c :: ·) rest)
      exact List.cons_ne_nil c' name (List.append_left_eq_self.mp (rest.symm.trans h.2))

theorem collapsed_eq_self (h : ¬ ['.', '.', '*'] <:+ s) : collapsed s = s := by
  induction s with
  | nil => rfl
  | cons c s ih =>
    rw [List.suffix_cons_iff, not_or] at h
    rw [collapsed, ih h.2, if_neg]
    rintro ⟨rfl, rfl⟩
    exact h.1 rfl

theorem length_collapsed_lt (h : ['.', '.', '*'] <:+ s) : (collapsed s).length < s.length := by
  induction s with
  | nil => exact absurd h (by simp)
  | cons c s ih =>
    rcases List.suffix_cons_iff.mp h with same | further
    · rw [← same]
      decide
    · have long : 3 ≤ s.length := further.length_le
      have shorter := ih further
      unfold collapsed
      split <;> simp only [List.length_cons, List.length_nil] <;> omega

theorem length_collapsed_le (s : List Char) : (collapsed s).length ≤ s.length := by
  by_cases h : ['.', '.', '*'] <:+ s
  · exact (length_collapsed_lt h).le
  · exact (congrArg List.length (collapsed_eq_self h)).le

/-- **How a part is written where identifiers are not quoted.** -/
theorem spelling_ofText (p : DialectProfile) (n : Nat) (s : List Char) :
    Writer.spelling p false n (Select.itemPieces (ofText s)) = String.ofList (collapsed s) := by
  cases form s with
  | star => rfl
  | starOf name more undotted =>
    rw [ofText_starOf undotted, collapsed_starOf undotted]
    simp [Select.itemPieces, Writer.spelling]
  | column _ bare undotted =>
    rw [ofText_column bare undotted, collapsed_eq_self (mt (List.suffix_cons _ _).trans undotted)]
    simp [Select.itemPieces, Writer.spelling, Expr.pieces, aliasPieces]

theorem values_ofText (s : List Char) : Piece.values (Select.itemPieces (ofText s)) = [] := by
  cases form s with
  | star => rfl
  | starOf name more undotted =>
    rw [ofText_starOf undotted]
    rfl
  | column _ bare undotted =>
    rw [ofText_column bare undotted]
    rfl

theorem spelling_listed (p : DialectProfile) (n : Nat) (parts : List (List Char)) :
    Writer.spelling p false n (Piece.listed (parts.map (Select.itemPieces ∘ ofText))) =
      String.ofList ([',', ' '].intercalate (parts.map collapsed)) := by
  induction parts generalizing n with
  | nil => rfl
  | cons s parts ih =>
    cases parts with
    | nil => simp [Piece.listed, spelling_ofText]
    | cons s' parts =>
      have rest := ih n
      simp only [List.map_cons, Piece.listed, Piece.separated_cons_cons, List.intercalate_cons_cons,
        Function.comp_apply, Writer.spelling_append, Writer.spelling, spelling_ofText,
        values_ofText, List.length_nil, Nat.add_zero, String.ofList_append] at rest ⊢
      rw [rest, String.append_assoc]

theorem spelling_itemsPieces (p : DialectProfile) (n : Nat) (fields : String) :
    Writer.spelling p false n (Select.itemsPieces (listOfText fields)) =
      listText ((parts fields).map collapsed) := by
  have items : listOfText fields = (parts fields).map ofText := rfl
  rw [items, Select.itemsPieces, listText, List.isEmpty_map, List.isEmpty_map, List.map_map]
  split
  · rfl
  · exact spelling_listed p n _

/-! ## What is kept -/

/-- **A select list is written as it stands unless dots are dropped.** -/
theorem listText_map_collapsed_iff {parts : List (List Char)} :
    listText (parts.map collapsed) = listText parts ↔
      ∀ part ∈ parts, ¬ ['.', '.', '*'] <:+ part := by
  constructor
  · intro same part hpart dots
    have full : parts.isEmpty = false := List.isEmpty_eq_false_iff.mpr (List.ne_nil_of_mem hpart)
    rw [listText, listText, List.isEmpty_map, full] at same
    have length := congrArg List.length (String.ofList_injective same)
    have shorter : ((parts.map fun s => (collapsed s).length)).sum < (parts.map List.length).sum :=
      List.sum_lt_sum _ _ (fun s _ => length_collapsed_le s) ⟨part, hpart, length_collapsed_lt dots⟩
    rw [Text.length_intercalate, Text.length_intercalate, List.length_map] at length
    have flat := Nat.add_right_cancel length
    rw [List.length_flatten, List.length_flatten, List.map_map] at flat
    exact absurd flat shorter.ne
  · intro plain
    rw [List.map_congr_left fun part hpart => collapsed_eq_self (plain part hpart), List.map_id']

end SelectItem

namespace Select

open SelectItem

/-- A table named by a plain word passes the rules at every level. -/
theorem checkTableRef_t (r : Rules) : r.checkTableRef (.ofText "t") = .ok () := by
  have name : (TableRef.ofText "t") = { name := "t" } := by decide
  have table : r.checkTable "t" = .ok () := by
    rw [Rules.checkTable_eq_ok_iff]
    cases r.level <;> decide
  rw [name, Rules.checkTableRef, bind_eq_ok_iff]
  exact ⟨table, rfl⟩

/-- The statement that selects a list given as text from one table. -/
def listing (fields : String) : Statement := .select ((({} : Select).select fields).fromTable "t")

theorem check_listing_iff {r : Rules} {fields : String} :
    r.check (listing fields) = .ok () ↔ ∀ part ∈ parts fields, IsSelectable r.level part := by
  have items : r.checkSelection ((({} : Select).select fields).fromTable "t") =
      judgeAll r.checkItem ((parts fields).map ofText) := rfl
  have clauses : r.checkClauses ((({} : Select).select fields).fromTable "t") = .ok () := by
    have tables : judgeAll r.checkTableRef [.ofText "t"] = .ok () :=
      judgeAll_eq_ok_iff.mpr (List.forall_mem_singleton.mpr (checkTableRef_t r))
    exact bind_eq_ok_iff.mpr ⟨tables, rfl⟩
  rw [listing, Rules.check, Rules.checkSelect, bind_eq_ok_iff, items, and_iff_left clauses,
    judgeAll_eq_ok_iff, List.forall_mem_map]
  exact forall₂_congr fun _ _ => checkItem_ofText_iff

theorem pieces_listing (p : DialectProfile) (fields : String) :
    (listing fields).pieces p =
      [.text "SELECT "] ++ (itemsPieces (listOfText fields) ++ [.text " FROM ", .ident "t"]) := by
  have table : (TableRef.ofText "t").pieces = [.ident "t"] := rfl
  have head : limitHead p.limitSyntax ((({} : Select).select fields).fromTable "t") = [] := by
    cases p.limitSyntax <;> rfl
  have tail : limitTail p.limitSyntax ((({} : Select).select fields).fromTable "t") = [] := by
    cases p.limitSyntax <;> rfl
  rw [listing, Statement.pieces, Select.pieces, head, tail]
  simp [opening, body, Select.select, fromTable, table, Piece.listed, groupPieces, orderPieces,
    Condition.clause]

theorem sql_listing (d : Dialect) (fields : String) :
    ((listing fields).render d false).sql =
      "SELECT " ++ listText ((parts fields).map collapsed) ++ " FROM t" := by
  rw [Statement.render, Writer.finish_write_new, pieces_listing, Writer.spelling_append,
    Writer.spelling_append, spelling_itemsPieces]
  simp [Writer.spelling, String.append_assoc]

/-- **A select list is accepted part by part, and written as it stands except that of several dots
in front of a star one is written.** So an accepted list is kept as it is exactly if no part of it
ends in two dots and a star. -/
theorem select_list_written (r : Rules) (d : Dialect) (fields : String) :
    let q := listing fields
    (r.check q = .ok () ↔ ∀ part ∈ parts fields, IsSelectable r.level part) ∧
      (q.render d false).sql = "SELECT " ++ listText ((parts fields).map collapsed) ++ " FROM t" ∧
      ((q.render d false).sql = "SELECT " ++ listText (parts fields) ++ " FROM t" ↔
        ∀ part ∈ parts fields, ¬ ['.', '.', '*'] <:+ part) := by
  intro q
  refine ⟨check_listing_iff, sql_listing d fields, ?_⟩
  rw [sql_listing, ← listText_map_collapsed_iff]
  simp [String.append_right_inj, String.append_left_inj]

/-- **A second dot in front of a star is dropped and not refused.** -/
theorem second_dot_dropped :
    let r := ((GeneratorConfig.new .postgres).withSecurityLevel .strict).rules
    let sql := ((listing "a..*").render .postgres false).sql
    r.check (listing "a..*") = .ok () ∧ sql = "SELECT a.* FROM t" ∧
      sql ≠ "SELECT " ++ listText (parts "a..*") ++ " FROM t" := by
  exact ⟨by decide +kernel, by decide +kernel, by decide +kernel⟩

end Select

end BoundSql
