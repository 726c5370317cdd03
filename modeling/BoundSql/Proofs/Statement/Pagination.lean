import BoundSql.Proofs.Generator.Dialects

/-!
# Pages of a statement

A page is a limit and an offset. Its offset is computed with saturation and so never out of bounds,
which leaves its length to be judged behind the rest of the statement (`checkSelect_paginate_iff`).
Up to the greatest number the offset is the count of the rows on the pages before
(`pageOffset_eq`), and there each row is on one page, the one that division finds
(`returns_paginate_iff`).

Headline: **`pages_tile_rows`**.
-/

namespace BoundSql.Select

open Value

variable {r : Rules} {q : Select} {perPage page n : Int}

/-- The limit and the offset leave the row, where rows count from zero. -/
def Returns (q : Select) (n : Int) : Prop :=
  ∃ limit offset, q.rowLimit = some limit ∧ q.rowOffset = some offset ∧
    offset ≤ n ∧ n < offset + limit

/-! ## Offsets -/

/-- **The offset of a page is the number of rows before it**, up to the greatest number. -/
theorem pageOffset_eq (length : 1 ≤ perPage) (high : page ≤ maxInt64 + 1) :
    pageOffset perPage page = min ((max page 1 - 1) * perPage) maxInt64 := by
  have zero : minInt64 ≤ 0 ∧ 0 ≤ maxInt64 := by decide
  have before : max (saturate (page - 1)) 0 = max page 1 - 1 := by
    unfold saturate
    omega
  have nonneg : 0 ≤ (max page 1 - 1) * perPage := Int.mul_nonneg (by omega) (by omega)
  rw [pageOffset, before]
  unfold saturate
  omega

theorem pageOffset_mem (length : 1 ≤ perPage) (page : Int) :
    0 ≤ pageOffset perPage page ∧ pageOffset perPage page ≤ maxInt64 := by
  have zero : minInt64 ≤ 0 ∧ 0 ≤ maxInt64 := by decide
  have nonneg : 0 ≤ max (saturate (page - 1)) 0 * perPage := Int.mul_nonneg (by omega) (by omega)
  rw [pageOffset, saturate]
  omega

theorem pageOffset_of_pos (length : 1 ≤ perPage) (first : 1 ≤ page) (high : page ≤ maxInt64 + 1) :
    pageOffset perPage page = min ((page - 1) * perPage) maxInt64 := by
  rw [pageOffset_eq length high, Int.max_eq_left first]

/-- A page ends where the next one starts, counted without bound. -/
theorem ends_page (perPage page : Int) : (page - 1) * perPage + perPage = page * perPage := by
  rw [Int.sub_mul, Int.one_mul, Int.sub_add_cancel]

theorem pageOffset_succ (length : 1 ≤ perPage) (first : 1 ≤ page)
    (within : page * perPage ≤ maxInt64) :
    pageOffset perPage (page + 1) = pageOffset perPage page + perPage := by
  have grows : page * 1 ≤ page * perPage := Int.mul_le_mul_of_nonneg_left length (by omega)
  have ends := ends_page perPage page
  rw [pageOffset_of_pos length (by omega) (by omega), pageOffset_of_pos length first (by omega),
    Int.add_sub_cancel]
  omega

/-- **A row is on the page that division finds.** -/
theorem returns_paginate_iff (length : 1 ≤ perPage) (first : 1 ≤ page) (high : page ≤ maxInt64)
    (row : n < maxInt64) : (q.paginate perPage page).Returns n ↔ page = n / perPage + 1 := by
  have span : (q.paginate perPage page).Returns n ↔
      pageOffset perPage page ≤ n ∧ n < pageOffset perPage page + perPage := by
    simp [Returns, paginate, limit, offset]
  have below : page - 1 ≤ n / perPage ↔ (page - 1) * perPage ≤ n :=
    Int.le_ediv_iff_mul_le (by omega)
  have above : n / perPage < page ↔ n < page * perPage := Int.ediv_lt_iff_lt_mul (by omega)
  have ends := ends_page perPage page
  rw [span, pageOffset_of_pos length first (by omega)]
  omega

/-! ## Acceptance -/

theorem checkRowRange_paginate_iff (q : Select) (page : Int) :
    r.checkRowRange (q.paginate perPage page).rowLimit (q.paginate perPage page).rowOffset =
      .ok () ↔ 1 ≤ perPage ∧ perPage ≤ r.maxLimit := by
  change (r.checkLimit perPage >>= fun _ => Rules.checkOffset (pageOffset perPage page)) =
    .ok () ↔ _
  have limit : r.checkLimit perPage = .ok () ↔ 1 ≤ perPage ∧ perPage ≤ r.maxLimit := by
    simp [Rules.checkLimit, Bounds.validateInteger_eq_ok_iff]
  have offset (length : 1 ≤ perPage) : Rules.checkOffset (pageOffset perPage page) = .ok () := by
    simpa [Rules.checkOffset, Bounds.validateInteger_eq_ok_iff] using pageOffset_mem length page
  rw [bind_eq_ok_iff, limit]
  exact and_iff_left_of_imp fun h => offset h.1

/-- **Of a page its length is judged**, behind the rest of the statement. -/
theorem checkSelect_paginate_iff (accepted : r.checkSelect q.unlimited = .ok ()) :
    r.checkSelect (q.paginate perPage page) = .ok () ↔ 1 ≤ perPage ∧ perPage ≤ r.maxLimit := by
  simp only [Rules.checkSelect, Rules.checkClauses, bind_eq_ok_iff] at accepted ⊢
  obtain ⟨selection, tables, joins, conditions, groups, groupConditions, orders, -⟩ := accepted
  rw [← checkRowRange_paginate_iff q page]
  exact ⟨fun h => h.2.2.2.2.2.2.2, fun range =>
    ⟨selection, tables, joins, conditions, groups, groupConditions, orders, range⟩⟩

/-- **Pages tile the rows.** A statement that is accepted without a limit and an offset is accepted
with those of a page exactly if the length of the page is allowed. The offset is then the number of
rows on the pages before, counted without bound and cut off at the greatest number only, so that up
to there each page starts where the one before ends, and each row is on one page. -/
theorem pages_tile_rows (accepted : r.check (.select q.unlimited) = .ok ()) (perPage : Int) :
    (∀ page, r.check (.select (q.paginate perPage page)) = .ok () ↔
      1 ≤ perPage ∧ perPage ≤ r.maxLimit) ∧
    (1 ≤ perPage →
      (∀ page ≤ maxInt64, (q.paginate perPage page).rowOffset =
        some (min ((max page 1 - 1) * perPage) maxInt64)) ∧
      (∀ page offset, 1 ≤ page → page * perPage ≤ maxInt64 →
        (q.paginate perPage page).rowOffset = some offset →
        (q.paginate perPage (page + 1)).rowOffset = some (offset + perPage)) ∧
      ∀ n, 0 ≤ n → n < maxInt64 →
        ∃! page, (1 ≤ page ∧ page ≤ maxInt64) ∧ (q.paginate perPage page).Returns n) := by
  refine ⟨fun page => checkSelect_paginate_iff accepted, fun length => ⟨?_, ?_, ?_⟩⟩
  · exact fun page high => congrArg some (pageOffset_eq length (by omega))
  · rintro page _ first within ⟨⟩
    exact congrArg some (pageOffset_succ length first within)
  · intro n nonneg row
    have found : 0 ≤ n / perPage ∧ n / perPage ≤ n :=
      ⟨Int.ediv_nonneg nonneg (by omega), Int.ediv_le_self perPage nonneg⟩
    refine ⟨n / perPage + 1, ⟨by omega, ?_⟩, fun page h => ?_⟩
    · exact (returns_paginate_iff length (by omega) (by omega) row).mpr rfl
    · exact (returns_paginate_iff length h.1.1 h.1.2 row).mp h.2

/-- The last page of the greatest length starts at the greatest offset; a longer one is refused,
wherever it starts. -/
theorem pages_tile_rows_sample :
    let r := (GeneratorConfig.new .postgres).rules
    let q : Select := { tables := [{ name := "notes" }], rowOffset := some (-3) }
    r.check (.select q.unlimited) = .ok () ∧
      r.check (.select (q.paginate 10000 maxInt64)) = .ok () ∧
      (q.paginate 10000 maxInt64).rowOffset = some maxInt64 ∧
      r.check (.select (q.paginate 10001 minInt64)) ≠ .ok () ∧
      ∃! page, (1 ≤ page ∧ page ≤ maxInt64) ∧ (q.paginate 10000 page).Returns 39999 := by
  intro r q
  have accepted : r.check (.select q.unlimited) = .ok () := by decide +kernel
  obtain ⟨judged, tiles⟩ := pages_tile_rows accepted 10000
  obtain ⟨offsets, -, rows⟩ := tiles (by decide)
  have longer := (pages_tile_rows accepted 10001).1 minInt64
  exact ⟨accepted, (judged maxInt64).mpr (by decide), offsets maxInt64 (Int.le_refl _),
    mt longer.mp (by decide), rows 39999 (by decide) (by decide)⟩

end BoundSql.Select
