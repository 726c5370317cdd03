import Mathlib.Tactic.IntervalCases
import BoundSql.Proofs.Statement.Symbols

/-!
# Legible writing

A way of writing is legible if what was written, and where it ends, can be told from the symbols
(`Legible`), whatever comes next as long as that does not begin in one of a few ways. Legible parts
make legible lists, options and sequences: one lemma each. What may come next is told by its lead,
the kinds of its first symbols, so that the conditions on it are computed (`apart`).
-/

namespace BoundSql

/-! ## Leads -/

/-- The kind of a symbol: of a character it tells which one. -/
inductive SymbolKind
  | char (c : Char)
  | part
  | value
  deriving DecidableEq, Repr

/-- The kind of a symbol. -/
def Symbol.kind : Symbol → SymbolKind
  | char c => .char c
  | part _ => .part
  | value _ => .value

/-- The kinds of the symbols of a text. -/
def lead (s : String) : List SymbolKind := s.toList.map .char

/-- The first symbols are of these kinds. -/
def Leads (k : List SymbolKind) (s : List Symbol) : Prop := k <+: s.map Symbol.kind

/-- The symbols begin in none of these ways. -/
def Avoids (ks : List (List SymbolKind)) (s : List Symbol) : Prop := ∀ k ∈ ks, ¬ Leads k s

/-- There are no symbols, or they begin in one of these ways. -/
def Begins (ks : List (List SymbolKind)) (s : List Symbol) : Prop := s = [] ∨ ∃ k ∈ ks, Leads k s

/-- No two of the leads, one from each list, go together, and those of the first list are not
empty. -/
def apart (a b : List (List SymbolKind)) : Bool :=
  a.all fun k => !k.isEmpty && b.all fun k' => !k.isPrefixOf k' && !k'.isPrefixOf k

variable {k k' : List SymbolKind} {ks ks' : List (List SymbolKind)} {s t : List Symbol}

theorem leads_chars (s : String) (t : List Symbol) : Leads (lead s) (chars s ++ t) := by
  rw [Leads, List.map_append, chars, List.map_map]
  exact List.prefix_append _ _

theorem Leads.chars_append (h : Leads k t) (s : String) : Leads (lead s ++ k) (chars s ++ t) := by
  rw [Leads, List.map_append, chars, List.map_map]
  exact (List.prefix_append_right_inj _).mpr h

theorem Leads.append (h : Leads k s) (t : List Symbol) : Leads k (s ++ t) := by
  rw [Leads, List.map_append]
  exact List.IsPrefix.trans h (List.prefix_append _ _)

/-- Two leads that do not go together do not lead the same symbols. -/
theorem Leads.not_leads (h : Leads k s) (free : apart [k'] [k] = true) : ¬ Leads k' s := by
  intro h'
  simp only [apart, List.all_cons, List.all_nil, Bool.and_true, Bool.and_eq_true,
    Bool.not_eq_true'] at free
  rcases List.prefix_or_prefix_of_prefix h h' with le | le
  · rw [List.isPrefixOf_iff_prefix.mpr le] at free
    exact absurd free.2.2 (by decide)
  · rw [List.isPrefixOf_iff_prefix.mpr le] at free
    exact absurd free.2.1 (by decide)

theorem apart_of_mem (free : apart ks ks' = true) (hk : k ∈ ks) (hk' : k' ∈ ks') :
    apart [k] [k'] = true := by
  simp only [apart, List.all_eq_true, Bool.and_eq_true] at free ⊢
  intro l hl
  rw [List.mem_singleton.mp hl]
  refine ⟨(free k hk).1, fun l' hl' => ?_⟩
  rw [List.mem_singleton.mp hl']
  exact (free k hk).2 k' hk'

/-- **What begins in some ways avoids others.** -/
theorem Begins.avoids (h : Begins ks' s) (free : apart ks ks' = true) : Avoids ks s := by
  intro k hk lead
  rcases h with rfl | ⟨k', hk', h'⟩
  · have empty : k = [] := List.prefix_nil.mp lead
    have := List.all_eq_true.mp free k hk
    rw [empty] at this
    exact absurd this (by simp)
  · exact h'.not_leads (apart_of_mem free hk hk') lead

theorem Leads.avoids (h : Leads k s) (free : apart ks [k] = true) : Avoids ks s :=
  Begins.avoids (Or.inr ⟨k, List.mem_singleton_self k, h⟩) free

theorem avoids_nil (free : apart ks [] = true) : Avoids ks [] := Begins.avoids (Or.inl rfl) free

theorem avoids_none : Avoids [] s := fun _ hk => absurd hk List.not_mem_nil

/-- A text avoids what it does not begin with. -/
theorem avoids_chars {text : String} (free : apart ks [lead text] = true) (t : List Symbol) :
    Avoids ks (chars text ++ t) :=
  (leads_chars text t).avoids free

theorem Avoids.of_subset (h : Avoids ks' s) (sub : ∀ k ∈ ks, k ∈ ks') : Avoids ks s :=
  fun k hk => h k (sub k hk)

/-- What may be left out gives way to what comes next. -/
theorem Begins.append (first : s = [] ∨ ∃ k ∈ ks, Leads k s) (next : Begins ks' t) :
    Begins (ks ++ ks') (s ++ t) := by
  rcases first with rfl | ⟨k, hk, h⟩
  · rcases next with rfl | ⟨k, hk, h⟩
    · exact Or.inl rfl
    · exact Or.inr ⟨k, List.mem_append_right _ hk, h⟩
  · exact Or.inr ⟨k, List.mem_append_left _ hk, h.append t⟩

/-- What may be left out does not begin in a way that is to be avoided, if what comes next does
not. -/
theorem Avoids.append (hr : Avoids ks' t) (first : s = [] ∨ ∃ k ∈ ks, Leads k s)
    (free : apart ks' ks = true) : Avoids ks' (s ++ t) := by
  rcases first with rfl | ⟨k, hk, h⟩
  · exact hr
  · exact Begins.avoids (Or.inr ⟨k, hk, h.append t⟩) free

/-- A list with separators behind a word; nothing if it has no members. -/
def clauseSymbols {α : Type} (start separator : String) (write : α → List Symbol) (as : List α) :
    List Symbol :=
  if !as.isEmpty then chars start ++ (chars separator).intercalate (as.map write) else []

/-! ## Legible writing -/

/-- From the symbols it can be told what was written and where it ends, unless what comes next
begins in one of the ways to be avoided. -/
def Legible {α : Type} (avoided : List (List SymbolKind)) (valid : α → Prop)
    (write : α → List Symbol) : Prop :=
  ∀ ⦃a b r r'⦄, valid a → valid b → Avoids avoided r → Avoids avoided r' →
    write a ++ r = write b ++ r' → a = b ∧ r = r'

namespace Legible

variable {α : Type} {avoided : List (List SymbolKind)} {valid : α → Prop}
  {write : α → List Symbol}

theorem mono {avoided' : List (List SymbolKind)} {valid' : α → Prop}
    (h : Legible avoided valid write) (more : ∀ k ∈ avoided, k ∈ avoided')
    (fewer : ∀ a, valid' a → valid a) : Legible avoided' valid' write :=
  fun _ _ _ _ ha hb hr hr' => h (fewer _ ha) (fewer _ hb) (hr.of_subset more) (hr'.of_subset more)

/-- What is legible is read back in front of what begins in one of some other ways. -/
theorem before {ks : List (List SymbolKind)} {a b : α} {t t' : List Symbol}
    (h : Legible avoided valid write) (free : apart avoided ks = true) (ha : valid a)
    (hb : valid b) (ht : Begins ks t) (ht' : Begins ks t') (e : write a ++ t = write b ++ t') :
    a = b ∧ t = t' :=
  h ha hb (ht.avoids free) (ht'.avoids free) e

theorem anywhere {a b : α} {t t' : List Symbol} (h : Legible [] valid write) (ha : valid a)
    (hb : valid b) (e : write a ++ t = write b ++ t') : a = b ∧ t = t' :=
  h ha hb avoids_none avoids_none e

theorem restrict {valid' : α → Prop} (h : Legible avoided valid write)
    (fewer : ∀ a, valid' a → valid a) : Legible avoided valid' write :=
  h.mono (fun _ hk => hk) fewer

theorem congr {write' : α → List Symbol} (h : Legible avoided valid write)
    (same : ∀ a, write' a = write a) : Legible avoided valid write' := by
  rw [show write' = write from funext same]
  exact h

/-- A value stands for itself. -/
theorem value : Legible [] (fun _ => True) fun v => [Symbol.value v] := by
  intro v w r r' _ _ _ _ e
  rw [List.singleton_append, List.singleton_append, List.cons.injEq, Symbol.value.injEq] at e
  exact e

/-- **Words are legible if none begins with another one.** -/
theorem code {code : α → String} (free : ∀ a b, (code a).toList <+: (code b).toList → a = b) :
    Legible [] (fun _ => True) fun a => chars (code a) := by
  intro a b r r' _ _ _ _ e
  have unchars : ∀ {s t : String}, chars s <+: chars t → s.toList <+: t.toList := fun h =>
    (List.prefix_map_iff_of_injective (fun _ _ e => Symbol.char.inj e)).mp h
  have left : chars (code a) <+: chars (code b) ++ r' := e ▸ List.prefix_append _ r
  obtain rfl : a = b := by
    rcases List.prefix_or_prefix_of_prefix left (List.prefix_append _ r') with le | le
    · exact free a b (unchars le)
    · exact (free b a (unchars le)).symm
  exact ⟨rfl, List.append_cancel_left e⟩

/-- **What may be left out is legible** if its presence shows. -/
theorem optional {ks : List (List SymbolKind)} (present : α → Bool)
    (h : Legible avoided (fun a => valid a ∧ present a = true) write)
    (opens : ∀ a, valid a → present a = true → ∃ k ∈ ks, Leads k (write a))
    (absent : ∀ a b, present a = false → present b = false → a = b) :
    Legible (ks ++ avoided) valid fun a => if present a then write a else [] := by
  intro a b r r' ha hb hr hr' e
  have shows : ∀ {a b r r'}, valid a → present a = true → present b = false → Avoids ks r' →
      ¬ write a ++ r = [] ++ r' := by
    intro a b r r' ha there gone hr' e
    obtain ⟨k, hk, lead⟩ := opens a ha there
    have := lead.append r
    rw [e, List.nil_append] at this
    exact hr' k hk this
  have left : ∀ k ∈ ks, k ∈ ks ++ avoided := fun _ hk => List.mem_append_left _ hk
  have right : ∀ k ∈ avoided, k ∈ ks ++ avoided := fun _ hk => List.mem_append_right _ hk
  cases ga : present a <;> cases gb : present b <;>
    simp only [ga, gb, if_true, Bool.false_eq_true, if_false] at e
  · exact ⟨absent a b ga gb, e⟩
  · exact absurd e.symm (shows hb gb ga (hr.of_subset left))
  · exact absurd e (shows ha ga gb (hr'.of_subset left))
  · exact h ⟨ha, ga⟩ ⟨hb, gb⟩ (hr.of_subset right) (hr'.of_subset right) e

/-- A word that is there or not is legible. -/
theorem flag (word : String) :
    Legible [lead word] (fun _ => True) fun b : Bool => if b then chars word else [] := by
  have there : Legible [] (fun b : Bool => True ∧ b = true) fun _ => chars word :=
    fun a b r r' ha hb _ _ e => ⟨ha.2.trans hb.2.symm, List.append_cancel_left e⟩
  have shows : ∀ b : Bool, True → b = true → ∃ k ∈ [lead word], Leads k (chars word) :=
    fun _ _ _ => ⟨lead word, List.mem_singleton_self _, by simpa using leads_chars word []⟩
  exact there.optional (fun b => b) shows fun a b ha hb => ha.trans hb.symm

/-- What stands in front of everything does not matter. -/
theorem behind (h : Legible avoided valid write) (text : String) :
    Legible avoided valid fun a => chars text ++ write a := by
  intro a b r r' ha hb hr hr' e
  simp only [List.append_assoc] at e
  exact h ha hb hr hr' (List.append_cancel_left e)

section Lists

variable {ks : List (List SymbolKind)} {as : List α} {r : List Symbol}

theorem begins_flatMap (opens : ∀ a ∈ as, ∃ k ∈ ks, Leads k (write a)) :
    as.flatMap write = [] ∨ ∃ k ∈ ks, Leads k (as.flatMap write) := by
  cases as with
  | nil => exact Or.inl rfl
  | cons a as =>
    obtain ⟨k, hk, lead⟩ := opens a List.mem_cons_self
    rw [List.flatMap_cons]
    exact Or.inr ⟨k, hk, lead.append _⟩

/-- **Repetitions are legible** if what comes next is not taken for one more member. -/
theorem repeated (h : Legible avoided valid write)
    (opens : ∀ a, valid a → ∃ k ∈ ks, Leads k (write a)) (free : apart avoided ks = true) :
    Legible (ks ++ avoided) (fun as : List α => ∀ a ∈ as, valid a) fun as => as.flatMap write := by
  have left : ∀ k ∈ ks, k ∈ ks ++ avoided := fun _ hk => List.mem_append_left _ hk
  have right : ∀ k ∈ avoided, k ∈ ks ++ avoided := fun _ hk => List.mem_append_right _ hk
  have one : ∀ {a as r r'}, valid a → Avoids (ks ++ avoided) r' →
      ¬ r' = (a :: as).flatMap write ++ r := by
    intro a as r r' va hr' e
    obtain ⟨k, hk, lead⟩ := opens a va
    have := (lead.append (as.flatMap write)).append r
    rw [← List.flatMap_cons, ← e] at this
    exact hr'.of_subset left k hk this
  intro as bs r r' ha hb hr hr' e
  -- The members are read in turn; a list that ends before the other would be followed by a lead.
  induction as generalizing bs with
  | nil =>
    cases bs with
    | nil => exact ⟨rfl, e⟩
    | cons b bs => exact absurd e (one (hb b List.mem_cons_self) hr)
  | cons a as ih =>
    cases bs with
    | nil => exact absurd e.symm (one (ha a List.mem_cons_self) hr')
    | cons b bs =>
      rw [List.forall_mem_cons] at ha hb
      simp only [List.flatMap_cons, List.append_assoc] at e
      obtain ⟨rfl, rest⟩ := h ha.1 hb.1
        ((hr.of_subset right).append (begins_flatMap fun a h => opens a (ha.2 a h)) free)
        ((hr'.of_subset right).append (begins_flatMap fun b h => opens b (hb.2 b h)) free) e
      obtain ⟨same, next⟩ := ih ha.2 hb.2 rest
      exact ⟨congrArg _ same, next⟩

/-- A list with separators is its first member and the others, each behind a separator. -/
theorem intercalate_eq_flatMap (separator : List Symbol) (a : α) (as : List α) :
    separator.intercalate ((a :: as).map write) =
      write a ++ as.flatMap fun b => separator ++ write b := by
  induction as generalizing a with
  | nil => simp
  | cons b as ih =>
    rw [List.map_cons, List.map_cons, List.intercalate_cons_cons, ← List.map_cons, ih,
      List.flatMap_cons, List.append_assoc, List.append_assoc]

/-- **Lists are legible** if what comes next is not taken for one more member. -/
theorem joined {more : List SymbolKind} (h : Legible avoided valid write) (separator : String)
    (again : ∀ a, valid a → Leads more (chars separator ++ write a))
    (free : apart avoided [more] = true) :
    Legible (more :: avoided) (fun as : List α => as ≠ [] ∧ ∀ a ∈ as, valid a) fun as =>
      (chars separator).intercalate (as.map write) := by
  have opens : ∀ a, valid a → ∃ k ∈ [more], Leads k (chars separator ++ write a) :=
    fun a ha => ⟨more, List.mem_singleton_self _, again a ha⟩
  have tail : ∀ k ∈ avoided, k ∈ more :: avoided := fun _ hk => List.mem_cons_of_mem _ hk
  intro as bs r r' ⟨nonempty, ha⟩ ⟨nonempty', hb⟩ hr hr' e
  obtain ⟨a, as, rfl⟩ := List.exists_cons_of_ne_nil nonempty
  obtain ⟨b, bs, rfl⟩ := List.exists_cons_of_ne_nil nonempty'
  rw [List.forall_mem_cons] at ha hb
  simp only [intercalate_eq_flatMap, List.append_assoc] at e
  obtain ⟨rfl, rest⟩ := h ha.1 hb.1
    ((hr.of_subset tail).append (begins_flatMap fun a h => opens a (ha.2 a h)) free)
    ((hr'.of_subset tail).append (begins_flatMap fun b h => opens b (hb.2 b h)) free) e
  obtain ⟨same, next⟩ := (h.behind separator).repeated opens free ha.2 hb.2 hr hr' rest
  exact ⟨congrArg _ same, next⟩

section Clauses

variable {opening more : List SymbolKind} {start separator : String}

theorem leads_intercalate (opens : ∀ a ∈ as, Leads opening (chars start ++ write a))
    (there : (!as.isEmpty) = true) :
    Leads opening (chars start ++ (chars separator).intercalate (as.map write)) := by
  cases as with
  | nil => cases there
  | cons a as =>
    rw [intercalate_eq_flatMap, ← List.append_assoc]
    exact (opens a List.mem_cons_self).append _

theorem begins_clauseSymbols (opens : ∀ a ∈ as, Leads opening (chars start ++ write a)) :
    clauseSymbols start separator write as = [] ∨
      ∃ k ∈ [opening], Leads k (clauseSymbols start separator write as) := by
  unfold clauseSymbols
  split
  · rename_i there
    exact Or.inr ⟨opening, List.mem_singleton_self _, leads_intercalate opens there⟩
  · exact Or.inl rfl

/-- **Clauses are legible** if what comes next is not taken for a clause or for one more member. -/
theorem clause (h : Legible avoided valid write) (start separator : String)
    (opens : ∀ a, valid a → Leads opening (chars start ++ write a))
    (again : ∀ a, valid a → Leads more (chars separator ++ write a))
    (free : apart avoided [more] = true) :
    Legible (opening :: more :: avoided) (fun as : List α => ∀ a ∈ as, valid a)
      (clauseSymbols start separator write) := by
  have present : Legible (more :: avoided)
      (fun as : List α => (∀ a ∈ as, valid a) ∧ (!as.isEmpty) = true)
      fun as => chars start ++ (chars separator).intercalate (as.map write) :=
    ((h.joined separator again free).behind start).restrict fun as ha =>
      ⟨fun empty => by simp [empty] at ha, ha.1⟩
  have shows : ∀ as : List α, (∀ a ∈ as, valid a) → (!as.isEmpty) = true → ∃ k ∈ [opening],
      Leads k (chars start ++ (chars separator).intercalate (as.map write)) := fun as ha there =>
    ⟨opening, List.mem_singleton_self _, leads_intercalate (fun a h => opens a (ha a h)) there⟩
  refine present.optional (fun as : List α => !as.isEmpty) shows fun as bs ha hb => ?_
  · rw [Bool.not_eq_false', List.isEmpty_iff] at ha hb
    rw [ha, hb]

end Clauses

end Lists

/-- What may be given is legible if its presence shows. -/
theorem option {ks : List (List SymbolKind)} (h : Legible avoided valid write)
    (opens : ∀ a, valid a → ∃ k ∈ ks, Leads k (write a)) :
    Legible (ks ++ avoided) (fun o : Option α => ∀ a ∈ o, valid a) fun o => o.elim [] write := by
  have present : Legible avoided (fun o : Option α => (∀ a ∈ o, valid a) ∧ o.isSome = true)
      fun o => o.elim [] write := by
    rintro (_ | a) (_ | b) r r' ⟨ha, there⟩ ⟨hb, there'⟩ hr hr' e
    · cases there
    · cases there
    · cases there'
    · obtain ⟨rfl, next⟩ := h (ha a rfl) (hb b rfl) hr hr' e
      exact ⟨rfl, next⟩
  refine (present.optional Option.isSome (fun o ho there => ?_) fun o o' gone gone' => ?_).congr
    fun o => ?_
  · obtain ⟨a, rfl⟩ := Option.isSome_iff_exists.mp there
    exact opens a (ho a rfl)
  · rw [Option.isSome_eq_false_iff, Option.isNone_iff_eq_none] at gone gone'
    rw [gone, gone']
  · cases o <;> rfl

theorem begins_option {ks : List (List SymbolKind)} {o : Option α}
    (opens : ∀ a ∈ o, ∃ k ∈ ks, Leads k (write a)) :
    o.elim [] write = [] ∨ ∃ k ∈ ks, Leads k (o.elim [] write) := by
  cases o with
  | none => exact Or.inl rfl
  | some a => exact Or.inr (opens a rfl)

end Legible

/-! ## Numerals -/

/-- The characters of numerals. -/
def numeralLeads : List (List SymbolKind) := "-0123456789".toList.map fun c => [.char c]

theorem mem_of_isDigit {x : Char} (h : x.isDigit = true) : x ∈ "0123456789".toList := by
  simp only [Char.isDigit, Bool.and_eq_true, decide_eq_true_eq, UInt32.le_iff_toNat_le] at h
  obtain ⟨low, high⟩ := h
  have low : 48 ≤ x.toNat := low
  have high : x.toNat ≤ 57 := high
  rw [← Char.ofNat_toNat x]
  interval_cases x.toNat <;> decide

theorem mem_numeral (n : Int) : ∀ x ∈ (toString n).toList, x ∈ "-0123456789".toList := by
  have digits : ∀ n : Nat, ∀ x ∈ (toString n).toList, x ∈ "-0123456789".toList := by
    intro n x hx
    obtain ⟨c, cs, text, all⟩ := PlaceholderStyle.exists_digits n
    exact List.mem_cons_of_mem '-' (mem_of_isDigit (all x (text ▸ hx)))
  cases n with
  | ofNat n => exact digits n
  | negSucc n =>
    rw [toList_toString_negSucc]
    exact List.forall_mem_cons.mpr ⟨by decide, digits (n + 1)⟩

/-- **A numeral is of one number.** -/
theorem eq_of_numeral_eq {n m : Int} (h : (toString n).toList = (toString m).toList) : n = m := by
  have digits : ∀ {n m : Nat}, (toString n).toList = (toString m).toList → n = m := by
    intro n m h
    have back : ∀ k : Nat, Nat.ofDigitChars 10 (toString k).toList 0 = k := fun k => by
      rw [Nat.toString_eq_repr, Nat.toList_repr]
      exact Nat.ofDigitChars_toDigits (by decide) (by decide)
    rw [← back n, h, back m]
  -- No digit is a hyphen.
  have signed : ∀ n m : Nat, ¬ (toString n).toList = '-' :: (toString m).toList := by
    intro n m h
    obtain ⟨c, cs, text, all⟩ := PlaceholderStyle.exists_digits n
    rw [text, List.cons.injEq] at h
    have := all c List.mem_cons_self
    rw [h.1] at this
    exact absurd this (by decide)
  cases n with
  | ofNat n =>
    cases m with
    | ofNat m => exact congrArg Int.ofNat (digits h)
    | negSucc m =>
      rw [toList_toString_negSucc] at h
      exact absurd h (signed n (m + 1))
  | negSucc n =>
    rw [toList_toString_negSucc] at h
    cases m with
    | ofNat m => exact absurd h.symm (signed m (n + 1))
    | negSucc m =>
      rw [toList_toString_negSucc, List.cons.injEq] at h
      rw [Nat.succ.inj (digits h.2)]

/-- Two texts that end where some characters end are the same. -/
theorem append_inj_of_forall_mem {α : Type} {p : α → Prop} {a b r r' : List α}
    (ha : ∀ x ∈ a, p x) (hb : ∀ x ∈ b, p x) (hr : ∀ x ∈ r.head?, ¬ p x)
    (hr' : ∀ x ∈ r'.head?, ¬ p x) (e : a ++ r = b ++ r') : a = b ∧ r = r' := by
  induction a generalizing b with
  | nil =>
    cases b with
    | nil => exact ⟨rfl, e⟩
    | cons y b =>
      rw [List.nil_append, List.cons_append] at e
      exact absurd (hb y List.mem_cons_self) (hr y (by rw [e]; rfl))
  | cons x a ih =>
    cases b with
    | nil =>
      rw [List.nil_append, List.cons_append] at e
      exact absurd (ha x List.mem_cons_self) (hr' x (by rw [← e]; rfl))
    | cons y b =>
      rw [List.forall_mem_cons] at ha hb
      rw [List.cons_append, List.cons_append, List.cons.injEq] at e
      obtain ⟨same, next⟩ := ih ha.2 hb.2 e.2
      exact ⟨by rw [e.1, same], next⟩

/-- A character that stands in numerals. -/
def Symbol.OfNumeral (x : Symbol) : Prop := ∃ c ∈ "-0123456789".toList, x = .char c

/-- **Numerals are legible** where no digit follows. -/
theorem legible_numeral : Legible numeralLeads (fun _ => True) fun n : Int =>
    chars (toString n) := by
  have inside : ∀ n : Int, ∀ x ∈ chars (toString n), x.OfNumeral := by
    intro n x hx
    obtain ⟨c, hc, rfl⟩ := List.mem_map.mp hx
    exact ⟨c, mem_numeral n c hc, rfl⟩
  have behind : ∀ r, Avoids numeralLeads r → ∀ x ∈ r.head?, ¬ x.OfNumeral := by
    rintro r hr x hx ⟨c, hc, rfl⟩
    obtain ⟨t, rfl⟩ := List.head?_eq_some_iff.mp hx
    exact hr _ (List.mem_map_of_mem hc) ⟨t.map Symbol.kind, rfl⟩
  intro n m r r' _ _ hr hr' e
  obtain ⟨same, next⟩ :=
    append_inj_of_forall_mem (inside n) (inside m) (behind r hr) (behind r' hr') e
  have text : (toString n).toList = (toString m).toList :=
    List.map_injective_iff.mpr (fun _ _ e => Symbol.char.inj e) same
  exact ⟨eq_of_numeral_eq text, next⟩

/-- Numerals between two texts are legible, whatever comes next. -/
theorem legible_numeral_between (before behind : String)
    (free : apart numeralLeads [lead behind] = true) : Legible [] (fun _ => True)
      fun n : Int => chars before ++ (chars (toString n) ++ chars behind) := by
  intro n m t t' _ _ _ _ e
  simp only [List.append_assoc] at e
  obtain ⟨same, next⟩ := legible_numeral trivial trivial (avoids_chars free t)
    (avoids_chars free t') (List.append_cancel_left e)
  exact ⟨same, List.append_cancel_left next⟩

end BoundSql
