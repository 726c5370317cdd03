import BoundSql.Proofs.Dialect.Scanning

/-!
# Quoted names and values in a row

Names of any characters are written in quotes, and values as placeholders, with a space between two
of them. The search for placeholders passes over quoted text, but not each kind of it is read as it
is written. Text in double quotes ends at the first quote that stands alone
(`scans_doubleQuoted`), and a doubled backtick ends one quoted text and starts the next
(`scans_backticked`). A doubled closing bracket ends the text in brackets for good, so what stands
behind it is searched as well, up to the next opening bracket (`scans_bracketed`).

Headline: **`aligned_written`**.
-/

namespace BoundSql

open PlaceholderStyle

/-! ## Words -/

/-- What is written between two spaces: a name, or a value to bind. -/
inductive Word
  | name (s : String)
  | value (v : Value)
  deriving Repr

namespace Word

/-- The piece that writes the word. -/
def piece : Word → Piece
  | name s => .ident s
  | value v => .bind v

/-- The value of the word, if it is one. -/
def value? : Word → Option Value
  | name _ => none
  | value v => some v

/-- The words with a space between two of them. -/
def pieces (words : List Word) : List Piece := Piece.separated " " (words.map fun w => [w.piece])

/-- The statement that consists of the words, with quoted names. -/
def written (d : Dialect) (words : List Word) : GeneratedQuery :=
  ((Writer.new d true).write (pieces words)).finish

/-- What stands in a segment behind closing brackets, each time up to the next opening one. -/
def outsideBrackets (segment : List Char) : List String :=
  (Text.splitOn ']' segment).tail.map fun part => String.ofList (part.takeWhile (· != '['))

/-- What is searched for placeholders in a name between quotes. -/
def exposed : Dialect → Word → List String
  | .msSql, name s => (Text.splitOn '.' s.toList).flatMap outsideBrackets
  | _, _ => []

/-- Nothing in the texts opens a quote. -/
def Quoteless (texts : List String) : Prop := ∀ text ∈ texts, ∀ x ∈ text.toList, x ∉ Quoted.openers

end Word

/-- **The placeholders found in the text are those of the parameters**, in order. -/
def GeneratedQuery.Aligned (q : GeneratedQuery) : Prop :=
  q.dialect.profile.placeholderStyle.tokens q.sql =
      (List.range q.parameters.length).map (fun i =>
        q.dialect.profile.placeholderStyle.token (i + 1)) ∧
    q.placeholderCount = q.parameters.length

/-! ## Names in quotes -/

/-- **Doubled closing quotes cut a quoted segment**: the first one ends what stands before it, and
what stands behind each is enclosed by two. -/
theorem Quoted.exists_cut (o q : Char) (s : List Char) :
    ∃ first later, Text.splitOn q s = first :: later ∧
      o :: Text.doubling q s ++ [q] =
        (o :: first ++ [q]) ++ (later.map fun t => q :: t ++ [q]).flatten := by
  induction s generalizing o with
  | nil => exact ⟨[], [], rfl, rfl⟩
  | cons x s ih =>
    by_cases h : x = q
    · obtain ⟨first, later, split, text⟩ := ih q
      refine ⟨[], first :: later, by rw [h, Text.splitOn_cons_self, split], ?_⟩
      rw [h, doubling_cons_self, List.map_cons, List.flatten_cons, ← text]
      rfl
    · obtain ⟨first, later, split, text⟩ := ih x
      obtain ⟨part, parts, split', here⟩ := Text.splitOn_cons_of_ne h s
      rw [split, List.cons.injEq] at split'
      obtain ⟨rfl, rfl⟩ := split'
      refine ⟨x :: first, later, here, ?_⟩
      rw [doubling_cons_of_ne h, List.cons_append, List.cons_append, ← List.cons_append, text]
      rfl

namespace PlaceholderStyle

variable {style : PlaceholderStyle} {s t rest : List Char} {parts : List (List Char)}
  {f : List Char → List Char} {found : List Char → List String}

/-- What is found in parts that may stand in front of anything is found in all in a row. -/
theorem scans_flatten (h : ∀ part ∈ parts, ∀ rest, style.Scans (f part) (found part) rest)
    (rest : List Char) : style.Scans (parts.map f).flatten (parts.flatMap found) rest := by
  induction parts with
  | nil => exact .nil style rest
  | cons part parts ih =>
    obtain ⟨first, later⟩ := List.forall_mem_cons.mp h
    exact (first _).append (ih later)

/-- What is found in parts that may stand in front of a delimiter is found with dots between
them. -/
theorem scans_dotted
    (h : ∀ part ∈ parts, ∀ rest, Delimited rest → style.Scans (f part) (found part) rest)
    (behind : Delimited rest) :
    style.Scans (['.'].intercalate (parts.map f)) (parts.flatMap found) rest := by
  induction parts with
  | nil => exact .nil style rest
  | cons part parts ih =>
    obtain ⟨first, later⟩ := List.forall_mem_cons.mp h
    cases parts with
    | nil =>
      rw [List.map_singleton, List.intercalate_singleton, List.flatMap_singleton]
      exact first rest behind
    | cons part' parts =>
      have dot (t : List Char) : style.Scans ['.'] [] t :=
        scans_unmarked (List.forall_mem_singleton.mpr (by decide))
      have all := ((first _ (delimited_cons (by decide) _)).append (dot _)).append (ih later)
      rw [List.append_nil] at all
      rw [List.map_cons, List.map_cons, List.intercalate_cons_cons, List.flatMap_cons]
      exact all

theorem scans_doubleQuoted (segment : List Char) (behind : Delimited rest) :
    style.Scans ('"' :: Text.doubling '"' segment ++ ['"']) [] rest :=
  scans_span (.double segment) fun _ quote => absurd (behind _ quote) (by decide)

/-- What is found in a quoted segment is found in what its closing quotes cut it into. -/
theorem scans_cut {o q : Char} {segment : List Char}
    (first : ∀ part, q ∉ part → ∀ rest, style.Scans (o :: part ++ [q]) [] rest)
    (later : ∀ part ∈ (Text.splitOn q segment).tail, q ∉ part → ∀ rest,
      style.Scans (q :: part ++ [q]) (found part) rest) (rest : List Char) :
    style.Scans (o :: Text.doubling q segment ++ [q])
      ((Text.splitOn q segment).tail.flatMap found) rest := by
  obtain ⟨part, parts, split, text⟩ := Quoted.exists_cut o q segment
  have free : ∀ part' ∈ part :: parts, q ∉ part' :=
    split ▸ fun part' h => Text.not_mem_of_mem_splitOn h
  rw [split, List.tail_cons] at later ⊢
  rw [text]
  exact (first part (free part List.mem_cons_self) _).append
    (scans_flatten (fun part' h => later part' h (free part' (List.mem_cons_of_mem part h))) rest)

/-- Doubled backticks end one quoted text and start the next. -/
theorem scans_backticked (segment rest : List Char) :
    style.Scans ('\x60' :: Text.doubling '\x60' segment ++ ['\x60']) [] rest := by
  have each (part : List Char) (free : '\x60' ∉ part) (rest : List Char) :
      style.Scans ('\x60' :: part ++ ['\x60']) [] rest :=
    scans_span (.backtick part free) fun h => absurd h (by decide)
  have all : style.Scans ('\x60' :: Text.doubling '\x60' segment ++ ['\x60']) _ rest :=
    scans_cut each (fun part _ => each part) rest
  rwa [List.flatMap_eq_nil_iff.mpr fun _ _ => rfl] at all

/-- Behind a doubled closing bracket the text is searched up to the next opening one. -/
theorem scans_behindBracket (closed : ']' ∉ t)
    (quoteless : ∀ x ∈ t.takeWhile (· != '['), x ∉ Quoted.openers) (rest : List Char) :
    style.Scans (']' :: t ++ [']']) (style.tokens (String.ofList (t.takeWhile (· != '['))))
      rest := by
  have bracket (t : List Char) : style.Scans [']'] [] t := scans_plain (by decide) (by decide)
  have split := List.takeWhile_append_dropWhile (p := (· != '[')) (l := t)
  generalize t.takeWhile (· != '[') = outside at quoteless split ⊢
  cases inside : t.dropWhile (· != '[') with
  | nil =>
    rw [inside, List.append_nil] at split
    have searched : style.Scans outside (style.tokens (String.ofList outside)) ([']'] ++ rest) :=
      scans_quoteless quoteless (style.fences_of_quote (by decide))
    have all := ((bracket _).append searched).append (bracket rest)
    rw [List.nil_append, List.append_nil] at all
    rw [← split]
    exact all
  | cons x inside' =>
    obtain rfl : x = '[' := by
      have opens := List.head?_dropWhile_not (· != '[') t
      rw [inside] at opens
      simpa using opens
    rw [inside] at split
    have hidden : style.Scans ('[' :: inside' ++ [']']) [] rest := by
      refine scans_span (.bracket inside' fun h => closed ?_) fun h => absurd h (by decide)
      exact split ▸ List.mem_append_right _ (List.mem_cons_of_mem '[' h)
    have searched : style.Scans outside (style.tokens (String.ofList outside))
        ('[' :: inside' ++ [']'] ++ rest) :=
      scans_quoteless quoteless (style.fences_of_quote (by decide))
    have all := ((bracket _).append searched).append hidden
    rw [List.nil_append, List.append_nil] at all
    rw [← split, List.cons_append, List.append_assoc]
    exact all

/-- **A segment in brackets is searched where it leaves them.** -/
theorem scans_bracketed {segment : List Char}
    (quoteless : Word.Quoteless (Word.outsideBrackets segment)) (rest : List Char) :
    style.Scans ('[' :: Text.doubling ']' segment ++ [']'])
      ((Word.outsideBrackets segment).flatMap style.tokens) rest := by
  rw [Word.Quoteless, Word.outsideBrackets, List.forall_mem_map] at quoteless
  rw [Word.outsideBrackets, List.flatMap_map]
  refine scans_cut (fun part closed rest => ?_) (fun part hp closed => ?_) rest
  · exact scans_span (.bracket part closed) fun h => absurd h (by decide)
  · exact scans_behindBracket closed (by simpa only [String.toList_ofList] using quoteless part hp)

end PlaceholderStyle

/-! ## Words in a row -/

namespace Word

variable {d : Dialect} {w : Word} {words : List Word} {rest : List Char}

/-- **A quoted name is searched where it is exposed.** -/
theorem scans_name {s : String} (quoteless : Quoteless ((name s).exposed d))
    (behind : Delimited rest) :
    d.profile.placeholderStyle.Scans (d.profile.quoteIdentifier s).toList
      (((name s).exposed d).flatMap d.profile.placeholderStyle.tokens) rest := by
  have hidden (style : PlaceholderStyle) (parts : List (List Char)) (f : List Char → List Char)
      (h : ∀ part ∈ parts, ∀ rest, Delimited rest → style.Scans (f part) [] rest) :
      style.Scans (['.'].intercalate (parts.map f)) [] rest := by
    have none := scans_dotted h behind
    rwa [List.flatMap_eq_nil_iff.mpr fun _ _ => rfl] at none
  rw [DialectProfile.quoteIdentifier, String.toList_ofList]
  cases d with
  | msSql =>
    rw [exposed, List.flatMap_assoc]
    refine scans_dotted (fun segment hs rest _ => scans_bracketed (fun text ht => ?_) rest) behind
    exact quoteless text (List.mem_flatMap.mpr ⟨segment, hs, ht⟩)
  | mySql => exact hidden _ _ _ fun segment _ rest _ => scans_backticked segment rest
  | postgres => exact hidden _ _ _ fun segment _ rest behind => scans_doubleQuoted segment behind
  | sqlite => exact hidden _ _ _ fun segment _ rest behind => scans_doubleQuoted segment behind
  | oracle => exact hidden _ _ _ fun segment _ rest behind => scans_doubleQuoted segment behind

/-- The placeholders found in words, when so many values are bound before them. -/
def found (d : Dialect) : Nat → List Word → List String
  | _, [] => []
  | n, name s :: words =>
    ((name s).exposed d).flatMap d.profile.placeholderStyle.tokens ++ found d n words
  | n, value _ :: words => d.profile.placeholderStyle.token (n + 1) :: found d (n + 1) words

theorem found_cons (d : Dialect) (n : Nat) (w : Word) (words : List Word) :
    found d n (w :: words) =
      found d n [w] ++ found d (n + (Piece.values [w.piece]).length) words := by
  cases w <;> simp [found, piece]

theorem scans_word (quoteless : Quoteless (w.exposed d)) (n : Nat) (behind : Delimited rest) :
    d.profile.placeholderStyle.Scans (Writer.spelling d.profile true n [w.piece]).toList
      (found d n [w]) rest := by
  cases w with
  | name s => simpa [found, piece, Writer.spelling] using scans_name quoteless behind
  | value v =>
    simpa [found, piece, Writer.spelling] using PlaceholderStyle.scans_token _ (n + 1) behind

/-- **In words with spaces between them, what is found in each of them is found.** -/
theorem scans_words (quoteless : Quoteless (words.flatMap (exposed d))) (n : Nat) :
    d.profile.placeholderStyle.Scans (Writer.spelling d.profile true n (pieces words)).toList
      (found d n words) [] := by
  induction words generalizing n with
  | nil => exact .nil _ []
  | cons w words ih =>
    rw [List.flatMap_cons] at quoteless
    obtain ⟨first, later⟩ := List.forall_mem_append.mp quoteless
    cases words with
    | nil => exact scans_word first n fun _ h => absurd h (by simp)
    | cons w' words =>
      have space (t : List Char) : d.profile.placeholderStyle.Scans [' '] [] t :=
        PlaceholderStyle.scans_unmarked (List.forall_mem_singleton.mpr (by decide))
      have behind := (space _).append (ih later (n + (Piece.values [w.piece]).length))
      have all := (scans_word first n (delimited_cons (by decide) _)).append behind
      rw [found_cons, pieces, List.map_cons, List.map_cons, Piece.separated_cons_cons,
        Writer.spelling_append, Writer.spelling, String.toList_append, String.toList_append]
      exact all

theorem values_pieces (words : List Word) :
    Piece.values (pieces words) = words.filterMap value? := by
  rw [Piece.values, pieces, Piece.filterMap_separated rfl, List.filterMap_eq_flatMap_toList]
  refine List.flatMap_congr fun w _ => ?_
  cases w <;> rfl

theorem sql_written (d : Dialect) (words : List Word) :
    (written d words).sql = Writer.spelling d.profile true 0 (pieces words) := by
  rw [written, Writer.finish_write_new]

theorem parameters_written (d : Dialect) (words : List Word) :
    (written d words).parameters = words.filterMap value? := by
  rw [written, Writer.finish_write_new, values_pieces]

theorem dialect_written (d : Dialect) (words : List Word) : (written d words).dialect = d := by
  rw [written, Writer.finish_write_new]

/-! ## When placeholders and parameters line up -/

theorem length_found (d : Dialect) (n : Nat) (words : List Word) :
    (found d n words).length = (words.filterMap value?).length +
      ((words.flatMap (exposed d)).flatMap d.profile.placeholderStyle.tokens).length := by
  induction words generalizing n with
  | nil => rfl
  | cons w words ih =>
    rw [List.flatMap_cons, List.flatMap_append, List.length_append]
    cases w with
    | name s =>
      rw [found, List.length_append, ih, List.filterMap_cons_none rfl]
      omega
    | value v =>
      have none : (value v).exposed d = [] := by cases d <;> rfl
      rw [found, List.length_cons, ih, List.filterMap_cons_some (f := value?) rfl,
        List.length_cons, none]
      simp only [List.flatMap_nil, List.length_nil]
      omega

theorem found_of_forall
    (none : ∀ text ∈ words.flatMap (exposed d), d.profile.placeholderStyle.tokens text = [])
    (n : Nat) :
    found d n words = (List.range (words.filterMap value?).length).map fun i =>
      d.profile.placeholderStyle.token (n + i + 1) := by
  induction words generalizing n with
  | nil => rfl
  | cons w words ih =>
    rw [List.flatMap_cons] at none
    obtain ⟨first, later⟩ := List.forall_mem_append.mp none
    cases w with
    | name s =>
      rw [found, List.flatMap_eq_nil_iff.mpr first, ih later, List.filterMap_cons_none rfl]
      rfl
    | value v =>
      rw [found, ih later, List.filterMap_cons_some (f := value?) rfl, List.length_cons,
        List.range_succ_eq_map, List.map_cons, List.map_map]
      refine congrArg _ (List.map_congr_left fun i _ => ?_)
      rw [Function.comp_apply, Nat.add_right_comm n 1 i]
      rfl

theorem aligned_written_of_quoteless (quoteless : Quoteless (words.flatMap (exposed d))) :
    (written d words).Aligned ↔
      ∀ text ∈ words.flatMap (exposed d), d.profile.placeholderStyle.tokens text = [] := by
  have tokens : d.profile.placeholderStyle.tokens (written d words).sql = found d 0 words := by
    rw [sql_written]
    exact (scans_words quoteless 0).tokens_eq
  rw [GeneratedQuery.Aligned, GeneratedQuery.placeholderCount, dialect_written, tokens,
    parameters_written]
  constructor
  · rintro ⟨-, counted⟩
    rw [length_found] at counted
    have none : (words.flatMap (exposed d)).flatMap d.profile.placeholderStyle.tokens = [] :=
      List.length_eq_zero_iff.mp (by omega)
    exact List.flatMap_eq_nil_iff.mp none
  · intro none
    have bound := found_of_forall none 0
    simp only [Nat.zero_add] at bound
    exact ⟨bound, by rw [bound, List.length_map, List.length_range]⟩

/-- **The placeholders found among quoted names are those of the values**, whatever the names are,
in every dialect but the one that quotes with brackets. There they are, unless a quote opens in a
name behind a closing bracket, exactly if no placeholder stands behind one. -/
theorem aligned_written (d : Dialect) (words : List Word) :
    (written d words).parameters = words.filterMap value? ∧
      (d ≠ .msSql → (written d words).Aligned) ∧
      (Quoteless (words.flatMap (exposed .msSql)) →
        ((written .msSql words).Aligned ↔
          ∀ text ∈ words.flatMap (exposed .msSql), PlaceholderStyle.atNamed.tokens text = [])) := by
  refine ⟨parameters_written d words, fun other => ?_, aligned_written_of_quoteless⟩
  have hidden : words.flatMap (exposed d) = [] := List.flatMap_eq_nil_iff.mpr fun w _ => by
    cases d <;> first | rfl | exact absurd rfl other
  have nothing : ∀ text, text ∉ words.flatMap (exposed d) := by simp [hidden]
  exact (aligned_written_of_quoteless fun text h => absurd h (nothing text)).mpr
    fun text h => absurd h (nothing text)

/-- What looks like a placeholder does no harm in a name where it stays in quotes. -/
theorem aligned_written_sample :
    (written .postgres [name "a\"$1\"", value .null]).Aligned ∧
      (written .msSql [name "a]b[@param7", value .null]).Aligned := by
  have outside : [name "a]b[@param7", value .null].flatMap (exposed .msSql) = ["b"] := rfl
  have unmarked : ∀ x ∈ "b".toList, Unmarked x := List.forall_mem_singleton.mpr (by decide)
  refine ⟨(aligned_written .postgres _).2.1 (by decide),
    ((aligned_written .msSql _).2.2 ?_).mpr ?_⟩
  · rw [outside]
    exact List.forall_mem_singleton.mpr fun x hx => not_mem_openers (unmarked x hx).1
  · rw [outside]
    exact List.forall_mem_singleton.mpr (PlaceholderStyle.scans_unmarked unmarked).tokens_eq

/-- Behind a doubled closing bracket a name is searched for placeholders. -/
theorem bracket_exposes_token :
    (written .msSql [name "a]@param1"]).sql = "[a]]@param1]" ∧
      (written .msSql [name "a]@param1"]).parameters = [] ∧
      (written .msSql [name "a]@param1"]).placeholderCount = 1 ∧
      ¬ (written .msSql [name "a]@param1"]).Aligned := by
  refine ⟨rfl, rfl, by decide +kernel, fun aligned => ?_⟩
  exact absurd aligned.2 (by decide +kernel)

/-- Behind it a quote opens that may take a placeholder in. -/
example : (written .msSql [name "a]'", value .null, name "'"]).placeholderCount = 0 ∧
    (written .msSql [name "a]'", value .null, name "'"]).parameters.length = 1 := by
  decide +kernel

end Word

end BoundSql
