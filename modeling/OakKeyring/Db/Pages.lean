import OakKeyring.Db.Frames
import OakKeyring.Lib.Paging
import OakKeyring.Types.Listing
import Mathlib.Data.List.TakeWhile

/-!
# The pages of the record list

A page is one `SELECT` over the records joined with the list index. A search is a `LIKE` for each
term, in which `%` and `_` stand for other characters.
-/

namespace OakKeyring

open Paging

/-! ## LIKE and NOCASE -/

/-- Upper and lower case are one for the ASCII letters only. -/
def sameLetter (c d : Char) : Bool :=
  c.toLower == d.toLower

def likeMatches : List Char → List Char → Bool
  | [], text => text.isEmpty
  | '%' :: pattern, text => text.tails.any (likeMatches pattern)
  | '_' :: pattern, _ :: text => likeMatches pattern text
  | c :: pattern, d :: text => sameLetter c d && likeMatches pattern text
  | _ :: _, [] => false

/-- `text LIKE pattern`, where it raises no error -/
def like (pattern text : String) : Bool :=
  likeMatches (untilNul pattern) (untilNul text)

def SQLITE_MAX_LIKE_PATTERN_LENGTH : Nat := 50000

def SQLITE_MAX_EXPR_DEPTH : Nat := 1000

/-- A comparison with a pattern of more bytes raises an error. -/
def likeRaises (pattern : String) : Bool :=
  SQLITE_MAX_LIKE_PATTERN_LENGTH < pattern.utf8ByteSize

/-- No character of a pattern stands for others or ends it. -/
def plainCharacter (c : Char) : Prop :=
  c ≠ '%' ∧ c ≠ '_' ∧ c ≠ '\x00'

theorem likeMatches_end (text : List Char) : likeMatches ['%'] text = true := by
  have hnil : ([] : List Char) ∈ text.tails := (List.mem_tails _ _).mpr List.nil_suffix
  have hany : text.tails.any (likeMatches []) = true := List.any_eq_true.mpr ⟨[], hnil, rfl⟩
  exact hany

theorem likeMatches_cons {c d : Char} {pattern text : List Char} (hc : plainCharacter c) :
    likeMatches (c :: pattern) (d :: text) = (sameLetter c d && likeMatches pattern text) := by
  rcases hc with ⟨hpercent, hunderscore, _⟩
  rw [likeMatches]
  · exact hpercent
  · exact hunderscore

theorem likeMatches_cons_nil {c : Char} {pattern : List Char} (hc : plainCharacter c) :
    likeMatches (c :: pattern) [] = false := by
  rw [likeMatches]
  exact hc.1

/-- A pattern without wildcards, but for the last, fits the texts that begin with it, whatever
the case of the ASCII letters. -/
theorem likeMatches_iff_begins {pattern : List Char} (hplain : ∀ c ∈ pattern, plainCharacter c)
    (text : List Char) :
    likeMatches (pattern ++ ['%']) text = true ↔
      pattern.map Char.toLower <+: text.map Char.toLower := by
  induction pattern generalizing text with
  | nil => simp [likeMatches_end]
  | cons c pattern ih =>
      have hc : plainCharacter c := hplain c List.mem_cons_self
      cases text with
      | nil => simp [likeMatches_cons_nil hc]
      | cons d text =>
          have hrest := ih (fun e he => hplain e (List.mem_cons_of_mem c he)) text
          rw [List.cons_append, likeMatches_cons hc, Bool.and_eq_true, hrest, sameLetter,
            beq_iff_eq, List.map_cons, List.map_cons, List.cons_prefix_cons]

theorem untilNul_eq {s : String} (h : '\x00' ∉ s.toList) : untilNul s = s.toList := by
  apply List.takeWhile_eq_self_iff.mpr
  intro c hc
  have hne : c ≠ '\x00' := fun heq => h (heq ▸ hc)
  simpa using hne

/-- Such a pattern between two wildcards finds its text anywhere. -/
theorem like_iff_contains {term text : String} (hplain : ∀ c ∈ term.toList, plainCharacter c)
    (hnul : '\x00' ∉ text.toList) :
    like ("%" ++ term ++ "%") text = true ↔
      term.toList.map Char.toLower <:+: text.toList.map Char.toLower := by
  have hlist : ("%" ++ term ++ "%").toList = '%' :: (term.toList ++ ['%']) := by
    simp [String.toList_append]
  have hpattern : '\x00' ∉ ("%" ++ term ++ "%").toList := by
    rw [hlist]
    intro hmem
    rcases List.mem_cons.mp hmem with hfirst | hmem
    · exact absurd hfirst (by decide)
    · rcases List.mem_append.mp hmem with hinside | hlast
      · exact (hplain _ hinside).2.2 rfl
      · exact absurd (List.mem_singleton.mp hlast) (by decide)
  unfold like
  rw [untilNul_eq hpattern, untilNul_eq hnul, hlist, likeMatches, List.any_eq_true,
    List.infix_iff_prefix_suffix]
  constructor
  · intro h
    rcases h with ⟨rest, hrest, hmatch⟩
    have hsuffix : rest <:+ text.toList := (List.mem_tails _ _).mp hrest
    exact ⟨rest.map Char.toLower, (likeMatches_iff_begins hplain rest).mp hmatch,
      hsuffix.map Char.toLower⟩
  · intro h
    rcases h with ⟨lowered, hprefix, hsuffix⟩
    rcases List.suffix_map_iff.mp hsuffix with ⟨rest, hrest, rfl⟩
    exact ⟨rest, (List.mem_tails _ _).mpr hrest, (likeMatches_iff_begins hplain rest).mpr hprefix⟩

theorem map_toLower_eq {cs : List Char} (h : ∀ c ∈ cs, c.toLower = c) :
    cs.map Char.toLower = cs := by
  rw [List.map_congr_left h, List.map_id']

/-- What the `NOCASE` collation compares: the bytes up to a NUL, and then the lengths. UTF-8 keeps
the order of the characters. -/
def nocaseKey (s : String) : List Nat × Nat :=
  let upToNul := if '\x00' ∈ s.toList then untilNul s ++ ['\x00'] else s.toList
  (upToNul.map fun c => c.toLower.toNat, s.utf8ByteSize)

def compareNocase (a b : String) : Ordering :=
  (compare (nocaseKey a).1 (nocaseKey b).1).then (compare (nocaseKey a).2 (nocaseKey b).2)

/-! ## The statement -/

structure RecordListPageRow where
  record : StoredRecord
  name : String
  subtitle : String
deriving DecidableEq, Repr

section Columns

variable [Unicode]

def IndexRow.searchText (entry : IndexRow) : String :=
  toLowercase entry.name ++ " " ++ toLowercase entry.subtitle

def IndexRow.nameSortKey (entry : IndexRow) : String :=
  toLowercase entry.name

def RecordListPageRow.entry (row : RecordListPageRow) : IndexRow where
  name := row.name
  subtitle := row.subtitle

def searchTerms (query : String) : List String :=
  ((splitWhitespace query).map toLowercase).filter fun term => term ≠ ""

/-- The clauses of a search. -/
def searchMatches (query : String) (entry : IndexRow) : Bool :=
  (searchTerms query).all fun term => like ("%" ++ term ++ "%") entry.searchText

/-- Comparing the terms with one row raises an error. The clauses are taken in their order, up to
the first that is false. -/
def searchRaises (entry : IndexRow) : List String → Bool
  | [] => false
  | term :: terms =>
      let pattern := "%" ++ term ++ "%"
      likeRaises pattern || (like pattern entry.searchText && searchRaises entry terms)

/-- A comparison is an expression of depth three at most, and each term adds an `AND`. -/
def searchDepth (query : String) : Nat :=
  (searchTerms query).length + 3

/-- `record_list_where_clause` -/
def recordListWhere (t : Tables) (filter : RecordFilter) (row : RecordListPageRow) : Bool :=
  let id := row.record.id
  (match filter with
    | .Trash => row.record.deleted
    | _ => !row.record.deleted) &&
  match filter with
  | .Favorites => row.record.isFavorite
  | .Tag name =>
      t.recordTags.any fun link => link.1 = id && t.tags.lookup link.2 = some name
  | .Search query => searchMatches query row.entry
  | .Expired => (t.healthState.lookup id).any fun health => health.expired = some true
  | .HealthIssues =>
      (t.healthState.lookup id).any fun health =>
        health.weakPassword = some true || health.compromised = some true ||
          health.expired = some true || health.duplicateGroupSize.isSome
  | .All | .Trash => true

def comparePrimary (frequency : Uuid → Nat) (field : SortField) (a b : RecordListPageRow) :
    Ordering :=
  match field with
  | .Name => compareNocase a.entry.nameSortKey b.entry.nameSortKey
  | .CreatedAt => compare a.record.createdAt.seconds b.record.createdAt.seconds
  | .UpdatedAt => compare a.record.updatedAt.seconds b.record.updatedAt.seconds
  | .UsageFrequency => compare (frequency a.record.id) (frequency b.record.id)

/-- `record_list_order_clause` -/
def recordListOrder (frequency : Uuid → Nat) (sort : RecordSort) (a b : RecordListPageRow) :
    Ordering :=
  (match sort.direction with
    | .Asc => comparePrimary frequency sort.field a b
    | .Desc => comparePrimary frequency sort.field b a).then
  ((compare b.record.updatedAt.seconds a.record.updatedAt.seconds).then
    (compare a.record.id.toText b.record.id.toText))

end Columns

namespace Tables

variable (t : Tables)

/-- The `INNER JOIN` with the index. -/
def indexedRecords : List RecordListPageRow :=
  t.storedRecords.filterMap fun record =>
    (t.listIndex.lookup record.id).map fun entry =>
      { record := record, name := entry.name, subtitle := entry.subtitle }

/-- The rows of all pages. -/
def recordListRows [Unicode] (filter : RecordFilter) : List RecordListPageRow :=
  t.indexedRecords.filter (recordListWhere t filter)

/-- `count_record_list_page` -/
def countRecordListPage [Unicode] (filter : RecordFilter) : Nat :=
  (t.recordListRows filter).length

/-- The statements of a page raise an error: their clause is too deep to be prepared, or a pattern
is too long for a row that it is compared with. -/
def recordListRaises [Unicode] (filter : RecordFilter) : Bool :=
  match filter with
  | .Search query =>
      decide (SQLITE_MAX_EXPR_DEPTH < searchDepth query) ||
        t.indexedRecords.any fun row =>
          !row.record.deleted && searchRaises row.entry (searchTerms query)
  | _ => false

/-- What `list_record_page_rows` may select. `limit` and `offset` are cut to `i64::MAX`, which is
more rows than a table can have. -/
def IsRecordPage [Unicode] (frequency : Uuid → Nat) (filter : RecordFilter) (sort : RecordSort)
    (limit offset : Nat) (page : List RecordListPageRow) : Prop :=
  ∃ rows, rows.Perm (t.recordListRows filter) ∧ InOrder (recordListOrder frequency sort) rows ∧
    page = (rows.drop offset).take limit

end Tables

/-! ## The order tells the rows apart -/

section Order

variable [Unicode] {frequency : Uuid → Nat} {sort : RecordSort}

omit [Unicode] in
theorem compareNocase_eq_lex :
    compareNocase =
      compareLex (compareOn fun s => (nocaseKey s).1) (compareOn fun s => (nocaseKey s).2) := rfl

instance : Std.TransCmp compareNocase := by
  rw [compareNocase_eq_lex]
  infer_instance

instance (field : SortField) : Std.TransCmp (comparePrimary frequency field) := by
  cases field with
  | Name =>
      have hkeys : Std.TransCmp fun a b : RecordListPageRow =>
          compareNocase a.entry.nameSortKey b.entry.nameSortKey :=
        { eq_swap := Std.OrientedCmp.eq_swap
          isLE_trans := fun hab hbc => Std.TransCmp.isLE_trans hab hbc }
      exact hkeys
  | CreatedAt =>
      exact inferInstanceAs
        (Std.TransCmp (compareOn fun row : RecordListPageRow => row.record.createdAt.seconds))
  | UpdatedAt =>
      exact inferInstanceAs
        (Std.TransCmp (compareOn fun row : RecordListPageRow => row.record.updatedAt.seconds))
  | UsageFrequency =>
      exact inferInstanceAs
        (Std.TransCmp (compareOn fun row : RecordListPageRow => frequency row.record.id))

omit [Unicode] in
/-- The last two terms of the order. -/
theorem transCmp_tie : Std.TransCmp fun a b : RecordListPageRow =>
    (compare b.record.updatedAt.seconds a.record.updatedAt.seconds).then
      (compare a.record.id.toText b.record.id.toText) :=
  inferInstanceAs (Std.TransCmp (compareLex
    (fun a b => compareOn (fun row : RecordListPageRow => row.record.updatedAt.seconds) b a)
    (compareOn fun row : RecordListPageRow => row.record.id.toText)))

instance : Std.TransCmp (recordListOrder frequency sort) := by
  have htie := transCmp_tie
  rcases sort with ⟨field, direction⟩
  cases direction with
  | Asc =>
      exact inferInstanceAs (Std.TransCmp (compareLex (comparePrimary frequency field) _))
  | Desc =>
      exact inferInstanceAs
        (Std.TransCmp (compareLex (fun a b => comparePrimary frequency field b a) _))

namespace Tables

variable {t : Tables} {filter : RecordFilter}

end Tables

end Order

end OakKeyring
