import OakKeyring.Lib.Separated
import OakKeyring.Samples.Import
import OakKeyring.Vault.PagedListing

/-!
# Where pages and list agree

Every filter but a search keeps the same records in the statement and in the list. A search does
when its terms, as patterns, fit the live records that contain them and no others, as they do when
they have no wildcard. The list needs records that can be decrypted, the pages short patterns.
-/

namespace OakKeyring

open Effect Paging Listing

section Filters

variable [Unicode] {t : Tables} {filter : RecordFilter}

end Filters

/-! ## Agreement -/

section Agreement

variable [Crypto] [Unicode] {v : VaultService} {frequency : Uuid → Nat} {t : Tables}
  {filter : RecordFilter} {sort : RecordSort}

end Agreement

namespace Wildcard

section

attribute [local instance] Sample.codec Sample.serde OneRecord.crypto FileImport.unicode

def service : VaultService :=
  OneRecord.service 1

/-- A vault in which the record `note` was created. -/
def created : Bench :=
  (Bench.perform Sample.instant service OneRecord.create none
    { tables := .fresh Sample.seed
      uuids := [OneRecord.recordId]
      nonces := [Nonce.filled 1, Nonce.filled 2]
      fault := none }).2

/-- The vault after its index was built. -/
def vault : Tables :=
  (run (Bench.serve Sample.instant) (Vault.ensureRecordListIndex service).run created).2.tables

/-- The rows of the index, and what the records decrypt to. -/
def built : Bool :=
  decide (vault.metadata.lookup RECORD_LIST_INDEX_VERSION_KEY = some RECORD_LIST_INDEX_VERSION) &&
    decide (vault.metadata.lookup RECORD_LIST_INDEX_DIRTY_KEY = some "0") &&
    decide (vault.listIndex.keys = vault.records.keys) &&
    vault.storedRecords.all fun record =>
      decide (vault.listIndex.lookup record.id = some { name := "note", subtitle := "" }) &&
        decide (Vault.recordNameOf service record = .ok "note") &&
        decide (Vault.subtitleOf service record = .ok "") && !record.deleted

/-- The index is built, and the rows of the vault are told apart by a search only where it has a
wildcard. -/
theorem built_eq :
    built = true ∧
      ((vault.indexedRecords.all fun row =>
          searchMatches "_" row.entry && !row.containsTerms "_" && !row.record.deleted) = true ∧
        vault.indexedRecords ≠ []) ∧
      (vault.indexedRecords.all fun row =>
        searchMatches "note" row.entry == row.containsTerms "note") = true ∧
      vault.recordListRaises (.Search "note") = false := by
  decide +kernel

theorem clean :
    CleanIndex service vault ∧ ∀ query, Listable service vault (.Search query) := by
  have hbuilt := built_eq.1
  simp only [built, Bool.and_eq_true, decide_eq_true_eq, List.all_eq_true] at hbuilt
  rcases hbuilt with ⟨⟨⟨hversion, hdirty⟩, hkeys⟩, hrecords⟩
  constructor
  · apply CleanIndex.of_shown hversion
    · intro hmarked
      exact absurd (hdirty.symm.trans hmarked) (by decide)
    · intro id
      rw [AList.mem_keys, AList.mem_keys, hkeys]
    · intro record hmem entry hentry
      rcases hrecords record hmem with ⟨⟨⟨hindexed, hname⟩, hsubtitle⟩, _⟩
      rw [hindexed] at hentry
      rw [← Option.some.inj hentry]
      exact ⟨hname, hsubtitle⟩
  · intro query record hmem _ _
    rcases hrecords record hmem with ⟨⟨⟨_, hname⟩, hsubtitle⟩, _⟩
    exact ⟨"note", "", hname, hsubtitle⟩

def frequency : Uuid → Nat :=
  fun _ => 0

def sort : RecordSort where
  field := .Name
  direction := .Asc

end

end Wildcard

/-! ## Searches without wildcards -/

/-- What lower case looks like: no ASCII capital is left, and no blank is new. -/
class LawfulUnicode [Unicode] : Prop where
  toLower_toLowercase : ∀ (s : String), ∀ c ∈ (toLowercase s).toList, c.toLower = c
  blank_toLowercase : ∀ (s : String), ' ' ∈ (toLowercase s).toList → ' ' ∈ s.toList

section Blanks

/-- A text without a blank lies on one side of it. -/
theorem infix_blank_iff {term xs ys : List Char} (hblank : ' ' ∉ term) :
    term <:+: xs ++ ' ' :: ys ↔ term <:+: xs ∨ term <:+: ys := by
  -- a beginning of what follows the blank has the blank, or is empty
  have hnone : ∀ part : List Char, ' ' ∉ part → part <+: ' ' :: ys → part = [] := by
    intro part hpart hprefix
    cases part with
    | nil => rfl
    | cons c rest =>
        have hfirst : c = ' ' := (List.cons_prefix_cons.mp hprefix).1
        exact absurd (hfirst ▸ List.mem_cons_self) hpart
  rw [List.infix_append_iff]
  constructor
  · intro h
    rcases h with hleft | hright | ⟨before, after, hterm, hsuffix, hprefix⟩
    · exact Or.inl hleft
    · rcases List.infix_cons_iff.mp hright with hprefix | hinside
      · have hempty : term = [] := hnone term hblank hprefix
        rw [hempty]
        exact Or.inl List.nil_infix
      · exact Or.inr hinside
    · have hafter : ' ' ∉ after := by
        intro hmem
        apply hblank
        rw [hterm]
        exact List.mem_append_right before hmem
      rw [hnone after hafter hprefix, List.append_nil] at hterm
      rw [hterm]
      exact Or.inl hsuffix.isInfix
  · intro h
    rcases h with hleft | hright
    · exact Or.inl hleft
    · exact Or.inr (Or.inl (List.infix_cons hright))

end Blanks

section Words

theorem isWhitespace_of_mem_splitWhitespace {s word : String} (hword : word ∈ splitWhitespace s) :
    word ≠ "" ∧ ∀ c ∈ word.toList, isWhitespace c = false ∧ c ∈ s.toList := by
  unfold splitWhitespace at hword
  rcases List.mem_map.mp hword with ⟨piece, hpiece, hvalue⟩
  rcases List.mem_filter.mp hpiece with ⟨hpiece, hnonempty⟩
  rw [← hvalue]
  constructor
  · intro hempty
    have hnil : piece = [] := by simpa using congrArg String.toList hempty
    rw [hnil] at hnonempty
    cases hnonempty
  · intro c hc
    rw [String.toList_ofList] at hc
    exact Separated.splitOnP_free s.toList hpiece c hc

/-- A text that is trimmed to nothing has no words. -/
theorem splitWhitespace_of_trim {s : String} (h : trim s = "") : splitWhitespace s = [] := by
  have hall : ∀ c ∈ s.toList, isWhitespace c = true := by
    have hfront : (s.toList.dropWhile isWhitespace).reverse.dropWhile isWhitespace = [] := by
      simpa [trim] using congrArg String.toList h
    have hblank : ∀ c ∈ s.toList.dropWhile isWhitespace, isWhitespace c = true := by
      intro c hc
      exact (List.dropWhile_eq_nil_iff.mp hfront) c (List.mem_reverse.mpr hc)
    intro c hc
    rw [← List.takeWhile_append_dropWhile (p := isWhitespace) (l := s.toList)] at hc
    rcases List.mem_append.mp hc with hfirst | hlater
    · exact List.mem_takeWhile_imp hfirst
    · exact hblank c hlater
  apply List.eq_nil_iff_forall_not_mem.mpr
  intro word hword
  rcases isWhitespace_of_mem_splitWhitespace hword with ⟨hne, hfree⟩
  apply hne
  cases hcase : word.toList with
  | nil => exact String.toList_injective hcase
  | cons c rest =>
      have hc : c ∈ word.toList := by
        rw [hcase]
        exact List.mem_cons_self
      have hspace := hall c (hfree c hc).2
      rw [(hfree c hc).1] at hspace
      cases hspace

end Words

section Plain

variable [Unicode] [LawfulUnicode] {t : Tables} {query : String}

/-- Searches without wildcards agree, where no text has a NUL. -/
theorem searchesAlike_of_plain
    (hquery : ∀ term ∈ searchTerms query, ∀ c ∈ term.toList, plainCharacter c)
    (htexts : ∀ row ∈ t.indexedRecords, '\x00' ∉ row.entry.searchText.toList) :
    SearchesAlike t query := by
  intro row hrow _
  -- a word that is searched is lower case already and has no blank
  have hterm : ∀ word ∈ splitWhitespace query, toLowercase word ≠ "" →
      (like ("%" ++ toLowercase word ++ "%") row.entry.searchText = true ↔
        (containsText (toLowercase row.name) (toLowercase word) ||
          containsText (toLowercase row.subtitle) (toLowercase word)) = true) := by
    intro word hword hne
    have hmem : toLowercase word ∈ searchTerms query := by
      apply List.mem_filter.mpr
      exact ⟨List.mem_map_of_mem hword, by simpa using hne⟩
    have hblank : ' ' ∉ (toLowercase word).toList := by
      intro hblank
      have hspace := (isWhitespace_of_mem_splitWhitespace hword).2 ' '
        (LawfulUnicode.blank_toLowercase word hblank)
      exact absurd hspace.1 (by decide)
    have hsearch : row.entry.searchText.toList =
        (toLowercase row.name).toList ++ ' ' :: (toLowercase row.subtitle).toList := by
      simp [IndexRow.searchText, RecordListPageRow.entry, String.toList_append]
    -- the text of the index is lower case as well
    have hlower : ∀ c ∈ row.entry.searchText.toList, c.toLower = c := by
      rw [hsearch]
      intro c hc
      rcases List.mem_append.mp hc with hname | hc
      · exact LawfulUnicode.toLower_toLowercase _ c hname
      · rcases List.mem_cons.mp hc with hspace | hsubtitle
        · rw [hspace]
          rfl
        · exact LawfulUnicode.toLower_toLowercase _ c hsubtitle
    rw [like_iff_contains (hquery _ hmem) (htexts row hrow), map_toLower_eq hlower,
      map_toLower_eq (LawfulUnicode.toLower_toLowercase word), hsearch, infix_blank_iff hblank,
      Bool.or_eq_true]
    simp only [containsText, decide_eq_true_eq]
  unfold RecordListPageRow.containsTerms
  -- an empty query keeps every row
  by_cases hempty : trim query = ""
  · simp [searchMatches, searchTerms, splitWhitespace_of_trim hempty, hempty]
  · rw [decide_eq_false hempty, Bool.false_or, Bool.eq_iff_iff]
    unfold searchMatches matchesTerms
    rw [List.all_eq_true, List.all_eq_true]
    constructor
    -- each word of the query is a term, and each term comes from a word
    · intro h word hword
      by_cases hne : toLowercase word = ""
      · rw [hne]
        simp [containsText]
      · apply (hterm word hword hne).mp
        apply h
        exact List.mem_filter.mpr ⟨List.mem_map_of_mem hword, by simpa using hne⟩
    · intro h term hmem
      rcases List.mem_filter.mp hmem with ⟨hmapped, hne⟩
      rcases List.mem_map.mp hmapped with ⟨word, hword, hvalue⟩
      rw [← hvalue] at hne ⊢
      exact (hterm word hword (by simpa using hne)).mpr (h word hword)

end Plain

end OakKeyring
