import OakKeyring.Vault.ListIndex
import OakKeyring.Vault.Pages

/-!
# The pages and the plain list

The list decrypts the records of its filter and compares texts; the pages come from the index by
SQL. On a clean index both show the same records, apart from searches in which a pattern and a text
part ways. They fail for reasons of their own: a record that cannot be decrypted, a pattern that is
too long.
-/

namespace OakKeyring

open Effect Paging Listing

section Clean

variable [Crypto]

/-- The index is marked as current and has one row for each record, which shows what the record
decrypts to. -/
structure CleanIndex (v : VaultService) (t : Tables) : Prop where
  current : t.metadata.lookup RECORD_LIST_INDEX_VERSION_KEY = some RECORD_LIST_INDEX_VERSION
  clean : ¬ markedDirty t
  indexed : ∀ id, id ∈ t.listIndex ↔ id ∈ t.records
  names : ∀ record ∈ t.storedRecords, ∀ entry name, t.listIndex.lookup record.id = some entry →
    Vault.recordNameOf v record = .ok name → entry.name = name
  subtitles : ∀ record ∈ t.storedRecords, ∀ entry subtitle,
    t.listIndex.lookup record.id = some entry →
    Vault.subtitleOf v record = .ok subtitle → entry.subtitle = subtitle

/-- The records that the list is made from can be decrypted. -/
def Listable (v : VaultService) (t : Tables) (filter : RecordFilter) : Prop :=
  ∀ record ∈ t.storedRecords, filter.query.selects record = true → filter.keeps record = true →
    ∃ name subtitle, Vault.recordNameOf v record = .ok name ∧
      Vault.subtitleOf v record = .ok subtitle

end Clean

/-- The terms of a search are in the texts of the row as they are. -/
def RecordListPageRow.containsTerms [Unicode] (query : String) (row : RecordListPageRow) : Bool :=
  decide (trim query = "") || matchesTerms (splitWhitespace query) row.name row.subtitle

/-- The pattern of a search fits the live rows that contain its terms, and no others. -/
def SearchesAlike [Unicode] (t : Tables) (query : String) : Prop :=
  ∀ row ∈ t.indexedRecords, row.record.deleted = false →
    searchMatches query row.entry = row.containsTerms query

namespace CleanIndex

variable [Crypto] {v : VaultService} {t : Tables}

/-- The row of a record. -/
def rowOf (t : Tables) (record : StoredRecord) : RecordListPageRow :=
  match t.listIndex.lookup record.id with
  | some entry => { record := record, name := entry.name, subtitle := entry.subtitle }
  | none => { record := record, name := "", subtitle := "" }

theorem lookup (h : CleanIndex v t) {record : StoredRecord} (hmem : record ∈ t.storedRecords) :
    ∃ entry, t.listIndex.lookup record.id = some entry := by
  have hid : record.id ∈ t.records :=
    Tables.id_mem_storedRecords.mp (List.mem_map_of_mem hmem)
  have hindexed : record.id ∈ t.listIndex := (h.indexed record.id).mpr hid
  rw [← AList.lookup_isSome] at hindexed
  exact Option.isSome_iff_exists.mp hindexed

theorem indexedRecords (h : CleanIndex v t) :
    t.indexedRecords = t.storedRecords.map (rowOf t) := by
  unfold Tables.indexedRecords
  rw [← List.filterMap_eq_map]
  apply List.filterMap_congr
  intro record hmem
  rcases h.lookup hmem with ⟨entry, hentry⟩
  simp only [Function.comp_apply, rowOf, hentry, Option.map_some]

/-- The index has as many rows as there are records. -/
theorem length_eq (h : CleanIndex v t) :
    t.listIndex.entries.length = t.records.entries.length := by
  have hkeys : t.listIndex.keys.Perm t.records.keys :=
    (List.perm_ext_iff_of_nodup t.listIndex.keys_nodup t.records.keys_nodup).mpr h.indexed
  have hlength := hkeys.length_eq
  simpa [AList.keys, List.keys] using hlength

end CleanIndex

namespace CleanIndex

variable [Crypto] {v : VaultService} {t : Tables}

/-- Rows that show what the records decrypt to. -/
theorem of_shown (hcurrent : t.metadata.lookup RECORD_LIST_INDEX_VERSION_KEY =
      some RECORD_LIST_INDEX_VERSION)
    (hclean : ¬ markedDirty t) (hindexed : ∀ id, id ∈ t.listIndex ↔ id ∈ t.records)
    (hshown : ∀ record ∈ t.storedRecords, ∀ entry, t.listIndex.lookup record.id = some entry →
      Vault.recordNameOf v record = .ok entry.name ∧
        Vault.subtitleOf v record = .ok entry.subtitle) : CleanIndex v t where
  current := hcurrent
  clean := hclean
  indexed := hindexed
  names := by
    intro record hmem entry name hentry hname
    exact Except.ok.inj ((hshown record hmem entry hentry).1.symm.trans hname)
  subtitles := by
    intro record hmem entry subtitle hentry hsubtitle
    exact Except.ok.inj ((hshown record hmem entry hentry).2.symm.trans hsubtitle)

/-- An index without stale rows is clean, for records that are stored with the additional data of
their ids and can be read. -/
theorem of_matches [LawfulCrypto] {kek : Bytes} (hopen : v.crypto.Opens kek)
    (hcurrent : t.metadata.lookup RECORD_LIST_INDEX_VERSION_KEY =
      some RECORD_LIST_INDEX_VERSION)
    (hclean : ¬ markedDirty t) (hmatches : IndexMatches kek t)
    (hread : ∀ id row, t.records.lookup id = some row → row.aad = recordAad id ∧
      ∃ payload, row.payload kek = some payload ∧
        payload.credentialType = row.credentialType) : CleanIndex v t := by
  -- an entry of the index matches the row it lists
  have hkeys : ∀ record ∈ t.storedRecords, ∀ entry, t.listIndex.lookup record.id = some entry →
      ∀ dek, v.crypto.getDek record.dekVersion = .ok dek →
        Vault.recordNameOf v record = .ok entry.name ∧
          Vault.subtitleOf v record = .ok entry.subtitle := by
    intro record hmem entry hentry dek hdek
    rcases Tables.mem_storedRecords hmem with ⟨row, hrow, hrecord⟩
    rcases hread record.id row hrow with ⟨haad, payload, hpayload, htype⟩
    have hfresh : (entry.name, entry.subtitle) = payload.indexFields := by
      by_contra hne
      exact (hmatches record.id).2 ⟨row, payload, entry, hrow, hpayload, hentry, hne⟩
    have hversion : record.dekVersion = row.dekVersion := by rw [hrecord]; rfl
    rw [hversion] at hdek
    have hplain := hopen.decryptPayload hpayload hdek
    have hshown := CryptoManager.shown_of_decryptPayload hplain
    rw [← hfresh, haad, htype] at hshown
    unfold Vault.recordNameOf Vault.subtitleOf
    rw [hrecord]
    exact hshown
  constructor
  · exact hcurrent
  · exact hclean
  · exact fun id => (hmatches id).1
  -- the names and subtitles shown are those of the payload
  · intro record hmem entry name hentry hname
    rcases CryptoManager.getDek_of_decryptNameOnly hname with ⟨dek, hdek⟩
    have hshown := (hkeys record hmem entry hentry dek hdek).1
    exact Except.ok.inj (hshown.symm.trans hname)
  · intro record hmem entry subtitle hentry hsubtitle
    rcases CryptoManager.getDek_of_decryptSubtitle hsubtitle with ⟨dek, hdek⟩
    have hshown := (hkeys record hmem entry hentry dek hdek).2
    exact Except.ok.inj (hshown.symm.trans hsubtitle)

end CleanIndex

/-! ## What the programs answer -/

namespace Vault

variable [Crypto] {v : VaultService} {t : Tables}

section Pages

variable [Unicode] {frequency : Uuid → Nat} {filter : RecordFilter} {sort : RecordSort}
  {limit offset : Nat}

end Pages

section Plain

variable [Unicode] {frequency : Uuid → Nat} {filter : RecordFilter} {sort : RecordSort}
  {states : List SyncStateRow}

omit [Unicode]

variable [Unicode]

end Plain

/-! ## Runs without a fault -/

section Existence

variable [Unicode] {frequency : Uuid → Nat} {filter : RecordFilter} {sort : RecordSort}
  {limit : Nat}

end Existence

section Listed

variable {states : List SyncStateRow}

variable [Unicode] {frequency : Uuid → Nat} {filter : RecordFilter} {sort : RecordSort}

end Listed

end Vault

end OakKeyring
