import OakKeyring.ImportExport.CsvParser
import OakKeyring.Lib.Separated
import OakKeyring.Samples.Import

/-!
# Plain rows there and back

An export joins the tags of a record with semicolons; the parser of rows splits them at commas.
Everything else of a login comes back.
-/

namespace OakKeyring

open Effect Transfer

/-- The crate `csv` keeps to RFC 4180 and drops a byte order mark. -/
class LawfulCsv [ExportFormats] [CsvReader] : Prop where
  fromPath_writeRows : ∀ {files : PathBuf → Option Bytes} {path : PathBuf}
    {rows : List (List String)} {bytes : Bytes}, writeRows rows = .ok bytes →
    (∀ row ∈ rows, row ≠ []) → files path = some (UTF8_BOM ++ bytes) →
    CsvReader.fromPath files path = .ok (rows.map .ok)

/-- The mapping that names the columns of an export. -/
def exportedColumns : CsvColumnMapping where
  nameColumn := "name"
  usernameColumn := "username"
  passwordColumn := "password"
  urlColumn := "url"
  notesColumn := "notes"
  tagsColumn := some "tags"
  skipHeader := true

/-- An item has the fields and the tags of a record. A row has no absent fields, only empty
ones. -/
structure SameLogin (record : ExportRecord) (item : ParsedItem) : Prop where
  name : item.fields.lookup "name" = some record.name
  username : item.fields.lookup "username" = some (record.username.getD "")
  password : item.fields.lookup "password" = some (record.password.getD "")
  url : item.fields.lookup "url" = some (record.url.getD "")
  notes : item.fields.lookup "notes" = some (record.notes.getD "")
  tags : item.tags = record.tags.getD []

/-- At most one tag, without a comma and without blanks at its ends. -/
def SurvivingTags (tags : List String) : Prop :=
  tags = [] ∨ ∃ tag, tags = [tag] ∧ ',' ∉ tag.toList ∧ trim tag = tag

/-! ## Tags -/

theorem trim_ne_of_validateTags {tags : List String} (h : validateTags tags = .ok ()) :
    ∀ tag ∈ tags, trim tag ≠ "" := by
  intro tag htag hempty
  have hvalid : validateTag tag = .ok () := (validateTags_iff.mp h).2 tag htag
  simp [validateTag, hempty] at hvalid

theorem map_toList_splitTags (raw : String) :
    (CsvParser.splitTags raw).map String.toList = Separated.words isWhitespace ',' raw.toList := by
  have hpiece : ∀ piece : List Char,
      (trim (String.ofList piece)).toList = Separated.strip isWhitespace piece := by
    intro piece
    rw [toList_trim, String.toList_ofList]
  unfold CsvParser.splitTags Separated.words
  induction raw.toList.splitOn ',' with
  | nil => rfl
  | cons piece pieces ih =>
      by_cases hempty : trim (String.ofList piece) = ""
      · have hstrip : Separated.strip isWhitespace piece = [] := by
          simpa [hempty] using (hpiece piece).symm
        simpa [hempty, hstrip] using ih
      · have hstrip : Separated.strip isWhitespace piece ≠ [] := by
          rw [← hpiece]
          simpa using hempty
        simpa [hempty, hstrip, hpiece] using ih

/-- The separators of the two sides differ, so a list of tags comes back only if it needs none. -/
theorem splitTags_eq_iff {tags : List String} (h : validateTags tags = .ok ()) :
    CsvParser.splitTags (";".intercalate tags) = tags ↔ SurvivingTags tags := by
  have hws : ∀ w ∈ tags.map String.toList, Separated.strip isWhitespace w ≠ [] := by
    intro w hw
    rcases List.mem_map.mp hw with ⟨tag, htag, heq⟩
    rw [← heq, ← toList_trim]
    simpa using trim_ne_of_validateTags h tag htag
  calc CsvParser.splitTags (";".intercalate tags) = tags
      ↔ (CsvParser.splitTags (";".intercalate tags)).map String.toList =
          tags.map String.toList :=
        (List.map_injective_iff.mpr fun _ _ => String.toList_injective).eq_iff.symm
    _ ↔ Separated.words isWhitespace ',' ([';'].intercalate (tags.map String.toList)) =
          tags.map String.toList := by
        rw [map_toList_splitTags, String.toList_intercalate]
        rfl
    _ ↔ tags.map String.toList = [] ∨ ∃ w, tags.map String.toList = [w] ∧ ',' ∉ w ∧
          Separated.strip isWhitespace w = w :=
        Separated.words_intercalate_eq_iff (by decide) (by decide) hws
    _ ↔ SurvivingTags tags := by
        refine or_congr List.map_eq_nil_iff ?_
        constructor
        · rintro ⟨w, hone, hcomma, hstrip⟩
          rcases List.map_eq_singleton_iff.mp hone with ⟨tag, htag, hw⟩
          refine ⟨tag, htag, hw ▸ hcomma, ?_⟩
          apply String.toList_injective
          rw [toList_trim, hw, hstrip]
        · rintro ⟨tag, hone, hcomma, htrim⟩
          refine ⟨tag.toList, by rw [hone]; rfl, hcomma, ?_⟩
          rw [← toList_trim, htrim]

/-! ## Rows -/

namespace CsvParser

/-- Where an export has the columns. -/
def exportIndices : Columns where
  nameIdx := 2
  usernameIdx := 3
  passwordIdx := 4
  urlIdx := 5
  notesIdx := 6
  tagsIdx := some 7

theorem resolveColumns_csvHeader :
    resolveColumns csvHeader exportedColumns = .ok exportIndices := by
  decide

/-- An absent list of tags and an empty one make the same column. -/
theorem extractTags_csvRow (record : ExportRecord) :
    extractTags (csvRow record) (some 7) =
      splitTags (";".intercalate (record.tags.getD [])) := by
  have hraw : (csvRow record)[7]? = some (";".intercalate (record.tags.getD [])) := by
    cases htags : record.tags with
    | none => simp [csvRow, htags]
    | some tags => simp [csvRow, htags]
  simp only [extractTags, hraw]
  by_cases hempty : ";".intercalate (record.tags.getD []) = ""
  · rw [if_pos hempty, hempty]
    decide
  · rw [if_neg hempty]

theorem sameLogin_item_iff {record : ExportRecord}
    (h : validateTags (record.tags.getD []) = .ok ()) (rowNumber : Nat) :
    SameLogin record (item exportIndices rowNumber (csvRow record)) ↔
      SurvivingTags (record.tags.getD []) := by
  have htags : (item exportIndices rowNumber (csvRow record)).tags =
      splitTags (";".intercalate (record.tags.getD [])) := extractTags_csvRow record
  rw [← splitTags_eq_iff h, ← htags]
  constructor
  · exact SameLogin.tags
  · intro hsame
    refine ⟨?_, ?_, ?_, ?_, ?_, hsame⟩ <;>
      simp [item, buildFields, FieldMap.of, exportIndices, getOrEmpty, csvRow,
        AList.lookup_insert_ne, -AList.insert_empty]

variable [ExportFormats] [CsvReader] [LawfulCsv]

/-- The parser gets through every exported file. -/
theorem parse_exported {files : PathBuf → Option Bytes} {path : PathBuf}
    {records : List ExportRecord} {bytes : Bytes}
    (hrows : writeRows (csvHeader :: records.map csvRow) = .ok bytes)
    (hfile : files path = some (UTF8_BOM ++ bytes)) :
    parse files path (some exportedColumns) =
      .ok (items exportIndices 0 (records.map csvRow)) := by
  have hne : ∀ row ∈ csvHeader :: records.map csvRow, row ≠ [] := by
    intro row hrow hnil
    rcases List.mem_cons.mp hrow with hheader | hrecord
    · cases hheader.symm.trans hnil
    · rcases List.mem_map.mp hrecord with ⟨record, -, heq⟩
      cases heq.trans hnil
  have hread := LawfulCsv.fromPath_writeRows hrows hne hfile
  calc parse files path (some exportedColumns)
      = (resolveColumns csvHeader exportedColumns >>= fun columns =>
          readItems path columns 0 ((records.map csvRow).map .ok)) := by
        simp only [parse, hread]
        rfl
    _ = readItems path exportIndices 0 ((records.map csvRow).map .ok) := by
        rw [resolveColumns_csvHeader]
        rfl
    _ = .ok (items exportIndices 0 (records.map csvRow)) := readItems_ok ..

/-- An exported file is read back just when the tags of every record survive. -/
theorem readBack_iff {files : PathBuf → Option Bytes} {path : PathBuf}
    {records : List ExportRecord} {bytes : Bytes}
    (hrows : writeRows (csvHeader :: records.map csvRow) = .ok bytes)
    (hfile : files path = some (UTF8_BOM ++ bytes))
    (htags : ∀ record ∈ records, validateTags (record.tags.getD []) = .ok ()) :
    (∃ items, parse files path (some exportedColumns) = .ok items ∧
      List.Forall₂ SameLogin records items) ↔
        ∀ record ∈ records, SurvivingTags (record.tags.getD []) := by
  have hparse := parse_exported hrows hfile
  have hitems : List.Forall₂ SameLogin records (items exportIndices 0 (records.map csvRow)) ↔
      ∀ record ∈ records, SurvivingTags (record.tags.getD []) :=
    forall₂_items_iff (fun record hmem => sameLogin_item_iff (htags record hmem)) 0
  rw [hparse, ← hitems]
  constructor
  · intro ⟨items, hparsed, hsame⟩
    exact Except.ok.inj hparsed ▸ hsame
  · intro hsame
    exact ⟨_, rfl, hsame⟩

end CsvParser

/-! ## Runs -/

section Runs

variable [Parsers] {w : World}

/-- What is written stands under the path it is for. -/
theorem wpe_writeAtomically_files {temp : String} {bytes : Bytes} {path : PathBuf} :
    wpe transferEnv (fun _ u => u.files path = some bytes) (fun _ _ => True)
      (writeAtomically temp bytes path) w := by
  refine (wpe_bind _ _).mpr (wpe_call ?_ fun _ _ _ _ _ => trivial)
  intro x a u hanswer hstep
  have hwritten : u = w.writeFile (path.withExtension temp) (some bytes) := by
    rcases hstep with ⟨hu, -⟩ | ⟨content, e, -, herror⟩
    · exact hu
    · cases hanswer.symm.trans herror
  refine wpe_call ?_ fun _ _ _ _ _ => trivial
  intro x' a' u' hanswer' hstep'
  rcases hstep' with ⟨source, hsource, hu', -⟩ | ⟨-, e, herror⟩
  · have hbytes : source = bytes := by
      rw [hwritten] at hsource
      simpa [World.writeFile] using hsource.symm
    rw [hu', hbytes]
    simp [World.writeFile]
  · cases hanswer'.symm.trans herror

variable [ExportFormats]

theorem wpe_writeCsv_files {payload : ExportPayload} {path : PathBuf} :
    wpe transferEnv
      (fun _ u => ∃ bytes, writeRows (csvHeader :: payload.records.map csvRow) = .ok bytes ∧
        u.files path = some (UTF8_BOM ++ bytes))
      (fun _ _ => True) (writeCsv payload path) w := by
  refine (wpe_bind _ _).mpr (wpe_value (fun bytes hbytes => ?_) fun _ _ => trivial)
  have hrows : writeRows (csvHeader :: payload.records.map csvRow) = .ok bytes :=
    mapError_eq_ok hbytes
  refine (wpe_bind _ _).mpr (wpe_mono ?_ (fun _ _ h => h) wpe_writeAtomically_files)
  intro _ u hfile
  exact ⟨bytes, hrows, hfile⟩

/-- A run that writes the file leaves the rows at its path. -/
theorem exists_rows_of_run {payload : ExportPayload} {path : PathBuf} {n : Nat}
    {trace : List (Event TransferI)} {w' : World}
    (hret : (writeCsv payload path).run.Returns trace (.ok n))
    (hpath : Path transferEnv w trace w') :
    ∃ bytes, writeRows (csvHeader :: payload.records.map csvRow) = .ok bytes ∧
      w'.files path = some (UTF8_BOM ++ bytes) :=
  ((wpe_iff _).mp wpe_writeCsv_files).1 trace n w' hret hpath

/-- The parser gives back what was exported just when the tags of every record survive. -/
theorem csv_roundTrip_iff [CsvReader] [LawfulCsv] {payload : ExportPayload} {path : PathBuf}
    {n : Nat} {trace : List (Event TransferI)} {w' : World}
    (hret : (writeCsv payload path).run.Returns trace (.ok n))
    (hpath : Path transferEnv w trace w')
    (htags : ∀ record ∈ payload.records, validateTags (record.tags.getD []) = .ok ()) :
    (∃ items, CsvParser.parse w'.files path (some exportedColumns) = .ok items ∧
      List.Forall₂ SameLogin payload.records items) ↔
        ∀ record ∈ payload.records, SurvivingTags (record.tags.getD []) := by
  rcases exists_rows_of_run hret hpath with ⟨bytes, hrows, hfile⟩
  exact CsvParser.readBack_iff hrows hfile htags

end Runs

/-! ## Logins with tags -/

/-- A reader of the tables that are written, with or without a byte order mark. -/
@[reducible] def referenceCsvReader [ExportFormats] : CsvReader where
  fromPath files path :=
    match files path with
    | none => .error "No such file or directory (os error 2)"
    | some bytes =>
        (readRows (if UTF8_BOM <+: bytes then bytes.drop 3 else bytes)).map fun rows =>
          rows.map .ok

theorem referenceCsvReader_lawful [ExportFormats] [LawfulExportFormats] :
    @LawfulCsv _ referenceCsvReader :=
  letI : CsvReader := referenceCsvReader
  { fromPath_writeRows := by
      intro files path rows bytes hrows _ hfile
      have hmark : UTF8_BOM <+: UTF8_BOM ++ bytes := List.prefix_append _ _
      have hread : readRows bytes = .ok rows := LawfulExportFormats.readRows_writeRows hrows
      have hrest : (UTF8_BOM ++ bytes).drop 3 = bytes := rfl
      simp only [CsvReader.fromPath, hfile, hmark, if_true, hrest, hread]
      rfl }

namespace CsvTags

def record (tags : List String) : ExportRecord where
  id := "11111111-1111-1111-1111-111111111111"
  credentialType := "login"
  name := "Mail, old"
  username := some "alice"
  password := some "p\"w"
  url := none
  notes := some "two\nlines"
  tags := some tags
  isFavorite := some false
  expiresAt := none
  publicKey := none
  privateKey := none
  passphrase := none
  appId := none
  secretKey := none

def payload (tags : List String) : ExportPayload where
  version := "1.0"
  vaultId := "vault"
  exportedAt := "2026-01-01T00:00:00+00:00"
  records := [record tags]

def rows (tags : List String) : List (List String) :=
  [csvHeader, csvRow (record tags)]

def path : PathBuf where
  absolute := true
  components := ["home", "user", "export.csv"]

abbrev exportFormats (tags : List String) : ExportFormats :=
  referenceExportFormats [rows tags] []

theorem lawfulExportFormats (tags : List String) : @LawfulExportFormats (exportFormats tags) :=
  referenceExportFormats_lawful (List.nodup_singleton _) List.nodup_nil

abbrev parsers [CsvReader] : Parsers :=
  { referenceParsers [] with csv := CsvParser.parse }

attribute [local instance] referenceCsvReader referenceCsvReader_lawful parsers

section

variable [ExportFormats] (tags : List String)

def written : Nat :=
  (UTF8_BOM ++ Json.bytes (CsvText.rows (rows tags))).length

def outcome : Except ImportExportError Nat × TransferBench :=
  TransferBench.complete KeyStore.Changed.newSalt KeyStore.Changed.newNonce Sample.instant
    (writeCsv (payload tags) path).run OneVault.bench

def trace : List (Event TransferI) :=
  TransferBench.completeTrace KeyStore.Changed.newSalt KeyStore.Changed.newNonce Sample.instant
    (writeCsv (payload tags) path).run OneVault.bench

theorem path_trace :
    Path transferEnv OneVault.bench.world (trace tags) (outcome tags).2.world := by
  unfold trace outcome
  exact TransferBench.path_complete _ _ _ _ _

variable {tags}

theorem returns_of_outcome (h : (outcome tags).1 = .ok (written tags)) :
    (writeCsv (payload tags) path).run.Returns (trace tags) (.ok (written tags)) := by
  rw [← h]
  exact TransferBench.returns_complete _ _ _ _ _

end

section

abbrev oneFormats : ExportFormats :=
  exportFormats ["work"]

theorem oneFormats_lawful : @LawfulExportFormats oneFormats :=
  lawfulExportFormats _

attribute [local instance] oneFormats oneFormats_lawful

/-- One tag comes back. -/
theorem readBack_one :
    ∃ items, CsvParser.parse (outcome ["work"]).2.world.files path (some exportedColumns) =
        .ok items ∧ List.Forall₂ SameLogin (payload ["work"]).records items := by
  have hret := returns_of_outcome (show (outcome ["work"]).1 = .ok (written ["work"]) from rfl)
  refine (csv_roundTrip_iff hret (path_trace _) ?_).mpr ?_
  · decide +kernel
  · intro record hmem
    rw [List.mem_singleton.mp hmem]
    exact Or.inr ⟨"work", rfl, by decide, by decide⟩

end

section

abbrev twoFormats : ExportFormats :=
  exportFormats ["work", "home"]

theorem twoFormats_lawful : @LawfulExportFormats twoFormats :=
  lawfulExportFormats _

attribute [local instance] twoFormats twoFormats_lawful

/-- Two tags come back as one. -/
theorem not_readBack_two :
    (∀ record ∈ (payload ["work", "home"]).records,
      validateTags (record.tags.getD []) = .ok ()) ∧
    (writeCsv (payload ["work", "home"]) path).run.Returns (trace ["work", "home"])
      (.ok (written ["work", "home"])) ∧
    Path transferEnv OneVault.bench.world (trace ["work", "home"])
      (outcome ["work", "home"]).2.world ∧
    ¬ ∃ items,
      CsvParser.parse (outcome ["work", "home"]).2.world.files path (some exportedColumns) =
        .ok items ∧ List.Forall₂ SameLogin (payload ["work", "home"]).records items := by
  have htags : ∀ record ∈ (payload ["work", "home"]).records,
      validateTags (record.tags.getD []) = .ok () := by
    decide +kernel
  have hret := returns_of_outcome
    (show (outcome ["work", "home"]).1 = .ok (written ["work", "home"]) from rfl)
  refine ⟨htags, hret, path_trace _, ?_⟩
  rcases exists_rows_of_run hret (path_trace _) with ⟨bytes, hrows, hfile⟩
  intro hback
  have hsurvive := (CsvParser.readBack_iff hrows hfile htags).mp hback _ List.mem_cons_self
  rcases hsurvive with hnone | ⟨tag, hone, -⟩
  · cases hnone
  · cases hone

end

end CsvTags

end OakKeyring
