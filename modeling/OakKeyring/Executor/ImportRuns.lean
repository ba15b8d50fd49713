import OakKeyring.Executor.Import
import OakKeyring.Vault.Created

/-!
# What an import amounts to

Once a file is parsed and validated, an import creates the records of the items that pass, one
after the other, whichever way the session came about.
-/

namespace OakKeyring

open Effect Transfer

/-! ## The items of a file -/

section Items

variable [Crypto] [Argon2] [ExportFormats] [Parsers]

/-- What the bytes of a backup hold. -/
def okbContents (password : Option String) (data : Bytes) :
    Except ImportExportError (List ParsedItem) := do
  let (salt, nonce, ciphertext) ← OkbParser.split data
  match password with
  | none => throw .PasswordRequired
  | some password =>
      let dek ← (argon2id (utf8 password) salt .medium).mapError .DecryptionFailed
      let plaintext ← (Crypto.aeadDecrypt ciphertext nonce [] dek).mapError .DecryptionFailed
      let payload ← (payloadFromSlice plaintext).mapError (.ParseError "okb")
      return payload.records.map okbItem

/-- The items of the file at a path. -/
def fileItems (files : PathBuf → Option Bytes) (source : ImportSource) (path : PathBuf)
    (password : Option String) (mapping : Option CsvColumnMapping) :
    Except ImportExportError (List ParsedItem) :=
  match source with
  | .OpenKeyringBackup =>
      match files path with
      | some data => okbContents password data
      | none => .error (.FileNotFound path)
  | source => Parsers.parse files source path password mapping

/-- A preview passes no column mapping on. -/
def ImportRoute.mapping (route : ImportRoute) (command : ImportCommand) :
    Option CsvColumnMapping :=
  match route with
  | .Previewed => none
  | .Direct => command.columnMapping

def importItemsOf (files : PathBuf → Option Bytes) (route : ImportRoute)
    (command : ImportCommand) : Except ImportExportError (List ParsedItem) :=
  fileItems files command.source command.path command.password (route.mapping command)

end Items

/-! ## Parsing -/

section Parsing

variable [Crypto] [Argon2] [ExportFormats] [Parsers] {w : World}

omit [Crypto] [ExportFormats] in
/-- A key is derived from a password and nothing else happens. -/
theorem wpe_deriveKey {password : String} {salt : Salt} {convert : String → ImportExportError} :
    wpe transferEnv (fun dek u => u = w ∧ argon2id (utf8 password) salt .medium = .ok dek)
      (fun _ u => u = w)
      (onKeystore convert (KeyStore.deriveKeyLocked password salt .medium)) w := by
  refine wpe_mapError (wpe_embed keystore_serves ?_)
  have hsame : ∀ d, d = w.keystore → World.keystorePart.set w d = w := by
    intro d hd
    rw [hd]
    exact World.keystorePart.set_get w
  refine (wpe_bind _ _).mpr (wpe_call ?_ ?_)
  · rintro x a d - hstep
    have hd : d = w.keystore := hstep
    cases hdek : argon2id (utf8 password) salt .medium with
    | error e => exact hsame d hd
    | ok dek => exact ⟨hsame d hd, rfl⟩
  · rintro x e d - hstep
    have hd : d = w.keystore := hstep
    exact hsame d hd

theorem wpe_parse_okb {path : PathBuf} {password : Option String} :
    wpe transferEnv
      (fun items u => u = w ∧ ∃ data, w.files path = some data ∧
        okbContents password data = .ok items)
      (fun _ u => u = w) (OkbParser.parse path password) w := by
  refine (wpe_bind _ _).mpr (wpe_call ?_ ?_)
  · rintro answer data u hanswer ⟨hu, hread⟩
    have hu : u = w := hu
    have hanswer : answer = .ok data := hanswer
    have hdata : w.files path = some data := by
      -- the file is read as it is, or the call fails
      rcases hread with ⟨bytes, hbytes, hok⟩ | ⟨e, herror⟩
      · rw [hanswer] at hok
        rw [Except.ok.inj hok]
        exact hbytes
      · rw [hanswer] at herror
        cases herror
    rw [hu]
    refine (wpe_bind _ _).mpr (wpe_value (fun parts hparts => ?_) fun _ _ => rfl)
    cases password with
    | none => exact rfl
    | some password =>
        refine (wpe_bind _ _).mpr (wpe_mono ?_ (fun _ _ h => h) wpe_deriveKey)
        rintro dek u ⟨hu, hdek⟩
        rw [hu]
        refine (wpe_bind _ _).mpr (wpe_value (fun plaintext hplain => ?_) fun _ _ => rfl)
        refine (wpe_bind _ _).mpr (wpe_value (fun payload hpayload => ?_) fun _ _ => rfl)
        refine ⟨rfl, data, hdata, ?_⟩
        unfold okbContents
        rw [hparts]
        simp [hdek, mapError_eq_ok hplain, mapError_eq_ok hpayload, bind, Except.bind,
          Except.mapError, pure, Except.pure]
  -- a file that cannot be read is not parsed
  · rintro answer e u - ⟨hu, -⟩
    exact hu

/-- A parsed file gives its items, and the world stays as it is. -/
theorem wpe_parseFile {session : ImportSession} :
    wpe transferEnv
      (fun items u => u = w ∧ fileItems w.files session.source session.filePath
        session.decryptPassword session.csvMapping = .ok items)
      (fun _ u => u = w) (parseFile session) w := by
  -- the parsers of the other formats read the file on their own
  have hforeign : ∀ source, source ≠ .OpenKeyringBackup →
      wpe transferEnv
        (fun items u => u = w ∧ Parsers.parse w.files source session.filePath
          session.decryptPassword session.csvMapping = .ok items)
        (fun _ u => u = w)
        (Fallible.call (I := TransferI)
          (.parse source session.filePath session.decryptPassword session.csvMapping)
          (fun (answer : Except ImportExportError (List ParsedItem)) => answer) id) w := by
    intro source _
    refine wpe_call ?_ ?_
    · rintro answer items u hanswer ⟨hu, hparse⟩
      have hanswer : answer = .ok items := hanswer
      refine ⟨hu, ?_⟩
      rcases hparse with hparsed | ⟨e, herror⟩
      · rw [← hparsed]
        exact hanswer
      · rw [hanswer] at herror
        cases herror
    · rintro answer e u - ⟨hu, -⟩
      exact hu
  unfold parseFile fileItems
  cases session.source with
  | OpenKeyringBackup =>
      -- a backup is opened with its password
      refine wpe_mono ?_ (fun _ _ h => h) wpe_parse_okb
      rintro items u ⟨hu, data, hdata, hitems⟩
      refine ⟨hu, ?_⟩
      rw [hdata]
      exact hitems
  | KeePass => exact hforeign .KeePass (by decide)
  | OnePassword1pux => exact hforeign .OnePassword1pux (by decide)
  | OnePasswordOpvault => exact hforeign .OnePasswordOpvault (by decide)
  | Bitwarden => exact hforeign .Bitwarden (by decide)
  | Csv => exact hforeign .Csv (by decide)

end Parsing

/-! ## Sessions -/

section Sessions

variable [Crypto] [Argon2] [ExportFormats] [TextPatterns] [Parsers] {w : World}

omit [Crypto] [Argon2] [ExportFormats] [TextPatterns] in
theorem wp_headersOf (session : ImportSession) :
    wp transferEnv (fun _ u => u = w) (headersOf session) w := by
  unfold headersOf
  cases session.source with
  | Csv =>
      intro headers u hstep
      exact hstep
  | KeePass => exact rfl
  | OnePassword1pux => exact rfl
  | OnePasswordOpvault => exact rfl
  | Bitwarden => exact rfl
  | OpenKeyringBackup => exact rfl

/-- A session whose file has these items. -/
def ImportSession.validatedWith (session : ImportSession) (items : List ParsedItem) :
    ImportSession :=
  { session with
    status := .Validated
    validationResult := some (validateItems items (getRulesForFormat session.source))
    mappedRecords := items.map mapParsedItem }

theorem wp_validateImportFile {sessions : ImportSessions} {id : Uuid} {session : ImportSession}
    (hsession : sessions.lookup id = some session) (hcreated : session.status = .Created) :
    wp transferEnv
      (fun result u => u = w ∧ ∀ preview, result.1 = .ok preview →
        ∃ items, fileItems w.files session.source session.filePath session.decryptPassword
            session.csvMapping = .ok items ∧
          result.2 = sessions.insert id (session.validatedWith items))
      (validateImportFile sessions id) w := by
  unfold validateImportFile
  rw [hsession]
  dsimp only
  rw [if_neg (not_not_intro hcreated)]
  refine (wp_bind _ _ _ _ _).mpr (wp_mono ?_ (wp_of_wpe
    (Q := fun outcome u => u = w ∧ ∀ items, outcome = .ok items →
      fileItems w.files session.source session.filePath session.decryptPassword
        session.csvMapping = .ok items) ?_))
  · rintro outcome u ⟨hu, hitems⟩
    rw [hu]
    cases outcome with
    | error e => exact ⟨rfl, fun _ heq => nomatch heq⟩
    | ok items =>
        refine (wp_bind _ _ _ _ _).mpr (wp_mono ?_ (wp_headersOf session))
        intro csvHeaders u' hu'
        exact ⟨hu', fun _ _ => ⟨items, hitems items rfl, rfl⟩⟩
  · refine wpe_mono ?_ ?_ wpe_parseFile
    · rintro items u ⟨hu, hitems⟩
      refine ⟨hu, ?_⟩
      intro items' heq
      rw [← Except.ok.inj heq]
      exact hitems
    · intro e u hu
      exact ⟨hu, fun _ heq => nomatch heq⟩

/-- A session that was just created for a file. -/
def ImportSessions.HasNew (sessions : ImportSessions) (id : Uuid) (source : ImportSource)
    (path : PathBuf) (password : Option String) (mapping : Option CsvColumnMapping) : Prop :=
  ∃ session : ImportSession, sessions.lookup id = some session ∧ session.status = .Created ∧
    session.source = source ∧ session.filePath = path ∧ session.decryptPassword = password ∧
      session.csvMapping = mapping

/-- A session whose file was found to have these items. -/
def ImportSessions.HasValidated (sessions : ImportSessions) (id : Uuid)
    (source : ImportSource) (items : List ParsedItem) : Prop :=
  ∃ session : ImportSession, session.source = source ∧
    sessions.lookup id = some (session.validatedWith items)

omit [Crypto] [Argon2] [ExportFormats] [TextPatterns] in
/-- The new session is in the map under its id. -/
theorem wp_createImportSession {sessions : ImportSessions} {source : ImportSource}
    {path : PathBuf} {password : Option String} {mapping : Option CsvColumnMapping}
    {importAsNotes : Bool} :
    wp transferEnv
      (fun result u => u = w ∧ result.2.HasNew result.1 source path password mapping)
      (createImportSession sessions source path password mapping importAsNotes) w := by
  rintro (id : Uuid) u hfresh
  rw [vault_fresh_still id u hfresh]
  rintro (createdAt : DateTime) u' hnow
  rw [vault_now_still createdAt u' hnow]
  exact ⟨rfl, _, AList.lookup_insert _, rfl, rfl, rfl, rfl, rfl⟩

/-- A new session whose file is validated has the items of the file. -/
theorem wp_validateNewSession {sessions : ImportSessions} {id : Uuid} {source : ImportSource}
    {path : PathBuf} {password : Option String} {mapping : Option CsvColumnMapping}
    (hnew : sessions.HasNew id source path password mapping) :
    wp transferEnv
      (fun result u => u = w ∧ ∀ preview, result.1 = .ok preview →
        ∃ items, fileItems w.files source path password mapping = .ok items ∧
          result.2.HasValidated id source items)
      (validateImportFile sessions id) w := by
  rcases hnew with ⟨session, hsession, hstatus, hsource, hpath, hpassword, hmapping⟩
  refine wp_mono ?_ (wp_validateImportFile hsession hstatus)
  rintro ⟨validated, sessions'⟩ u ⟨hu, hvalidated⟩
  refine ⟨hu, ?_⟩
  intro preview hpreview
  rcases hvalidated preview hpreview with ⟨items, hitems, hsessions⟩
  rw [hsource, hpath, hpassword, hmapping] at hitems
  refine ⟨items, hitems, session, hsource, ?_⟩
  have hsessions : sessions' = sessions.insert id (session.validatedWith items) := hsessions
  rw [hsessions]
  exact AList.lookup_insert _

/-! ## The records of an import -/

/-- The items that no rule refuses. -/
def importedItems (source : ImportSource) (items : List ParsedItem) : List ParsedItem :=
  items.filter (passes (getRulesForFormat source))

def refusedItems (source : ImportSource) (items : List ParsedItem) : List ParsedItem :=
  items.filter fun item => !passes (getRulesForFormat source) item

def recordOf (item : ParsedItem) : ImportableRecord :=
  importable (mapParsedItem item)

def resultOf (source : ImportSource) (items : List ParsedItem) : ImportResult where
  imported := (importedItems source items).length
  reviewed := 0
  skipped := 0
  failed := 0
  validationFailed := (refusedItems source items).length

omit [Argon2] [ExportFormats] [Parsers] in
/-- An import of items: the records of those that pass are created. -/
def importItems (vault : Option VaultService) (source : ImportSource) (items : List ParsedItem) :
    Prog TransferI ImportOutcome := do
  match ← createRecords vault ((importedItems source items).map recordOf) .zero with
  | none => return .Cancelled "import_execute"
  | some counts => reportImport vault source (resultOf source items) counts

variable [Unicode]

omit [Crypto] [Argon2] [ExportFormats] [Parsers] in
/-- Nothing counts as a duplicate, and nothing is left to review. -/
theorem executeImport_validated {sessions : ImportSessions} {id : Uuid} {session : ImportSession}
    {items : List ParsedItem} (importAsNotes : Bool)
    (hsession : sessions.lookup id = some (session.validatedWith items)) :
    (executeImport sessions
      { sessionId := id
        existingKeys := []
        importAsNotes := importAsNotes }).1 =
      .ok (resultOf session.source items,
        (importedItems session.source items).map recordOf) := by
  have hpassed : (validateItems items (getRulesForFormat session.source)).itemPassed =
      items.map (passes (getRulesForFormat session.source)) := (validateItems_eq _ _).1
  have hreview : (validateItems items (getRulesForFormat session.source)).reviewItems = [] :=
    (validateItems_eq _ _).2
  have hdup : detectDuplicates ((items.map mapParsedItem).map parsedForDup) [] =
      (items.map mapParsedItem).map fun _ => false := by
    unfold detectDuplicates
    rw [List.map_map]
    rfl
  have hsorted := sortRecords_unmatched mapParsedItem (passes (getRulesForFormat session.source))
    items
  unfold executeImport
  rw [hsession]
  unfold ImportSession.validatedWith
  simp only [ne_eq, not_true_eq_false, if_false, Option.map_some, Option.getD_some, hpassed,
    hreview, hdup, hsorted, List.map_nil, ite_self, List.append_nil]
  simp [resultOf, importedItems, refusedItems, recordOf]

variable {Q : ImportOutcome → World → Prop} {vault : Option VaultService}

omit [Argon2] [ExportFormats] in
/-- A validated session is imported, or cancelled first. -/
theorem wp_importSession {sessions : ImportSessions} {command : ImportCommand} {id : Uuid}
    {items : List ParsedItem} (hvalidated : sessions.HasValidated id command.source items)
    (hcancelled : Q (.Cancelled "import_execute") w)
    (hitems : wp transferEnv Q (importItems vault command.source items) w) :
    wp transferEnv (fun result u => Q result.1 u) (importSession vault sessions command id) w := by
  rcases hvalidated with ⟨session, hsource, hsession⟩
  have hexecuted := executeImport_validated command.importAsNotes hsession
  rw [hsource] at hexecuted
  unfold importSession
  cases hrun : executeImport sessions
      { sessionId := id
        existingKeys := []
        importAsNotes := command.importAsNotes } with
  | mk executed sessions' =>
      rw [hrun] at hexecuted
      have hresult : executed = .ok (resultOf command.source items,
          (importedItems command.source items).map recordOf) := hexecuted
      rw [hresult]
      refine wp_unlessCancelled hcancelled ?_
      refine (wp_bind _ _ _ _ _).mpr (wp_mono ?_ ((wp_bind _ _ _ _ _).mp hitems))
      intro created u hcreated
      cases created with
      | none => exact hcreated
      | some counts =>
          refine (wp_bind _ _ _ _ _).mpr (wp_mono ?_ hcreated)
          intro outcome u' hend
          exact hend

/-- An import creates the records of the file's items, or stops before the first. -/
theorem wp_importFile {route : ImportRoute} {sessions : ImportSessions} {command : ImportCommand}
    (hstop : ∀ outcome : ImportOutcome,
      (∀ imported reviewed skipped failed breakdown,
        outcome ≠ .ImportCompleted imported reviewed skipped failed breakdown) → Q outcome w)
    (hitems : ∀ items, importItemsOf w.files route command = .ok items →
      wp transferEnv Q (importItems vault command.source items) w) :
    wp transferEnv (fun result u => Q result.1 u) (importFile route vault sessions command) w := by
  -- the two ways to stop before the records are created
  have hcancelled : ∀ operation, Q (.Cancelled operation) w :=
    fun _ => hstop _ fun _ _ _ _ _ heq => nomatch heq
  have hfailed : ∀ e messageKey message, Q (importError e messageKey message) w :=
    fun _ _ _ => hstop _ fun _ _ _ _ _ heq => nomatch heq
  cases route with
  | Direct =>
      -- the file is validated in the session that was just created
      refine wp_unlessCancelled (hcancelled _) ?_
      have hopened : wp transferEnv
          (fun result u => u = w ∧
            match result.1 with
            | .ok id => ∃ items, importItemsOf w.files .Direct command = .ok items ∧
                result.2.HasValidated id command.source items
            | .error outcome => ∃ e, outcome =
                importError e "error.import_validate_failed" "Failed to validate import file")
          (openImportSession sessions { command with sessionId := none }) w := by
        refine (wp_bind _ _ _ _ _).mpr (wp_mono ?_ wp_createImportSession)
        rintro ⟨id, sessions'⟩ u ⟨hu, hnew⟩
        rw [hu]
        refine (wp_bind _ _ _ _ _).mpr (wp_mono ?_ (wp_validateNewSession hnew))
        rintro ⟨validated, sessions''⟩ u' ⟨hu', hvalidated⟩
        cases validated with
        | error e => exact ⟨hu', e, rfl⟩
        | ok preview => exact ⟨hu', hvalidated preview rfl⟩
      refine (wp_bind _ _ _ _ _).mpr (wp_mono ?_ hopened)
      rintro ⟨opened, sessions'⟩ u ⟨hu, hopened⟩
      rw [hu]
      cases opened with
      | error outcome =>
          rcases hopened with ⟨e, houtcome⟩
          have houtcome : outcome = _ := houtcome
          rw [houtcome]
          exact hfailed _ _ _
      | ok id =>
          rcases hopened with ⟨items, hread, hvalidated⟩
          exact wp_importSession hvalidated (hcancelled _) (hitems items hread)
  | Previewed =>
      -- the session is created and previewed, and executed only after that
      have hpreviewed : wp transferEnv
          (fun result u => u = w ∧
            match result.1 with
            | .ImportValidated id _ => ∃ items,
                importItemsOf w.files .Previewed command = .ok items ∧
                  result.2.HasValidated id command.source items
            | .ImportCompleted .. => False
            | _ => True)
          (handleValidateImportFile sessions command.source command.path command.password) w := by
        refine wp_unlessCancelled ⟨rfl, trivial⟩ ?_
        refine (wp_bind _ _ _ _ _).mpr (wp_mono ?_ wp_createImportSession)
        rintro ⟨id, sessions'⟩ u ⟨hu, hnew⟩
        rw [hu]
        refine (wp_bind _ _ _ _ _).mpr (wp_mono ?_ (wp_validateNewSession hnew))
        rintro ⟨validated, sessions''⟩ u' ⟨hu', hvalidated⟩
        cases validated with
        | error e => exact ⟨hu', trivial⟩
        | ok preview => exact ⟨hu', hvalidated preview rfl⟩
      refine (wp_bind _ _ _ _ _).mpr (wp_mono ?_ hpreviewed)
      rintro ⟨outcome, sessions'⟩ u ⟨hu, hpreview⟩
      rw [hu]
      cases outcome with
      | Cancelled operation => exact hcancelled operation
      | Error source messageKey fallback => exact hstop _ fun _ _ _ _ _ heq => nomatch heq
      | ImportCompleted imported reviewed skipped failed breakdown => exact hpreview.elim
      | ImportValidated id preview =>
          rcases hpreview with ⟨items, hread, hvalidated⟩
          refine wp_unlessCancelled (hcancelled _) ?_
          exact wp_importSession hvalidated (hcancelled _) (hitems items hread)

end Sessions

/-! ## The create loop -/

def ImportableRecord.params (record : ImportableRecord) : CreateRecordParams :=
  importParams record.credentialType record.fields record.tags

section Loop

variable [Crypto] [Parsers] {vault : Option VaultService} {t t' u : Tables} {w : World}

/-- The records that were added to the vault. -/
structure Ran (vault : Option VaultService) (created : List ImportableRecord) (t t' : Tables) :
    Prop where
  counted : t'.records.entries.length = t.records.entries.length + created.length
  keyed : t.Keyed → t'.Keyed
  images : ∀ v, vault = some v → t.Keyed → (Vault.images v t').Perm
    ((created.map fun record => record.params.image) ++ Vault.images v t)

omit [Parsers] in
theorem ran_same (h : t.SameRecords t') : Ran vault [] t t' where
  counted := by
    rw [h.records]
    rfl
  keyed := h.keyed
  images := by
    intro v _ _
    rw [Vault.SameRecords.images h]
    exact List.Perm.refl _

omit [Parsers] in
theorem Ran.cons {record : ImportableRecord} {created : List ImportableRecord}
    (hfirst : ∃ v, vault = some v ∧ Vault.Created v record.params t u)
    (hrest : Ran vault created u t') : Ran vault (record :: created) t t' := by
  rcases hfirst with ⟨v, hvault, hcreated⟩
  constructor
  · have hcount := hrest.counted
    rw [hcreated.counted] at hcount
    rw [hcount, List.length_cons]
    omega
  · exact fun hkeyed => hrest.keyed (hcreated.keyed hkeyed)
  · intro v' hvault' hkeyed
    have hsame : v' = v := Option.some.inj (hvault'.symm.trans hvault)
    rw [hsame]
    have hperm := hrest.images v hvault (hcreated.keyed hkeyed)
    rw [hcreated.images hkeyed] at hperm
    exact hperm.trans List.perm_middle

omit [Parsers] in
theorem Ran.after {created : List ImportableRecord} (hsame : t.SameRecords u)
    (hrest : Ran vault created u t') : Ran vault created t t' where
  counted := by
    rw [← hsame.records]
    exact hrest.counted
  keyed := fun hkeyed => hrest.keyed (hsame.keyed hkeyed)
  images := by
    intro v hvault hkeyed
    have hperm := hrest.images v hvault (hsame.keyed hkeyed)
    rw [Vault.SameRecords.images hsame] at hperm
    exact hperm

omit [Parsers] in
theorem Ran.then {created : List ImportableRecord} (hfirst : Ran vault created t u)
    (hsame : u.SameRecords t') : Ran vault created t t' where
  counted := by
    rw [hsame.records]
    exact hfirst.counted
  keyed := fun hkeyed => hsame.keyed (hfirst.keyed hkeyed)
  images := by
    intro v hvault hkeyed
    rw [Vault.SameRecords.images hsame]
    exact hfirst.images v hvault hkeyed

/-- How the counts grow over some records, of which some were created. -/
structure Tallied (before after : ImportCounts) (records created : List ImportableRecord) :
    Prop where
  total : after.imported + after.reviewed + after.failed =
    before.imported + before.reviewed + before.failed + records.length
  reported : after.imported + after.reviewed ≤ before.imported + before.reviewed + created.length
  failing : before.failed ≤ after.failed
  whole : after.failed = before.failed → created = records
  plain : (∀ record ∈ records, record.isReview = false) → after.reviewed = before.reviewed

omit [Crypto] [Parsers] in
theorem Tallied.ok {before after : ImportCounts} {record : ImportableRecord}
    {records created : List ImportableRecord} {α : Type} {a : α}
    (h : Tallied (before.count record (.ok a : Except VaultError α)) after records created) :
    Tallied before after (record :: records) (record :: created) := by
  rcases h with ⟨htotal, hreported, hfailing, hwhole, hplain⟩
  cases hreview : record.isReview with
  | true =>
      simp only [ImportCounts.count, hreview, if_true] at htotal hreported hfailing hwhole hplain
      refine ⟨?_, ?_, hfailing, ?_, ?_⟩
      · rw [List.length_cons]
        omega
      · rw [List.length_cons]
        omega
      · exact fun heq => congrArg (List.cons record) (hwhole heq)
      · intro hall
        have hplainRecord := hall record List.mem_cons_self
        rw [hreview] at hplainRecord
        cases hplainRecord
  | false =>
      simp only [ImportCounts.count, hreview, Bool.false_eq_true,
        if_false] at htotal hreported hfailing hwhole hplain
      refine ⟨?_, ?_, hfailing, ?_, ?_⟩
      · rw [List.length_cons]
        omega
      · rw [List.length_cons]
        omega
      · exact fun heq => congrArg (List.cons record) (hwhole heq)
      · exact fun hall => hplain fun other hmem => hall other (List.mem_cons_of_mem _ hmem)

omit [Crypto] [Parsers] in
/-- A failed round may have left its record or not. -/
theorem Tallied.error {before after : ImportCounts} {record : ImportableRecord}
    {records created created' : List ImportableRecord} {α : Type} {e : VaultError}
    (hleft : created.length ≤ created'.length)
    (h : Tallied (before.count record (.error e : Except VaultError α)) after records created) :
    Tallied before after (record :: records) created' := by
  rcases h with ⟨htotal, hreported, hfailing, -, hplain⟩
  simp only [ImportCounts.count] at htotal hreported hfailing hplain
  refine ⟨?_, by omega, by omega, ?_, ?_⟩
  · rw [List.length_cons]
    omega
  · intro heq
    omega
  · exact fun hall => hplain fun other hmem => hall other (List.mem_cons_of_mem _ hmem)

variable [LawfulCrypto]

/-- One round: a record that is reported as created was, and a failed one may have been. -/
theorem wp_create (record : ImportableRecord) :
    wp transferEnv
      (fun outcome u => (∃ t, u = { w with tables := t }) ∧
        match outcome with
        | .ok _ => ∃ v, vault = some v ∧ Vault.Created v record.params w.tables u.tables
        | .error _ => w.tables.SameRecords u.tables ∨
            ∃ v, vault = some v ∧ Vault.Created v record.params w.tables u.tables)
      (onVault vault fun v => Vault.createRecord v record.params).run w := by
  cases vault with
  | none => exact ⟨⟨w.tables, rfl⟩, Or.inl (Tables.Outside.refl _ _)⟩
  | some v =>
      refine wp_of_wpe (wpe_embed vault_serves (wpe_mono ?_ ?_ Vault.wpe_createRecord))
      · intro id t hcreated
        exact ⟨⟨t, rfl⟩, v, rfl, hcreated⟩
      · intro e t hend
        refine ⟨⟨t, rfl⟩, ?_⟩
        rcases hend with hsame | hcreated
        · exact Or.inl hsame
        · exact Or.inr ⟨v, rfl, hcreated⟩

theorem wp_createRecords (records : List ImportableRecord) (counts : ImportCounts) :
    wp transferEnv
      (fun outcome u => (∃ t, u = { w with tables := t }) ∧ ∃ created,
        created.Sublist records ∧ Ran vault created w.tables u.tables ∧
          ∀ after, outcome = some after → Tallied counts after records created)
      (createRecords vault records counts) w := by
  -- nothing is created of an empty list
  have hsame : w.tables.SameRecords w.tables := Tables.Outside.refl _ _
  induction records generalizing counts w with
  | nil =>
      refine ⟨⟨w.tables, rfl⟩, [], List.Sublist.refl [], ran_same hsame, ?_⟩
      intro after heq
      cases heq
      exact ⟨rfl, le_rfl, le_rfl, fun _ => rfl, fun _ => rfl⟩
  | cons record rest ih =>
      refine wp_unlessCancelled ?_ ?_
      -- a cancelled import creates no more
      · exact ⟨⟨w.tables, rfl⟩, [], List.nil_sublist _, ran_same hsame, fun _ heq => nomatch heq⟩
      · refine (wp_bind _ _ _ _ _).mpr (wp_mono ?_ (wp_create record))
        rintro outcome u ⟨⟨t, hu⟩, houtcome⟩
        rw [hu]
        refine wp_mono ?_ (ih (counts.count record outcome) (Tables.Outside.refl _ _))
        rintro final u' ⟨⟨t', hu'⟩, created, hsub, hran, htally⟩
        rw [hu] at houtcome
        -- a creation that fails has created the record, or left the vault as it was
        refine ⟨⟨t', hu'⟩, ?_⟩
        cases outcome with
        | ok id =>
            exact ⟨record :: created, hsub.cons_cons record, Ran.cons houtcome hran,
              fun after heq => (htally after heq).ok⟩
        | error e =>
            rcases houtcome with hunchanged | hcreated
            · exact ⟨created, hsub.cons record, hran.after hunchanged,
                fun after heq => (htally after heq).error le_rfl⟩
            · exact ⟨record :: created, hsub.cons_cons record, Ran.cons hcreated hran,
                fun after heq => (htally after heq).error (Nat.le_succ _)⟩

end Loop

/-! ## Imports -/

section Imports

variable [Crypto] [LawfulCrypto] [Argon2] [ExportFormats] [TextPatterns] [Unicode] [Parsers]
  {vault : Option VaultService} {w : World}

/-- The records that the items of a file stand for. -/
def importedRecords (source : ImportSource) (items : List ParsedItem) : List ImportableRecord :=
  (importedItems source items).map recordOf

/-- What an import did to the vault, and what it reported of it. -/
structure ImportRan (vault : Option VaultService) (source : ImportSource)
    (contents : Except ImportExportError (List ParsedItem)) (created : List ImportableRecord)
    (outcome : ImportOutcome) (t t' : Tables) : Prop where
  ran : Ran vault created t t'
  among : ∀ items, contents = .ok items → created.Sublist (importedRecords source items)
  reported : ∀ imported reviewed skipped failed breakdown,
    outcome = .ImportCompleted imported reviewed skipped failed breakdown →
      ∃ items, contents = .ok items ∧ skipped = 0 ∧
        breakdown = buildSkipBreakdown (resultOf source items) ∧
        Tallied .zero
          { imported := imported
            reviewed := reviewed
            failed := failed }
          (importedRecords source items) created

omit [Crypto] [LawfulCrypto] [Argon2] [ExportFormats] [TextPatterns] [Unicode] in
/-- The audit entry and the health scan leave the records alone. -/
theorem wp_reportImport {source : ImportSource} {result : ImportResult} {counts : ImportCounts} :
    wp transferEnv
      (fun outcome u => u.files = w.files ∧ w.tables.SameRecords u.tables ∧
        outcome = .ImportCompleted counts.imported counts.reviewed result.skipped counts.failed
          (buildSkipBreakdown result))
      (reportImport vault source result counts) w := by
  -- the audit entry does not touch the records
  have haudit : wp transferEnv
      (fun _ u => u.files = w.files ∧ w.tables.SameRecords u.tables)
      (onVault vault fun _ => Vault.query (.insertAuditEntry .VaultImport none none
        (some (importDetail source counts result.skipped)))).run w := by
    have hsame : w.tables.SameRecords w.tables := Tables.Outside.refl _ _
    cases vault with
    | none => exact ⟨rfl, hsame⟩
    | some v =>
        refine wp_of_wpe (wpe_embed vault_serves (Vault.wpe_query ?_ fun _ => ⟨rfl, hsame⟩))
        intro _ _ t hrun _
        exact ⟨rfl, Vault.sameRecords_of_writes (by simp [DbOp.writes]) hrun⟩
  refine (wp_bind _ _ _ _ _).mpr (wp_mono ?_ haudit)
  rintro _ u ⟨hfiles, hsame⟩
  -- scheduling the health check changes neither the report nor the vault
  have hend : ∀ {c : Prop} [Decidable c] {outcome : ImportOutcome}, outcome =
      .ImportCompleted counts.imported counts.reviewed result.skipped counts.failed
        (buildSkipBreakdown result) →
      wp transferEnv
        (fun outcome u => u.files = w.files ∧ w.tables.SameRecords u.tables ∧
          outcome = .ImportCompleted counts.imported counts.reviewed result.skipped counts.failed
            (buildSkipBreakdown result))
        (if c then do
            let _ ← perform .scheduleHealthCheck
            return outcome
          else return outcome) u := by
    intro c _ outcome houtcome
    by_cases hc : c
    · rw [if_pos hc]
      intro x u' hstep
      have hu' : u' = u := hstep
      rw [hu']
      exact ⟨hfiles, hsame, houtcome⟩
    · rw [if_neg hc]
      exact ⟨hfiles, hsame, houtcome⟩
  exact hend rfl

/-- A run of an import, whatever it ends in. -/
theorem wp_importFile_ran {route : ImportRoute} {sessions : ImportSessions}
    {command : ImportCommand} :
    wp transferEnv
      (fun result u => u.files = w.files ∧ ∃ created,
        ImportRan vault command.source (importItemsOf w.files route command) created result.1
          w.tables u.tables)
      (importFile route vault sessions command) w := by
  have hsame : w.tables.SameRecords w.tables := Tables.Outside.refl _ _
  refine wp_importFile
    (Q := fun outcome u => u.files = w.files ∧ ∃ created,
      ImportRan vault command.source (importItemsOf w.files route command) created outcome
        w.tables u.tables) ?_ ?_
  · intro outcome hstop
    exact ⟨rfl, [], ran_same hsame, fun _ _ => List.nil_sublist _,
      fun _ _ _ _ _ heq => absurd heq (hstop _ _ _ _ _)⟩
  · intro items hitems
    -- all that was created was among the items
    have hamong : ∀ {created : List ImportableRecord},
        created.Sublist (importedRecords command.source items) → ∀ items',
          importItemsOf w.files route command = .ok items' →
            created.Sublist (importedRecords command.source items') := by
      intro created hsub items' hitems'
      have heq : items = items' := Except.ok.inj (hitems.symm.trans hitems')
      rw [← heq]
      exact hsub
    refine (wp_bind _ _ _ _ _).mpr (wp_mono ?_ (wp_createRecords _ .zero))
    rintro final u ⟨⟨t, hu⟩, created, hsub, hran, htally⟩
    have hfiles : u.files = w.files := by rw [hu]
    cases final with
    | none =>
        exact ⟨hfiles, created, hran, hamong hsub, fun _ _ _ _ _ heq => nomatch heq⟩
    | some counts =>
        refine wp_mono ?_ wp_reportImport
        -- the import ran to its end
        rintro outcome u' ⟨hfiles', hrecords, houtcome⟩
        refine ⟨hfiles'.trans hfiles, created, hran.then hrecords, hamong hsub, ?_⟩
        intro imported reviewed skipped failed breakdown heq
        rw [houtcome] at heq
        cases heq
        exact ⟨items, hitems, rfl, rfl, htally counts rfl⟩

end Imports

end OakKeyring
